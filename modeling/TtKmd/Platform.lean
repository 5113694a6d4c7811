import Mathlib.Algebra.Group.Nat.Defs

/-!
# Status codes, fixed-width arithmetic and identities

The driver's machine integers are natural numbers here, and an operation that
can wrap is written with its reduction. File objects, processes and DMA buffers
are named by numbers: a file object number is never reused, so a closed handle
and a later one are different objects.
-/

namespace TtKmd

/-- The `NTSTATUS` values the modelled code returns. -/
inductive NtStatus
  | success
  | invalidParameter
  | accessViolation
  | accessDenied
  | insufficientResources
  | quotaExceeded
  | deviceBusy
  | objectNameCollision
  | notSupported
  | deviceRemoved
  | deviceNotReady
  | invalidDeviceRequest
  | notFound
  | cancelled
  deriving DecidableEq, Repr

/-- A file object (`WDFFILEOBJECT`), one for each open handle. -/
abbrev Handle := ℕ

/-- A process (`PEPROCESS`). -/
abbrev Process := ℕ

/-- `PAGE_SIZE`. -/
def pageSize : ℕ := 4096

/-- `MAXULONG` and `MAXUINT32`. -/
def maxUlong : ℕ := 2 ^ 32 - 1

/-- The value of a `UINT64` expression. -/
def u64 (x : ℕ) : ℕ := x % 2 ^ 64

/-- `UINT64` subtraction of operands below `2 ^ 64`. -/
def u64Sub (a b : ℕ) : ℕ := (a + 2 ^ 64 - b) % 2 ^ 64

/-- The value of a `UINT32` expression. -/
def u32 (x : ℕ) : ℕ := x % 2 ^ 32

/-- `UINT32` subtraction of operands below `2 ^ 32`. -/
def u32Sub (a b : ℕ) : ℕ := (a + 2 ^ 32 - b) % 2 ^ 32

end TtKmd
