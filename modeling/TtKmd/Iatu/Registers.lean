import TtKmd.Iatu.Allocator
import Mathlib.Tactic.IntervalCases

/-!
# Programming one outbound region

`ttBhConfigureOutboundAtu` writes nine 32-bit registers of a region, in one
fixed order for set-up and for teardown. The register file here takes effect at
each single write: a region whose enable bit is set translates the addresses
between its base and its limit. `ttSetupNocDma` and `ttTeardownNocDma` are the
two critical sections under `IatuLock` that use it.
-/

namespace TtKmd

/-- The registers of one outbound region, by their offset from `0x1000 + 0x100 * r`. -/
inductive AtuReg
  /-- Offset `0x00`, region control 1. -/
  | ctrl1
  /-- Offset `0x04`, region control 2; bit 31 enables the region. -/
  | ctrl2
  /-- Offset `0x08`, lower half of the base address. -/
  | baseLo
  /-- Offset `0x0C`, upper half of the base address. -/
  | baseHi
  /-- Offset `0x10`, lower half of the limit address. -/
  | limitLo
  /-- Offset `0x14`, lower half of the target address. -/
  | targetLo
  /-- Offset `0x18`, upper half of the target address. -/
  | targetHi
  /-- Offset `0x1C`, region control 3. -/
  | ctrl3
  /-- Offset `0x20`, upper half of the limit address. -/
  | limitHi
  deriving DecidableEq

/-- The words in the registers of one region. -/
abbrev AtuRegs := AtuReg → ℕ

/-- The base address in effect. -/
def AtuRegs.base (regs : AtuRegs) : ℕ := regs .baseLo + 2 ^ 32 * regs .baseHi

/-- The limit address in effect. -/
def AtuRegs.limit (regs : AtuRegs) : ℕ := regs .limitLo + 2 ^ 32 * regs .limitHi

/-- The target address in effect. -/
def AtuRegs.target (regs : AtuRegs) : ℕ := regs .targetLo + 2 ^ 32 * regs .targetHi

/-- `REGION_EN`. -/
def AtuRegs.enabled (regs : AtuRegs) : Bool := (regs .ctrl2).testBit 31

/-- The host address an enabled region translates a NOC address to. -/
def AtuRegs.translate (regs : AtuRegs) (a : ℕ) : Option ℕ :=
  if regs.enabled ∧ regs.base ≤ a ∧ a ≤ regs.limit then some (regs.target + (a - regs.base))
  else none

/-- One `WRITE_REGISTER_ULONG`. -/
def AtuRegs.write (regs : AtuRegs) (w : AtuReg × ℕ) : AtuRegs := Function.update regs w.1 w.2

/-- The nine writes of `TtBhConfigureOutboundAtu`, in program order. -/
def atuWrites (base limit target : ℕ) : List (AtuReg × ℕ) :=
  [(.baseLo, u32 base), (.baseHi, u32 (base >>> 32)),
   (.targetLo, u32 target), (.targetHi, u32 (target >>> 32)),
   (.limitLo, u32 limit), (.limitHi, u32 (limit >>> 32)),
   (.ctrl1, 1 <<< 13),
   (.ctrl2, if limit = 0 then 0 else 1 <<< 31),
   (.ctrl3, 0)]

/-- `TtBhConfigureOutboundAtu` on a region below 16: its status and the register
writes it performs. -/
def ttBhConfigureOutboundAtu (base limit target : ℕ) : NtStatus × List (AtuReg × ℕ) :=
  let size := u64 (u64Sub limit base + 1)
  if limit ≠ 0 ∧ size > 1 <<< 40 then (.invalidParameter, [])
  else (.success, atuWrites base limit target)

/-- The region table together with the register file it is programmed into. -/
structure IatuUnit where
  /-- `TT_DEVICE_CONTEXT.Iatu`. -/
  slots : IatuTable
  /-- The outbound iATU block of BAR2. -/
  regs : Fin 16 → AtuRegs

/-- One register write to one region. -/
def IatuUnit.write (u : IatuUnit) (r : Fin 16) (w : AtuReg × ℕ) : IatuUnit :=
  { u with regs := Function.update u.regs r ((u.regs r).write w) }

/-- A sequence of register writes to one region. -/
def IatuUnit.writes (u : IatuUnit) (r : Fin 16) (ws : List (AtuReg × ℕ)) : IatuUnit :=
  ws.foldl (fun u w => u.write r w) u

/-- The release of a slot whose programming failed: `Used` and `Owner` only. -/
def IatuUnit.unclaim (u : IatuUnit) (r : Fin 16) : IatuUnit :=
  { u with slots := Function.update u.slots r { (u.slots r) with used := false, owner := none } }

/-- The table entry of a torn-down region is zeroed. -/
def IatuUnit.clear (u : IatuUnit) (r : Fin 16) : IatuUnit :=
  { u with slots := Function.update u.slots r .empty }

/-- `TT_BH_NOC_PCIE_OFFSET`. -/
def nocPcieOffset : ℕ := 4 <<< 58

/-- What `TtSetupNocDma` returns, and the unit it leaves. -/
structure NocDmaResult where
  /-- The status. -/
  status : NtStatus
  /-- `*NocAddress`. -/
  nocAddress : ℕ
  /-- `*Region`; `none` is -1. -/
  region : Option (Fin 16)
  /-- The table and the registers afterwards. -/
  unit : IatuUnit

/-- `TtSetupNocDma`. -/
def ttSetupNocDma (u : IatuUnit) (owner : Handle) (topDown : Bool) (size target : ℕ) :
    NocDmaResult :=
  if size = 0 then ⟨.invalidParameter, 0, none, u⟩
  else
    match ttIatuFindAndClaim u.slots owner topDown size with
    | none => ⟨.insufficientResources, 0, none, u⟩
    | some (slot, base, slots) =>
        let claimed : IatuUnit := { u with slots := slots }
        let config := ttBhConfigureOutboundAtu base (u64Sub (u64 (base + size)) 1) target
        if config.1 = .success then
          ⟨.success, u64 (nocPcieOffset + base), some slot, claimed.writes slot config.2⟩
        else ⟨config.1, 0, none, claimed.unclaim slot⟩

/-- `TtTeardownNocDma`; `none` is a negative region. The hardware writes are
skipped on a detached device. -/
def ttTeardownNocDma (detached : Bool) (u : IatuUnit) (region : Option (Fin 16)) : IatuUnit :=
  match region with
  | none => u
  | some r =>
      let programmed := if detached then u else u.writes r (ttBhConfigureOutboundAtu 0 0 0).2
      programmed.clear r

/-- A range of at most `2 ^ 40` addresses inside the space is programmed. -/
theorem ttBhConfigureOutboundAtu_of_small {base size : ℕ} (target : ℕ) (hpos : 0 < size)
    (hsize : size ≤ 2 ^ 40) (hfit : base + size ≤ nocDmaLimit + 1) :
    ttBhConfigureOutboundAtu base (base + size - 1) target =
      (.success, atuWrites base (base + size - 1) target) := by
  have hspan : u64 (u64Sub (base + size - 1) base + 1) = size := by
    unfold u64 u64Sub
    unfold nocDmaLimit at hfit
    omega
  have hsmall : ¬(size > 1 <<< 40) := by
    rw [Nat.shiftLeft_eq, Nat.one_mul]
    omega
  unfold ttBhConfigureOutboundAtu
  simp only [hspan, hsmall, and_false, if_false]

/-- What a translation says about the registers. -/
theorem AtuRegs.translate_eq_some {regs : AtuRegs} {a h : ℕ} :
    regs.translate a = some h ↔
      regs.enabled = true ∧ regs.base ≤ a ∧ a ≤ regs.limit ∧ h = regs.target + (a - regs.base) := by
  unfold AtuRegs.translate
  split
  · rename_i hc
    simp only [Option.some.injEq]
    tauto
  · rename_i hc
    simp only [reduceCtorEq, false_iff]
    tauto

/-- The registers of one region after a sequence of writes to it. -/
def AtuRegs.writes (regs : AtuRegs) (ws : List (AtuReg × ℕ)) : AtuRegs :=
  ws.foldl AtuRegs.write regs

/-- A sequence of writes to one region changes the registers of that region only. -/
theorem IatuUnit.writes_eq (u : IatuUnit) (r : Fin 16) (ws : List (AtuReg × ℕ)) :
    u.writes r ws = { u with regs := Function.update u.regs r ((u.regs r).writes ws) } := by
  induction ws generalizing u with
  | nil => simp [IatuUnit.writes, AtuRegs.writes]
  | cons x xs ih =>
    have h := ih (u.write r x)
    unfold IatuUnit.writes at h ⊢
    rw [List.foldl_cons, h]
    simp [IatuUnit.write, AtuRegs.writes]

/-- The first seven writes leave the enable bit alone. -/
theorem atuWrites_take_enabled (regs : AtuRegs) (base limit target : ℕ) {k : ℕ} (hk : k ≤ 7) :
    (regs.writes ((atuWrites base limit target).take k)).enabled = regs.enabled := by
  interval_cases k <;> simp [AtuRegs.writes, atuWrites, AtuRegs.enabled, AtuRegs.write]

/-- The halves of an address below `2 ^ 64` decode to it. -/
theorem halves_decode {x : ℕ} (hx : x < 2 ^ 64) : u32 x + 2 ^ 32 * u32 (x >>> 32) = x := by
  unfold u32
  rw [Nat.shiftRight_eq_div_pow]
  omega

/-- From the eighth write on the registers decode to the programmed values. -/
theorem atuWrites_take_decode (regs : AtuRegs) (base limit target : ℕ) {k : ℕ}
    (hk : 8 ≤ k) (hbase : base < 2 ^ 64) (hlimit : limit < 2 ^ 64) (htarget : target < 2 ^ 64) :
    let regs' := regs.writes ((atuWrites base limit target).take k)
    regs'.enabled = decide (limit ≠ 0) ∧ regs'.base = base ∧ regs'.limit = limit ∧
      regs'.target = target := by
  have hb := halves_decode hbase
  have hl := halves_decode hlimit
  have ht := halves_decode htarget
  have hen : (if limit = 0 then 0 else 1 <<< 31 : ℕ).testBit 31 = decide (limit ≠ 0) := by
    by_cases h : limit = 0
    · simp [h]
    · simp only [h, if_false, ne_eq, not_false_eq_true, decide_true]
      decide
  have htake : (atuWrites base limit target).take k = (atuWrites base limit target).take 8 ∨
      (atuWrites base limit target).take k = atuWrites base limit target := by
    rcases Nat.lt_or_ge k 9 with h | h
    · left
      rw [show k = 8 by omega]
    · right
      exact List.take_of_length_le (by simpa [atuWrites] using h)
  rcases htake with h | h <;>
  · simp only [h]
    refine ⟨?_, ?_, ?_, ?_⟩
    · simpa [AtuRegs.writes, atuWrites, AtuRegs.enabled, AtuRegs.write] using hen
    · simpa [AtuRegs.writes, atuWrites, AtuRegs.base, AtuRegs.write] using hb
    · simpa [AtuRegs.writes, atuWrites, AtuRegs.limit, AtuRegs.write] using hl
    · simpa [AtuRegs.writes, atuWrites, AtuRegs.target, AtuRegs.write] using ht

end TtKmd
