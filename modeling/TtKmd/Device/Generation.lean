import TtKmd.Device.Context

/-!
# The reset generation

A handle latches the generation of the device when it is opened, and the gate lets
it pass while the two agree. Only a `RESET_DEVICE` that passes the gate and is
permitted changes the generation of the device, and it changes that of its own
handle along with it. No handle is ahead of the device.
-/

namespace TtKmd

open Lib

/-- A request that bumps the generation. -/
def bumps (d : DeviceContext) (F : Handle) : Request → Bool
  | .resetDevice io i _ => decide (ttCheckIoGates d F 6 = .success) && resetBumps d io i
  | _ => false

section Requests

variable {d : DeviceContext} {F : Handle}

/-- The gate refuses a handle of another generation. -/
theorem ttCheckIoGates_of_stale (h : d.openResetGen F ≠ d.resetGen) (nr : ℕ) :
    ttCheckIoGates d F nr = .deviceRemoved := by
  by_cases hdet : d.detached = true <;> simp [ttCheckIoGates, hdet, h]

/-- A handle is not removed when it has the current generation on an attached
device. -/
theorem DeviceContext.removed_eq_false :
    d.removed F = false ↔ d.detached = false ∧ d.openResetGen F = d.resetGen := by
  simp [DeviceContext.removed]

/-- A handle that passes the gate is not removed. -/
theorem not_removed_of_gate {nr : ℕ} (h : ttCheckIoGates d F nr = .success) :
    d.removed F = false := by
  rw [DeviceContext.removed_eq_false]
  unfold ttCheckIoGates at h
  split_ifs at h with hdet hgen
  exact ⟨by simpa using hdet, not_not.mp hgen⟩

/-- A request that passes the gate and may come from any process is handled. -/
theorem dispatch_of_gate {caller : Process} {r : Request}
    (hgate : ttCheckIoGates d F r.nr = .success) (hctx : r.inCallerContext = false) :
    dispatch d F caller r = handle d F caller r := by
  simp [dispatch, hgate, hctx]

/-- A request the gate refuses. -/
theorem dispatch_of_refused {caller : Process} {r : Request} {status : NtStatus}
    (hgate : ttCheckIoGates d F r.nr = status) (hne : status ≠ .success) :
    dispatch d F caller r = ⟨status, false, d⟩ := by
  simp [dispatch, hgate, hne]

/-- What a request leaves of the state the gate reads, and of the handles. -/
structure Kept (d d' : DeviceContext) : Prop where
  /-- The generation of the device. -/
  resetGen : d'.resetGen = d.resetGen
  /-- The generations of the handles. -/
  openResetGen : d'.openResetGen = d.openResetGen
  /-- The presence of the device. -/
  detached : d'.detached = d.detached
  /-- The file list. -/
  fileList : d'.fileList = d.fileList
  /-- The number of handles. -/
  nextFile : d'.nextFile = d.nextFile
  /-- The closed handles. -/
  closed : d'.closed = d.closed

/-- What a bump leaves of them. -/
structure Bumped (d d' : DeviceContext) (F : Handle) : Prop where
  /-- The generation of the device. -/
  resetGen : d'.resetGen = d.resetGen + 1
  /-- The generations of the handles. -/
  openResetGen : d'.openResetGen = Function.update d.openResetGen F (d.resetGen + 1)
  /-- The presence of the device. -/
  detached : d'.detached = d.detached
  /-- The file list. -/
  fileList : d'.fileList = d.fileList
  /-- The number of handles. -/
  nextFile : d'.nextFile = d.nextFile
  /-- The closed handles. -/
  closed : d'.closed = d.closed
  /-- The views after the zap. -/
  mem : d'.mem = ttResetZapMappings d.mem d.fileList
  /-- The locks after the pass. -/
  locks : d'.locks = ttLocksWakeWaiters d'.removed d.locks

/-- A request bumps the generation or leaves the handles as they are. -/
theorem dispatch_generation (d : DeviceContext) (F : Handle) (caller : Process) (r : Request) :
    (bumps d F r = false ∧ Kept d (dispatch d F caller r).device) ∨
      (bumps d F r = true ∧ Bumped d (dispatch d F caller r).device F) := by
  by_cases hgate : ttCheckIoGates d F r.nr = .success
  swap
  · rw [dispatch_of_refused rfl hgate]
    refine .inl ⟨?_, rfl, rfl, rfl, rfl, rfl, rfl⟩
    cases r with
    | resetDevice io i env =>
      have hgate6 : ttCheckIoGates d F 6 ≠ .success := hgate
      simp [bumps, hgate6]
    | _ => rfl
  cases r with
  | resetDevice io i env =>
    have hgate6 : ttCheckIoGates d F 6 = .success := hgate
    rw [dispatch_of_gate hgate rfl, handle]
    rcases ttIoctlResetDevice_cases d F io i env with ⟨hno, hd'⟩ | ⟨hyes, hw, hd'⟩
    · left
      refine ⟨by simp [bumps, hno], ?_⟩
      rcases hd' with hd' | hd' | hd' <;> rw [hd'] <;> exact ⟨rfl, rfl, rfl, rfl, rfl, rfl⟩
    · right
      rw [hd']
      exact ⟨by simp [bumps, hgate6, hyes], rfl, rfl, rfl, rfl, rfl, rfl, rfl, rfl⟩
  | _ =>
    refine .inl ⟨rfl, ?_⟩
    unfold dispatch
    split
    · exact ⟨rfl, rfl, rfl, rfl, rfl, rfl⟩
    split
    · exact ⟨rfl, rfl, rfl, rfl, rfl, rfl⟩
    · exact ⟨rfl, rfl, rfl, rfl, rfl, rfl⟩

/-- No request closes a handle. -/
theorem dispatch_closed (d : DeviceContext) (F : Handle) (caller : Process) (r : Request) :
    (dispatch d F caller r).device.closed = d.closed := by
  rcases dispatch_generation d F caller r with ⟨_, hkept⟩ | ⟨_, hbumped⟩
  · exact hkept.closed
  · exact hbumped.closed

end Requests

/-- No handle is ahead of the device. -/
def NoneAhead (d : DeviceContext) : Prop := ∀ F, d.openResetGen F ≤ d.resetGen

/-- Every step keeps the handles behind the device. -/
theorem NoneAhead.next {d d' : DeviceContext} {e : Event} (h : NoneAhead d)
    (hstep : d.next e = some d') : NoneAhead d' := by
  cases e with
  | create opener =>
    cases hstep
    intro F
    by_cases hF : F = d.nextFile
    · subst hF
      exact le_of_eq (Function.update_self _ _ _)
    · exact le_of_eq_of_le (Function.update_of_ne hF _ _) (h F)
  | request F caller r =>
    obtain ⟨-, rfl⟩ := DeviceContext.next_request hstep
    intro G
    rcases dispatch_generation d F caller r with ⟨_, hkept⟩ | ⟨_, hbumped⟩
    · rw [hkept.openResetGen, hkept.resetGen]
      exact h G
    · rw [hbumped.openResetGen, hbumped.resetGen]
      by_cases hG : G = F
      · subst hG
        exact le_of_eq (Function.update_self _ _ _)
      · rw [Function.update_of_ne hG]
        exact (h G).trans (Nat.le_succ _)
  | cleanup F =>
    obtain ⟨-, rfl⟩ := DeviceContext.next_cleanup hstep
    exact h
  | processExit process =>
    cases hstep
    exact h
  | surpriseRemoval =>
    cases hstep
    exact h
  | cancel k =>
    cases hstep
    exact h

/-- After a bump the other handles are stale. -/
theorem Bumped.stale {d d' : DeviceContext} {F G : Handle} (h : Bumped d d' F) (hle : NoneAhead d)
    (hG : G ≠ F) : d'.openResetGen G < d'.resetGen := by
  rw [h.openResetGen, h.resetGen, Function.update_of_ne hG]
  exact Nat.lt_succ_of_le (hle G)

end TtKmd
