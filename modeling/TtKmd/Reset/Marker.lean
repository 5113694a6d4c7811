import TtKmd.Device.Generation
import TtKmd.Reset.ConfigSpace
import TtKmd.Lib.Runs

/-!
# The proof of a reset

A flavor that opens the reset window marks the configuration space, and `POST_RESET`
takes a clear marker as the proof that the chip was reset. Here a device runs together
with its configuration space, and the chip may be reset between any two requests.

The marker is missing after an `ASIC_DMC_RESET` that finds the firmware dead, and
`RESTORE_STATE` inside the window rewrites Command from the snapshot. In a run without
these two, a `POST_RESET` that reports success proves a reset.
-/

namespace TtKmd

open Lib

/-- The restore of `RESTORE_STATE` and of `POST_RESET`: the snapshot is written back, and a
Blackhole is initialised. -/
def restoreAndInit (isBlackhole : Bool) (c : ConfigState) : Bool × ConfigState :=
  if (ttSafeRestoreState c).1 && isBlackhole then ttBhInitHardware (ttSafeRestoreState c).2
  else ttSafeRestoreState c

/-- The switch of `TtIoctlResetDevice` on the configuration space: `ok` and the registers
after it. `test` says that the firmware answers, `pldr` that the platform can reset the
link. -/
def resetSwitch (d : DeviceContext) (c : ConfigState) (test pldr : Bool) :
    ℕ → Option (Bool × ConfigState)
  | 0 => some (restoreAndInit d.config.isBlackhole c)
  | 1 => some (pldr, c)
  | 2 => some (if !ttResetLegacyFlagPermitted d 2 then (false, c) else ttPcieTimerInterrupt c)
  | 3 => some (true, ttSetResetMarker c)
  | 4 =>
      some (if !ttResetLegacyFlagPermitted d 4 then (false, c)
        else if d.config.isBlackhole then ttBhReset c 4 test else (false, c))
  | 5 =>
      some (if !ttResetLegacyFlagPermitted d 5 then (false, c)
        else if d.config.isBlackhole then ttBhReset c 5 test else (false, c))
  | 6 =>
      if d.needsHwInit then
        if ttIsResetMarkerZero c then some (restoreAndInit d.config.isBlackhole c)
        else some (false, c)
      else some (ttIsResetMarkerZero c, c)
  | _ => none

/-- The answers of the hardware, read off the configuration space. -/
def resetEnv (c : ConfigState) (flags : ℕ) (test pldr : Bool) : ResetEnv where
  safeRestoreState := (ttSafeRestoreState c).1
  bhInitHardware := (ttBhInitHardware (ttSafeRestoreState c).2).1
  pldrInitiate := pldr
  pcieTimerInterrupt := (ttPcieTimerInterrupt c).1
  bhReset := (ttBhReset c flags test).1
  isResetMarkerZero := ttIsResetMarkerZero c

/-- The restore succeeds when the snapshot could be written back. -/
theorem restoreAndInit_fst (isBlackhole : Bool) (c : ConfigState) :
    (restoreAndInit isBlackhole c).1 = (ttSafeRestoreState c).1 := by
  unfold restoreAndInit
  split
  · rename_i hok
    simp only [Bool.and_eq_true] at hok
    rw [ttBhInitHardware_fst, hok.1]
  · rfl

/-- With these answers, the device reports what the switch on the configuration space
gives. -/
theorem resetFlavor_ok (d : DeviceContext) (F : Handle) (c : ConfigState) (test pldr : Bool) :
    ∀ flags, (resetFlavor d F (resetEnv c flags test pldr) flags).map Prod.fst =
      (resetSwitch d c test pldr flags).map Prod.fst
  | 0 => by
    simp [resetFlavor, resetSwitch, resetEnv, restoreAndInit_fst, ttBhInitHardware_fst]
  | 1 => rfl
  | 2 => by
    cases hpermit : ttResetLegacyFlagPermitted d 2 <;>
      simp [resetFlavor, resetSwitch, resetEnv, bumpingReset, hpermit]
  | 3 => rfl
  | 4 => by
    cases hpermit : ttResetLegacyFlagPermitted d 4 <;> cases hbh : d.config.isBlackhole <;>
      simp [resetFlavor, resetSwitch, resetEnv, bumpingReset, hpermit, hbh]
  | 5 => by
    cases hpermit : ttResetLegacyFlagPermitted d 5 <;> cases hbh : d.config.isBlackhole <;>
      simp [resetFlavor, resetSwitch, resetEnv, bumpingReset, hpermit, hbh]
  | 6 => by
    cases hwindow : d.needsHwInit <;> cases hzero : ttIsResetMarkerZero c <;>
      simp [resetFlavor, resetSwitch, resetEnv, hwindow, hzero, restoreAndInit_fst,
        ttBhInitHardware_fst]
  | _ + 7 => rfl

/-- `out.result` of a request that reaches the switch. -/
def resetResult (d : DeviceContext) (c : ConfigState) (test pldr : Bool) (flags : ℕ) : Option ℕ :=
  (resetSwitch d c test pldr flags).map fun r => if r.1 then 0 else 1

/-- A device with its configuration space. -/
structure ResetWorld where
  /-- The device. -/
  device : DeviceContext
  /-- Its configuration space. -/
  config : ConfigState
  /-- The chip was reset after the request that last set `NeedsHwInit`. -/
  resetSince : Bool

/-- What can happen. -/
inductive ResetEvent
  /-- A `RESET_DEVICE` request. -/
  | reset (F : Handle) (caller : Process) (io : Io) (i : ResetIn) (test pldr : Bool)
  /-- Any other event of the device. -/
  | other (e : Event)
  /-- The chip is reset, and its configuration space comes back with other contents. -/
  | chipReset (cfg : ℕ → BitVec 16)

/-- An event of the device that is a `RESET_DEVICE` request. -/
def Event.isReset : Event → Bool
  | .request _ _ (.resetDevice ..) => true
  | _ => false

/-- A `RESET_DEVICE` request that reaches the switch. -/
def resetExecutes (d : DeviceContext) (F : Handle) (io : Io) : Bool :=
  decide (ttCheckIoGates d F 6 = .success) && decide (ttCopyInBuffer io 8 = .success)

/-- A `RESET_DEVICE` request that sets `NeedsHwInit`. -/
def opensWindow (d : DeviceContext) (F : Handle) (io : Io) (i : ResetIn) : Bool :=
  resetExecutes d F io && decide (3 ≤ i.flags ∧ i.flags ≤ 5) &&
    ttResetLegacyFlagPermitted d i.flags

/-- One step; `none` is an event that cannot happen. -/
def ResetWorld.next (w : ResetWorld) : ResetEvent → Option ResetWorld
  | .reset F caller io i test pldr =>
      if w.device.isOpen F then
        some {
          device := (dispatch w.device F caller
            (.resetDevice io i (resetEnv w.config i.flags test pldr))).device
          config :=
            if resetExecutes w.device F io then
              ((resetSwitch w.device w.config test pldr i.flags).map Prod.snd).getD w.config
            else w.config
          resetSince := w.resetSince && !opensWindow w.device F io i }
      else none
  | .other e =>
      if e.isReset then none else (w.device.next e).map fun device => { w with device }
  | .chipReset cfg =>
      if cfg pciCommand &&& pciCommandParity = 0 then
        some { w with config := { w.config with cfg }, resetSince := true }
      else none

/-- The configuration space after `EvtDevicePrepareHardware`. -/
def ConfigState.started (isBlackhole busInterfaceValid : Bool) (cfg : ℕ → BitVec 16) :
    ConfigState :=
  let c : ConfigState := ⟨busInterfaceValid, cfg, .none, false, fun _ => 0#32, 0#16, 0#16⟩
  if isBlackhole then ttPciSaveState (ttBhInitHardware (ttDiscoverPcieCap c)).2 else c

/-- A started device with its configuration space. -/
def ResetWorld.started (config : MemoryConfig) (subsysVendorId subsysId : ℕ)
    (regs : Fin 16 → AtuRegs) (busInterfaceValid : Bool) (cfg : ℕ → BitVec 16) : ResetWorld where
  device := .started config subsysVendorId subsysId false regs
  config := .started config.isBlackhole busInterfaceValid cfg
  resetSince := false

section Steps

variable {d d' : DeviceContext} {c c' : ConfigState} {F : Handle} {test pldr ok : Bool} {flags : ℕ}

/-- What a flavor that bumps the generation does to `NeedsHwInit`. -/
theorem bumpingReset_window (d : DeviceContext) (F : Handle) (flags : ℕ) (ok needsHwInit : Bool) :
    (bumpingReset d F flags ok needsHwInit).2.config = d.config ∧
      (bumpingReset d F flags ok needsHwInit).2.needsHwInit =
        if ttResetLegacyFlagPermitted d flags = true then needsHwInit else d.needsHwInit := by
  rcases bumpingReset_cases d F flags ok needsHwInit with ⟨hno, hres⟩ | ⟨hyes, hres⟩
  · rw [hres, hno]
    exact ⟨rfl, rfl⟩
  · rw [hres, hyes]
    exact ⟨rfl, rfl⟩

/-- What the switch does to `NeedsHwInit`. -/
theorem resetFlavor_window {env : ResetEnv} :
    ∀ {flags}, resetFlavor d F env flags = some (ok, d') →
      d'.config = d.config ∧ d'.needsHwInit =
        if (3 ≤ flags ∧ flags ≤ 5) ∧ ttResetLegacyFlagPermitted d flags = true then true
        else if flags = 6 then false else d.needsHwInit
  | 0, h => by
    cases h
    exact ⟨rfl, rfl⟩
  | 1, h => by
    cases h
    exact ⟨rfl, rfl⟩
  | 2, h => by
    have hwindow := bumpingReset_window d F 2 env.pcieTimerInterrupt d.needsHwInit
    rw [Option.some.inj h] at hwindow
    simpa using hwindow
  | 3, h => by
    cases h
    exact ⟨rfl, rfl⟩
  | 4, h => by
    have hwindow := bumpingReset_window d F 4 (d.config.isBlackhole && env.bhReset) true
    rw [Option.some.inj h] at hwindow
    simpa using hwindow
  | 5, h => by
    have hwindow := bumpingReset_window d F 5 (d.config.isBlackhole && env.bhReset) true
    rw [Option.some.inj h] at hwindow
    simpa using hwindow
  | 6, h => by
    simp only [resetFlavor] at h
    split at h
    · cases h
      exact ⟨rfl, rfl⟩
    · rename_i hwindow
      cases h
      exact ⟨rfl, by simpa using hwindow⟩
  | _ + 7, h => by cases h

/-- A request that is no reset, and every other event, leaves the window as it is. -/
theorem next_window {e : Event} (hother : e.isReset = false) (hstep : d.next e = some d') :
    d'.config = d.config ∧ d'.needsHwInit = d.needsHwInit := by
  cases e with
  | request F caller r =>
    obtain ⟨-, rfl⟩ := DeviceContext.next_request hstep
    unfold dispatch
    split
    · exact ⟨rfl, rfl⟩
    split
    · exact ⟨rfl, rfl⟩
    cases r with
    | resetDevice io i env => cases hother
    | _ => exact ⟨rfl, rfl⟩
  | cleanup F =>
    obtain ⟨-, rfl⟩ := DeviceContext.next_cleanup hstep
    exact ⟨rfl, rfl⟩
  | _ =>
    rw [← Option.some.inj hstep]
    exact ⟨rfl, rfl⟩

/-- The registers after the restore. -/
theorem restoreAndInit_cases (isBlackhole : Bool) (c : ConfigState) :
    (¬ c.Restorable ∧ restoreAndInit isBlackhole c = (false, c)) ∨
      (c.Restorable ∧ (restoreAndInit isBlackhole c).1 = true ∧
        ((restoreAndInit isBlackhole c).2.Marker ↔ c.MarkerSaved) ∧
        (restoreAndInit isBlackhole c).2.busInterfaceValid = c.busInterfaceValid) := by
  rcases ttSafeRestoreState_cases c with ⟨hno, hres⟩ | ⟨hyes, hok, hmarker, hbus⟩
  · left
    simp [restoreAndInit, hres, hno]
  · right
    refine ⟨hyes, (restoreAndInit_fst ..).trans hok, ?_⟩
    unfold restoreAndInit
    split
    · have hkept := commandKept_initHardware (ttSafeRestoreState c).2
      exact ⟨hkept.marker_iff.trans hmarker, hkept.busInterfaceValid.trans hbus⟩
    · exact ⟨hmarker, hbus⟩

/-- What a flavor of `TtBhReset` does to the registers. -/
theorem ttBhReset_cases (c : ConfigState) (flags : ℕ) (test : Bool) :
    (flags = 5 ∧ test = false ∧ (ttBhReset c flags test).2 = c) ∨
      CommandKept (ttSetResetMarker c) (ttBhReset c flags test).2 := by
  unfold ttBhReset
  split
  · rename_i hflags
    cases htest : test
    · exact .inl ⟨hflags, rfl, rfl⟩
    · exact .inr (.refl _)
  · exact .inr (commandKept_timerInterrupt _)

/-- What the switch does to the registers of a Blackhole. -/
inductive SwitchEffect (d : DeviceContext) (c : ConfigState) (test : Bool) (flags : ℕ)
    (c' : ConfigState) : Prop
  /-- Command is not touched; if the request opens the window, it is an `ASIC_DMC_RESET`
  that found the firmware dead. -/
  | kept (hkept : CommandKept c c') (hopens : (3 ≤ flags ∧ flags ≤ 5) ∧
      ttResetLegacyFlagPermitted d flags = true → flags = 5 ∧ test = false)
  /-- The marker is set. -/
  | marked (hkept : CommandKept (ttSetResetMarker c) c') (hflags : 3 ≤ flags ∧ flags ≤ 5)
  /-- Command is written back. -/
  | restored (hflags : flags = 0 ∨ flags = 6) (hrestorable : c.Restorable)
      (hmarker : c'.Marker ↔ c.MarkerSaved)
      (hbus : c'.busInterfaceValid = c.busInterfaceValid)

/-- The effect of a restore. -/
theorem switchEffect_restore (hflags : flags = 0 ∨ flags = 6)
    (h : restoreAndInit d.config.isBlackhole c = (ok, c')) : SwitchEffect d c test flags c' := by
  rcases restoreAndInit_cases d.config.isBlackhole c with
    ⟨-, hres⟩ | ⟨hrestorable, -, hmarker, hbus⟩
  · rw [h] at hres
    cases hres
    exact .kept (.refl _) (by omega)
  · rw [h] at hmarker hbus
    exact .restored hflags hrestorable hmarker hbus

/-- The effect of an `ASIC_RESET` or an `ASIC_DMC_RESET`. -/
theorem switchEffect_asic (hbh : d.config.isBlackhole = true) (hflags : flags = 4 ∨ flags = 5)
    (h : (if !ttResetLegacyFlagPermitted d flags then (false, c)
      else if d.config.isBlackhole then ttBhReset c flags test else (false, c)) = (ok, c')) :
    SwitchEffect d c test flags c' := by
  cases hpermit : ttResetLegacyFlagPermitted d flags with
  | false =>
    simp only [hpermit, Bool.not_false, if_true] at h
    cases h
    refine .kept (.refl _) ?_
    rintro ⟨-, hyes⟩
    rw [hpermit] at hyes
    cases hyes
  | true =>
    simp only [hpermit, Bool.not_true, Bool.false_eq_true, if_false, hbh, if_true] at h
    rcases ttBhReset_cases c flags test with ⟨h5, htest, hres⟩ | hkept
    · rw [h] at hres
      cases hres
      exact .kept (.refl _) fun _ => ⟨h5, htest⟩
    · rw [h] at hkept
      exact .marked hkept (by omega)

/-- Everything the switch can do to the registers of a Blackhole. -/
theorem resetSwitch_effect (hbh : d.config.isBlackhole = true) :
    ∀ {flags}, resetSwitch d c test pldr flags = some (ok, c') → SwitchEffect d c test flags c'
  | 0, h => switchEffect_restore (.inl rfl) (Option.some.inj h)
  | 1, h => by
    cases h
    exact .kept (.refl _) (by omega)
  | 2, h => by
    simp only [resetSwitch, Option.some.injEq] at h
    split at h
    · cases h
      exact .kept (.refl _) (by omega)
    · have hkept := commandKept_timerInterrupt c
      rw [h] at hkept
      exact .kept hkept (by omega)
  | 3, h => by
    cases h
    exact .marked (.refl _) (by omega)
  | 4, h => switchEffect_asic hbh (.inl rfl) (Option.some.inj h)
  | 5, h => switchEffect_asic hbh (.inr rfl) (Option.some.inj h)
  | 6, h => by
    simp only [resetSwitch] at h
    split at h
    · split at h
      · exact switchEffect_restore (.inr rfl) (Option.some.inj h)
      · cases h
        exact .kept (.refl _) (by omega)
    · cases h
      exact .kept (.refl _) (by omega)
  | _ + 7, h => by cases h

/-- Without a snapshot there is none after the switch either, on a device that is no
Blackhole. -/
theorem resetSwitch_unsaved (hbh : d.config.isBlackhole = false)
    (hsaved : c.savedStateValid = false) :
    ∀ {flags}, resetSwitch d c test pldr flags = some (ok, c') → c'.savedStateValid = false := by
  have hrestore : restoreAndInit d.config.isBlackhole c = (ok, c') →
      c'.savedStateValid = false := by
    intro h
    rcases restoreAndInit_cases d.config.isBlackhole c with ⟨-, hres⟩ | ⟨⟨-, hyes⟩, -⟩
    · rw [h] at hres
      cases hres
      exact hsaved
    · rw [hsaved] at hyes
      cases hyes
  intro flags h
  unfold resetSwitch at h
  split at h
  · exact hrestore (Option.some.inj h)
  · cases h
    exact hsaved
  · split at h
    · cases h
      exact hsaved
    · cases h
      exact (commandKept_timerInterrupt c).savedStateValid.trans hsaved
  · cases h
    exact (ttSetResetMarker_saved c).2.1.trans hsaved
  · rw [hbh] at h
    split at h <;> cases h <;> exact hsaved
  · rw [hbh] at h
    split at h <;> cases h <;> exact hsaved
  · split at h
    · split at h
      · exact hrestore (Option.some.inj h)
      · cases h
        exact hsaved
    · cases h
      exact hsaved
  · cases h

end Steps

/-- The steps that keep the marker while it is needed: an `ASIC_DMC_RESET` of a Blackhole
finds the firmware alive or the marker set already, and a `RESTORE_STATE` inside the
window has no snapshot to write over the marker, or one that has the marker too. -/
def KeepsMarker (w : ResetWorld) : ResetEvent → Prop
  | .reset F _ io i test _ =>
      resetExecutes w.device F io = true → w.device.config.isBlackhole = true →
        w.config.busInterfaceValid = true →
        (i.flags = 5 → test = true ∨ w.config.Marker) ∧
          (i.flags = 0 → w.device.needsHwInit = true → w.config.Marker →
            ¬ w.config.Restorable ∨ w.config.MarkerSaved)
  | _ => True

/-- What holds along such a run. -/
structure MarkerProof (w : ResetWorld) : Prop where
  /-- Only a Blackhole has a snapshot. -/
  unsaved : w.device.config.isBlackhole = false → w.config.savedStateValid = false
  /-- Inside the window the marker is set until the chip is reset. -/
  marked : w.device.needsHwInit = true → w.resetSince = false →
    w.device.config.isBlackhole = true → w.config.busInterfaceValid = true → w.config.Marker

section Runs

variable {w w' : ResetWorld} {F : Handle} {caller : Process} {io : Io} {i : ResetIn}
  {test pldr : Bool}

/-- A request that does not reach the switch changes nothing. -/
theorem dispatch_reset_refused {d : DeviceContext} {env : ResetEnv}
    (h : resetExecutes d F io = false) :
    (dispatch d F caller (.resetDevice io i env)).device = d := by
  unfold dispatch
  split
  · rfl
  rename_i hgate
  split
  · rfl
  have hgate' : ttCheckIoGates d F 6 = .success := not_not.mp hgate
  simp only [resetExecutes, hgate', decide_true, Bool.true_and, decide_eq_false_iff_not] at h
  simp only [handle, ttIoctlResetDevice, ne_eq, h, not_false_eq_true, if_true]

/-- A request that reaches the switch leaves the device of its flavor. -/
theorem dispatch_reset_executes {d : DeviceContext} {env : ResetEnv}
    (h : resetExecutes d F io = true) :
    (resetFlavor d F env i.flags = none ∧
        (dispatch d F caller (.resetDevice io i env)).device = d) ∨
      ∃ ok, resetFlavor d F env i.flags =
        some (ok, (dispatch d F caller (.resetDevice io i env)).device) := by
  simp only [resetExecutes, Bool.and_eq_true, decide_eq_true_eq] at h
  rw [dispatch_of_gate h.1 rfl]
  simp only [handle, ttIoctlResetDevice, h.2, ne_eq, not_true_eq_false, if_false]
  cases hflavor : resetFlavor d F env i.flags with
  | none => exact .inl ⟨rfl, rfl⟩
  | some res => exact .inr ⟨res.1, rfl⟩

/-- The flavors that set `NeedsHwInit`. -/
def Opening (d : DeviceContext) (i : ResetIn) : Prop :=
  (3 ≤ i.flags ∧ i.flags ≤ 5) ∧ ttResetLegacyFlagPermitted d i.flags = true

/-- What a `RESET_DEVICE` request that reaches the switch does. -/
structure Switched (w w' : ResetWorld) (i : ResetIn) (test pldr ok : Bool) : Prop where
  /-- The registers. -/
  config : resetSwitch w.device w.config test pldr i.flags = some (ok, w'.config)
  /-- The kind of the device. -/
  same : w'.device.config = w.device.config
  /-- A flavor that opens the window. -/
  opening : Opening w.device i → w'.device.needsHwInit = true ∧ w'.resetSince = false
  /-- Every other flavor but `POST_RESET`. -/
  other : ¬ Opening w.device i → w'.resetSince = w.resetSince ∧
    w'.device.needsHwInit = if i.flags = 6 then false else w.device.needsHwInit

/-- Everything a `RESET_DEVICE` request can do. -/
theorem ResetWorld.next_reset_cases
    (hstep : w.next (.reset F caller io i test pldr) = some w') :
    w' = w ∨ resetExecutes w.device F io = true ∧ ∃ ok, Switched w w' i test pldr ok := by
  simp only [ResetWorld.next] at hstep
  split at hstep
  swap
  · cases hstep
  have hw' := Option.some.inj hstep
  cases hexec : resetExecutes w.device F io with
  | false =>
    left
    simp only [dispatch_reset_refused hexec, opensWindow, hexec, Bool.false_eq_true, if_false,
      Bool.false_and, Bool.not_false, Bool.and_true] at hw'
    exact hw'.symm
  | true =>
    have hopens : opensWindow w.device F io i = true ↔ Opening w.device i := by
      simp [opensWindow, Opening, hexec]
    have hok := resetFlavor_ok w.device F w.config test pldr i.flags
    rcases @dispatch_reset_executes F caller io i w.device
      (resetEnv w.config i.flags test pldr) hexec with ⟨hnone, hsame⟩ | ⟨ok, hflavor⟩
    · left
      rw [hnone, Option.map_none, eq_comm, Option.map_eq_none_iff] at hok
      have hclosed : opensWindow w.device F io i = false := by
        rw [← Bool.not_eq_true, hopens]
        rintro ⟨hrange, -⟩
        have hflags : i.flags = 3 ∨ i.flags = 4 ∨ i.flags = 5 := by omega
        rcases hflags with hf | hf | hf <;> rw [hf] at hok <;> cases hok
      simp only [hsame, hexec, if_true, hok, hclosed, Option.map_none, Option.getD_none,
        Bool.not_false, Bool.and_true] at hw'
      exact hw'.symm
    · refine .inr ⟨rfl, ok, ?_⟩
      obtain ⟨hsame, hwindow⟩ := resetFlavor_window hflavor
      rw [hflavor, Option.map_some, eq_comm, Option.map_eq_some_iff] at hok
      obtain ⟨⟨ok', c'⟩, hswitch, rfl⟩ := hok
      rw [← hw']
      refine ⟨?_, hsame, ?_, ?_⟩
      · simp [hexec, hswitch]
      · intro hopening
        simp only [hopens.mpr hopening, Bool.not_true, Bool.and_false, and_true]
        exact hwindow.trans (if_pos hopening)
      · intro hno
        have hclosed : opensWindow w.device F io i = false := by
          rw [← Bool.not_eq_true, hopens]
          exact hno
        simp only [hclosed, Bool.not_false, Bool.and_true, true_and]
        exact hwindow.trans (if_neg hno)

/-- A `RESET_DEVICE` request that meets the condition keeps the invariant. -/
theorem MarkerProof.reset (h : MarkerProof w)
    (hkeeps : KeepsMarker w (.reset F caller io i test pldr))
    (hstep : w.next (.reset F caller io i test pldr) = some w') : MarkerProof w' := by
  rcases ResetWorld.next_reset_cases hstep with rfl | ⟨hexec, ok, hsw⟩
  · exact h
  constructor
  · intro hbh
    rw [hsw.same] at hbh
    exact resetSwitch_unsaved hbh (h.unsaved hbh) hsw.config
  · intro hwindow hsince hbh hbus
    rw [hsw.same] at hbh
    rcases resetSwitch_effect hbh hsw.config with
      ⟨hkept, hopens⟩ | ⟨hkept, -⟩ | ⟨hflags, hrestorable, hmarker, hbus'⟩
    · rw [hkept.marker_iff]
      rw [hkept.busInterfaceValid] at hbus
      by_cases hopening : Opening w.device i
      · obtain ⟨h5, htest⟩ := hopens hopening
        rcases (hkeeps hexec hbh hbus).1 h5 with halive | hmarker
        · rw [htest] at halive
          cases halive
        · exact hmarker
      · obtain ⟨hsame, hneeds⟩ := hsw.other hopening
        rw [hneeds] at hwindow
        rw [hsame] at hsince
        split at hwindow
        · cases hwindow
        · exact h.marked hwindow hsince hbh hbus
    · rw [hkept.marker_iff]
      rw [hkept.busInterfaceValid, (ttSetResetMarker_saved _).1] at hbus
      exact marker_setResetMarker hbus
    · have hno : ¬ Opening w.device i := by
        rintro ⟨hrange, -⟩
        omega
      obtain ⟨hsame, hneeds⟩ := hsw.other hno
      rw [hneeds] at hwindow
      rw [hsame] at hsince
      rw [hbus'] at hbus
      split at hwindow
      · cases hwindow
      · have h0 : i.flags = 0 := by omega
        have hbefore := h.marked hwindow hsince hbh hbus
        rcases (hkeeps hexec hbh hbus).2 h0 hwindow hbefore with hnot | hsaved
        · exact absurd hrestorable hnot
        · exact hmarker.mpr hsaved

/-- A step that meets the condition keeps the invariant. -/
theorem MarkerProof.next {e : ResetEvent} (h : MarkerProof w) (hkeeps : KeepsMarker w e)
    (hstep : w.next e = some w') : MarkerProof w' := by
  cases e with
  | reset F caller io i test pldr => exact h.reset hkeeps hstep
  | other e =>
    simp only [ResetWorld.next] at hstep
    split at hstep
    · cases hstep
    rename_i hother
    obtain ⟨device, hdevice, rfl⟩ := Option.map_eq_some_iff.mp hstep
    obtain ⟨hconfig, hwindow⟩ := next_window (Bool.eq_false_iff.mpr hother) hdevice
    constructor
    · intro hbh
      rw [hconfig] at hbh
      exact h.unsaved hbh
    · intro hneeds hsince hbh hbus
      rw [hconfig] at hbh
      rw [hwindow] at hneeds
      exact h.marked hneeds hsince hbh hbus
  | chipReset cfg =>
    obtain ⟨-, rfl⟩ := guard_of_eq_some hstep
    refine ⟨h.unsaved, ?_⟩
    intro _ hsince
    cases hsince

/-- The device of such a run is a device of `DeviceContext.next`, with the answers of the
hardware read off the configuration space. -/
theorem deviceRun_of_resetRun {es : List ResetEvent}
    (hrun : Run (partialGraph ResetWorld.next) w es w') :
    Reachable (partialGraph DeviceContext.next) w.device w'.device := by
  induction hrun with
  | nil w => exact .refl _
  | @cons w w₁ w₂ e es hstep _ ih =>
    have hnext : w.next e = some w₁ := hstep
    cases e with
    | reset F caller io i test pldr =>
      simp only [ResetWorld.next] at hnext
      split at hnext
      · rename_i hopen
        have hdevice : w.device.next (.request F caller
            (.resetDevice io i (resetEnv w.config i.flags test pldr))) = some w₁.device := by
          rw [← Option.some.inj hnext]
          exact if_pos hopen
        exact .head hdevice ih
      · cases hnext
    | other e =>
      simp only [ResetWorld.next] at hnext
      split at hnext
      · cases hnext
      · obtain ⟨device, hdevice, rfl⟩ := Option.map_eq_some_iff.mp hnext
        exact .head hdevice ih
    | chipReset cfg =>
      simp only [ResetWorld.next] at hnext
      split at hnext
      · rw [← Option.some.inj hnext] at ih
        exact ih
      · cases hnext

end Runs

/-- In a run that keeps the marker while it is needed, a `POST_RESET` that finds
`NeedsHwInit` set and reports success proves that the chip was reset after the request
that last set it. -/
theorem post_reset_proves_reset {config : MemoryConfig} {subsysVendorId subsysId : ℕ}
    {regs : Fin 16 → AtuRegs} {busInterfaceValid : Bool} {cfg : ℕ → BitVec 16}
    {es : List ResetEvent} {w : ResetWorld}
    (hrun : Run (restrict (partialGraph ResetWorld.next) KeepsMarker)
      (.started config subsysVendorId subsysId regs busInterfaceValid cfg) es w)
    {test pldr : Bool} (hwindow : w.device.needsHwInit = true)
    (hreports : resetResult w.device w.config test pldr 6 = some 0) : w.resetSince = true := by
  have hinv : MarkerProof w := by
    refine hrun.invariant (fun _ _ _ h hstep => h.next hstep.1 hstep.2) ⟨?_, ?_⟩
    · intro hbh
      have hbh' : config.isBlackhole = false := hbh
      simp [ResetWorld.started, ConfigState.started, hbh']
    · intro hneeds
      cases hneeds
  by_contra hsince
  have hsince' := Bool.eq_false_iff.mpr hsince
  simp only [resetResult, resetSwitch, hwindow, if_true] at hreports
  split at hreports
  swap
  · cases hreports
  rename_i hzero
  obtain ⟨hbus, hclear⟩ := ttIsResetMarkerZero_iff.mp hzero
  rw [Option.map_some, restoreAndInit_fst] at hreports
  rcases ttSafeRestoreState_cases w.config with ⟨-, hres⟩ | ⟨⟨-, hsaved⟩, -⟩
  · rw [hres] at hreports
    cases hreports
  · cases hbh : w.device.config.isBlackhole with
    | false =>
      rw [hinv.unsaved hbh] at hsaved
      cases hsaved
    | true => exact hclear (hinv.marked hwindow hsince' hbh hbus)

/-- A configuration space where the vendor answers and every other register is 0. -/
def freshConfig (offset : ℕ) : BitVec 16 := if offset = 0 then pciVendorId else 0

/-- A started Blackhole with that configuration space. -/
def freshWorld : ResetWorld := .started blackholeConfig 0 0 (fun _ _ => 0) true freshConfig

/-- A `RESET_DEVICE` request with buffers of the right length. -/
def resetRequest (F : Handle) (flags : ℕ) (test : Bool) : ResetEvent :=
  .reset F 0 ⟨8, 16⟩ ⟨8, flags⟩ test false

/-- `USER_RESET`, and the chip is reset. -/
def resetByUser : List ResetEvent :=
  [.other (.create 0), resetRequest 0 3 true, .chipReset freshConfig]

/-- `POST_RESET` reports success, and rightly so. -/
theorem post_reset_proves_reset_resetByUser :
    ∃ w, Run (restrict (partialGraph ResetWorld.next) KeepsMarker) freshWorld resetByUser w ∧
      resetResult w.device w.config true false 6 = some 0 ∧ w.resetSince = true := by
  obtain ⟨w, hrun, hwindow, hreports⟩ : ∃ w,
      Run (restrict (partialGraph ResetWorld.next) KeepsMarker) freshWorld resetByUser w ∧
        w.device.needsHwInit = true ∧ resetResult w.device w.config true false 6 = some 0 := by
    refine ⟨_, .cons ⟨trivial, rfl⟩ (.cons ⟨?_, rfl⟩ (.cons ⟨trivial, rfl⟩ (.nil _))), ?_⟩
    · intro _ _ _
      exact ⟨fun h => absurd h (by decide), fun h => absurd h (by decide)⟩
    · decide +kernel
  exact ⟨w, hrun, hreports, post_reset_proves_reset hrun hwindow hreports⟩

/-- `ASIC_DMC_RESET` finds the firmware dead; the chip is not reset, and `POST_RESET`
reports success. -/
theorem deadFirmware_reports_success :
    ∃ w, Run (partialGraph ResetWorld.next) freshWorld
        [.other (.create 0), resetRequest 0 5 false] w ∧
      w.device.needsHwInit = true ∧ resetExecutes w.device 0 ⟨8, 16⟩ = true ∧
      resetResult w.device w.config true false 6 = some 0 ∧ w.resetSince = false := by
  have heval : ((runList ResetWorld.next freshWorld
      [.other (.create 0), resetRequest 0 5 false]).map fun w =>
        w.device.needsHwInit && resetExecutes w.device 0 ⟨8, 16⟩ &&
          decide (resetResult w.device w.config true false 6 = some 0) && !w.resetSince) =
        some true := by decide +kernel
  obtain ⟨w, hw, htest⟩ := Option.map_eq_some_iff.mp heval
  simp only [Bool.and_eq_true, decide_eq_true_eq, Bool.not_eq_true'] at htest
  obtain ⟨⟨⟨hwindow, hexec⟩, hreports⟩, hsince⟩ := htest
  exact ⟨w, run_of_runList hw, hwindow, hexec, hreports, hsince⟩

end TtKmd
