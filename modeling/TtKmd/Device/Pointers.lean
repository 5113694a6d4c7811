import TtKmd.Device.Rebalance
import TtKmd.Device.Window

/-!
# Register accesses and the mapped BARs

`EvtDevicePrepareHardware` maps the BARs of a Blackhole and sets four pointers one after the
other, `EvtDeviceReleaseHardware` unmaps them and clears the pointers. Neither takes a lock,
and no function that reads or writes registers looks at a pointer first. The entry points test
`IsBlackhole` and `Detached` only: those of the section under `ResetResource` for the whole
section, the send of the power state once, after the section.

Here an entry point is taken apart. A thread enters it, performs its accesses one by one and
leaves, and the callbacks of the framework come in between, each pointer a step of its own. The
queue of the device is held back by the framework while the hardware is not prepared; files are
opened and closed, and the requests of the caller's context are made, at any time.
-/

namespace TtKmd

open Lib

/-- A pointer that `TtMapBlackholeBars` sets. -/
inductive RegisterPointer
  /-- `TlbRegs`. -/
  | tlbRegs
  /-- `KernelTlb`. -/
  | kernelTlb
  /-- `Noc2AxiCfg`. -/
  | noc2AxiCfg
  /-- `Bar2Mapping`. -/
  | bar2Mapping
  deriving DecidableEq

/-- The pointers an access goes through. `TtBhConfigureKernelTlb` programs the kernel window in
the TLB registers first. -/
def RegisterAccess.pointers : RegisterAccess → List RegisterPointer
  | .nocRead .. => [.tlbRegs, .kernelTlb]
  | .nocWrite .. => [.tlbRegs, .kernelTlb]
  | .arcMessage _ => [.tlbRegs, .kernelTlb]
  | .tlbWrite .. => [.tlbRegs]
  | .iatuWrite .. => [.bar2Mapping]

/-- Where the framework and its callbacks stand. In the loops over the pointers `p` is the next
one and `rest` are those after it. -/
inductive PnpStage
  /-- Before the first preparation, or after a release. -/
  | stopped
  /-- `TtMapBlackholeBars`. -/
  | mapping (found : HardwareFound) (p : RegisterPointer) (rest : List RegisterPointer)
  /-- The hardware is prepared. -/
  | started
  /-- `TtUnmapBlackholeBars`, of the release or of a preparation that fails. -/
  | unmapping (p : RegisterPointer) (rest : List RegisterPointer) (release : Bool)
  /-- The preparation has failed; the release follows. -/
  | failed

/-- `TtMapBlackholeBars` from its start. -/
def PnpStage.map (found : HardwareFound) : PnpStage :=
  .mapping found .tlbRegs [.kernelTlb, .noc2AxiCfg, .bar2Mapping]

/-- `TtUnmapBlackholeBars` from its start. -/
def PnpStage.unmap (release : Bool) : PnpStage :=
  .unmapping .tlbRegs [.kernelTlb, .noc2AxiCfg, .bar2Mapping] release

/-- Where a thread stands. -/
inductive Activity
  /-- In no entry point. -/
  | idle
  /-- In the section of an entry point that holds `ResetResource`, with the accesses still to
  come; `queued` for a request of the queue, `aggregates` when `TtPowerAggregate` follows. -/
  | locked (exclusive queued : Bool) (rest : List RegisterAccess) (aggregates : Bool)
  /-- At the start of `TtPowerAggregate`, outside of `ResetResource`. -/
  | aggregating
  /-- Before the test of `TtPowerAggregate`. -/
  | aggregated (msg : ArcMsg)
  /-- After the test, with the accesses still to come. -/
  | sending (rest : List RegisterAccess)

namespace Activity

/-- In no entry point. -/
def isIdle : Activity → Bool
  | .idle => true
  | _ => false

/-- Holds `ResetResource`. -/
def holds : Activity → Bool
  | .locked .. => true
  | _ => false

/-- Holds `ResetResource` exclusively. -/
def excludes : Activity → Bool
  | .locked exclusive _ _ _ => exclusive
  | _ => false

/-- Serves a request of the queue. -/
def serves : Activity → Bool
  | .locked _ queued _ _ => queued
  | _ => false

/-- The accesses the thread is about to perform. -/
def pending : Activity → List RegisterAccess
  | .locked _ _ rest _ => rest
  | .sending rest => rest
  | _ => []

end Activity

/-- The steps of a thread inside of an entry point. -/
inductive ThreadStep
  /-- The next access; `more` when it is not the last of its message. -/
  | access (more : Bool)
  /-- The release of `ResetResource`, or the return of `TtPowerAggregate`. -/
  | leave
  /-- `TtPowerAggregate` computes the aggregate. -/
  | aggregate
  /-- `TtPowerAggregate` tests `IsBlackhole` and `Detached`. -/
  | test

/-- The test of `TtPowerAggregate`. -/
def HwWorld.sends (w : HwWorld) : Bool := w.device.config.isBlackhole && !w.device.detached

/-- What a step makes of the activity of its thread. -/
def Activity.advance (w : HwWorld) : ThreadStep → Activity → Option Activity
  | .access more, .locked exclusive queued (a :: rest) aggregates =>
      some (.locked exclusive queued (if more then a :: rest else rest) aggregates)
  | .access more, .sending (a :: rest) => some (.sending (if more then a :: rest else rest))
  | .leave, .locked _ _ [] aggregates => some (if aggregates then .aggregating else .idle)
  | .leave, .sending [] => some .idle
  | .aggregate, .aggregating =>
      some (.aggregated (powerMessage
        (powerAggregate w.power w.device.openResetGen w.device.resetGen w.device.fileList)))
  | .test, .aggregated msg => some (.sending (if w.sends then [.arcMessage msg] else []))
  | _, _ => none

/-- The events that come through the queue of the device. -/
def HwEvent.queued : HwEvent → Bool
  | .request _ _ r => !r.inCallerContext
  | .setNocCleanup .. => true
  | .setPowerState .. => true
  | _ => false

/-- `TtEvtDeviceSurpriseRemoval`. -/
def HwEvent.isRemoval : HwEvent → Bool
  | .surpriseRemoval => true
  | _ => false

/-- The accesses of the section that holds `ResetResource`. -/
def lockedAccesses (hw : DeviceContext → Handle → Request → List RegisterAccess) (w : HwWorld) :
    HwEvent → List RegisterAccess
  | .create _ => []
  | .cleanup F =>
      cleanupWrite w.device (w.nocCleanup F) ++ fileWrites w.device.detached (w.device.mem.file F)
  | e => accesses hw w e

/-- `TtPowerAggregate` follows the section. -/
def HwWorld.aggregates (w : HwWorld) : HwEvent → Bool
  | .create _ => true
  | .cleanup F => (w.power F).contributes
  | _ => false

/-- Where an entry point begins. An open takes no `ResetResource`; a cancellation runs no code
that reaches the hardware. -/
def HwWorld.activity (hw : DeviceContext → Handle → Request → List RegisterAccess) (w : HwWorld)
    (e : HwEvent) : Activity :=
  match e with
  | .create _ => .aggregating
  | .cancel _ => .idle
  | e => .locked e.isReset e.queued (lockedAccesses hw w e) (w.aggregates e)

/-- A device, its pointers, the framework and the threads. -/
structure PointerWorld (Thread : Type*) where
  /-- The device. -/
  hw : HwWorld
  /-- The pointers that are not `NULL`. -/
  pointer : RegisterPointer → Bool
  /-- The framework. -/
  stage : PnpStage
  /-- The threads. -/
  activity : Thread → Activity
  /-- The threads that are in an entry point. -/
  running : List Thread

/-- The steps. -/
inductive PointerEvent (Thread : Type*)
  /-- A thread enters an entry point. -/
  | enter (t : Thread) (e : HwEvent)
  /-- A thread goes on. -/
  | thread (t : Thread) (s : ThreadStep)
  /-- `TtEvtDeviceSurpriseRemoval`. -/
  | surpriseRemoval
  /-- `EvtDevicePrepareHardware` up to the mapping of the BARs. -/
  | prepareHardware (found : HardwareFound)
  /-- One round of `TtMapBlackholeBars`. -/
  | mapBar (ok : Bool)
  /-- An access of a callback of the framework, between the mapping of the BARs and the
  release: the rest of the preparation, `EvtDeviceD0Entry` and `EvtDeviceD0Exit`. -/
  | pnpAccess (a : RegisterAccess)
  /-- `EvtDeviceReleaseHardware`. -/
  | releaseHardware
  /-- One round of `TtUnmapBlackholeBars`. -/
  | unmapBar

namespace PointerWorld

variable {Thread : Type*}

/-- `ResetResource` can be taken. -/
def grants (w : PointerWorld Thread) (exclusive : Bool) : Bool :=
  w.running.all fun t => if exclusive then !(w.activity t).holds else !(w.activity t).excludes

/-- An entry point can be entered: the framework delivers the event, and `ResetResource` is
free where it is taken. -/
def admits (hw : DeviceContext → Handle → Request → List RegisterAccess) (w : PointerWorld Thread)
    (e : HwEvent) : Bool :=
  !e.isRemoval &&
    (!e.queued || match w.stage with
      | .started => true
      | _ => false) &&
    (!(w.hw.activity hw e).holds || w.grants e.isReset)

/-- The mapping after a pointer is set. After the last one the preparation goes on. -/
def mapped (w : PointerWorld Thread) (found : HardwareFound) (p : RegisterPointer) :
    List RegisterPointer → PointerWorld Thread
  | [] =>
      { w with
        hw := w.hw.withDevice (w.hw.device.bringUp found)
        pointer := Function.update w.pointer p true
        stage := .started }
  | q :: rest =>
      { w with pointer := Function.update w.pointer p true, stage := .mapping found q rest }

/-- The unmapping after a pointer is cleared. After the last one the release goes on, or the
preparation returns its failure. -/
def unmapped (w : PointerWorld Thread) (p : RegisterPointer) (release : Bool) :
    List RegisterPointer → PointerWorld Thread
  | [] =>
      { w with
        hw := if release then w.hw.withDevice w.hw.device.ttEvtDeviceReleaseHardware else w.hw
        pointer := Function.update w.pointer p false
        stage := if release then .stopped else .failed }
  | q :: rest =>
      { w with pointer := Function.update w.pointer p false, stage := .unmapping q rest release }

/-- A device that was added and never prepared. -/
def added (dmaBufLimitBytes : ℕ) (regs : Fin 16 → AtuRegs) : PointerWorld Thread where
  hw :=
    { device := .added dmaBufLimitBytes regs
      power := fun _ => .init
      nocCleanup := fun _ => none }
  pointer := fun _ => false
  stage := .stopped
  activity := fun _ => .idle
  running := []

/-- A step that reads or writes through a pointer that is `NULL`. -/
def Faults (w : PointerWorld Thread) : PointerEvent Thread → Prop
  | .thread t (.access _) =>
      ∃ a rest, (w.activity t).pending = a :: rest ∧ ∃ p ∈ a.pointers, w.pointer p = false
  | .pnpAccess a => ∃ p ∈ a.pointers, w.pointer p = false
  | _ => False

/-- An entry point begins a section with accesses only while the hardware is prepared, a send of
the power state goes on after its test only while the hardware is prepared, and the release
comes when no thread is about to perform an access. -/
def Quiesced (hw : DeviceContext → Handle → Request → List RegisterAccess)
    (w : PointerWorld Thread) : PointerEvent Thread → Prop
  | .enter _ e => lockedAccesses hw w.hw e ≠ [] → w.stage = .started
  | .thread _ .test => w.hw.sends = true → w.stage = .started
  | .releaseHardware => ∀ t, (w.activity t).pending = []
  | _ => True

variable [DecidableEq Thread]

/-- The state with another activity of a thread. -/
def set (w : PointerWorld Thread) (t : Thread) (a : Activity) : PointerWorld Thread :=
  { w with
    activity := Function.update w.activity t a
    running := if a.isIdle then w.running.filter (· ≠ t) else w.running.insert t }

/-- One step; `none` is a step that cannot happen. -/
def next (hw : DeviceContext → Handle → Request → List RegisterAccess) (w : PointerWorld Thread) :
    PointerEvent Thread → Option (PointerWorld Thread)
  | .enter t e =>
      if (w.activity t).isIdle && w.admits hw e then
        (w.hw.next e).map fun hw' => { w with hw := hw' }.set t (w.hw.activity hw e)
      else none
  | .thread t s => ((w.activity t).advance w.hw s).map (w.set t)
  | .surpriseRemoval =>
      if w.grants true then (w.hw.next .surpriseRemoval).map fun hw' => { w with hw := hw' }
      else none
  | .prepareHardware found =>
      match w.stage with
      | .stopped =>
          if (w.hw.device.discover found).config.isBlackhole then
            some { w with hw := w.hw.withDevice (w.hw.device.discover found), stage := .map found }
          else none
      | _ => none
  | .mapBar ok =>
      match w.stage with
      | .mapping found p rest =>
          some (if ok then w.mapped found p rest else { w with stage := .unmap false })
      | _ => none
  | .pnpAccess _ =>
      match w.stage with
      | .started => some w
      | _ => none
  | .releaseHardware =>
      match w.stage with
      | .started | .failed =>
          if w.running.all fun t => !(w.activity t).serves then
            some { w with stage := .unmap true }
          else none
      | _ => none
  | .unmapBar =>
      match w.stage with
      | .unmapping p rest release => some (w.unmapped p release rest)
      | _ => none

end PointerWorld

section Accesses

variable {hw : DeviceContext → Handle → Request → List RegisterAccess} {w w' : HwWorld}

/-- The accesses of an entry point are those of the section that holds `ResetResource` and
those of the send that follows it. -/
theorem accesses_eq {e : HwEvent} (hstep : w.next e = some w') :
    accesses hw w e =
      lockedAccesses hw w e ++ if w.aggregates e then powerSend w'.device w'.power else [] := by
  cases e with
  | create opener =>
    cases hstep
    rfl
  | cleanup F =>
    obtain ⟨d', hd', rfl⟩ := Option.map_eq_some_iff.mp hstep
    obtain ⟨-, rfl⟩ := DeviceContext.next_cleanup hd'
    rfl
  | _ => exact (List.append_nil _).symm

/-- An uninterrupted aggregation sends what `powerSend` says. -/
theorem aggregate_test (w : HwWorld) :
    (Activity.advance w .aggregate .aggregating).bind (Activity.advance w .test) =
      some (.sending (powerSend w.device w.power)) := by
  by_cases hsends : w.device.config.isBlackhole = true ∧ w.device.detached = false
  · simp [Activity.advance, HwWorld.sends, powerSend, hsends]
  · have hsends' : w.sends = false := by
      simpa [HwWorld.sends] using hsends
    simp [Activity.advance, powerSend, hsends, hsends']

/-- Every access goes through a pointer. -/
theorem RegisterAccess.exists_pointer (a : RegisterAccess) : ∃ p, p ∈ a.pointers := by
  cases a <;> exact ⟨_, List.mem_cons_self ..⟩

/-- A detached device is not reached under `ResetResource`. -/
theorem lockedAccesses_of_detached (hdet : w.device.detached = true) (e : HwEvent) :
    lockedAccesses hw w e = [] := by
  have hgate : ∀ F nr, ttCheckIoGates w.device F nr ≠ .success := by
    intro F nr
    simp [ttCheckIoGates, hdet]
  have hteardown : ∀ region, teardownWrites true region = [] := by
    intro region
    cases region <;> rfl
  have hpinnings : ∀ f, pinningWrites true f = [] := fun f => by
    simp [pinningWrites, hteardown]
  cases e with
  | create opener => rfl
  | request F caller r => exact if_pos (hgate F r.nr)
  | setNocCleanup F io i => rfl
  | setPowerState F io i =>
    have hno : storesPower w.device F io i = false := by
      simp [storesPower, hgate]
    simp [lockedAccesses, accesses, hno]
  | cleanup F =>
    have hwrite : cleanupWrite w.device (w.nocCleanup F) = [] := by
      unfold cleanupWrite
      split
      · rfl
      · simp [hdet]
    simp [lockedAccesses, hwrite, fileWrites, hdet, hpinnings, hteardown]
  | processExit process => simp [lockedAccesses, accesses, hdet, hpinnings]
  | surpriseRemoval => rfl
  | cancel k => rfl

/-- Only the surprise removal detaches the device. -/
theorem detached_of_hwStep {e : HwEvent} (hother : e.isRemoval = false)
    (hstep : w.next e = some w') : w'.device.detached = w.device.detached := by
  cases e with
  | create opener =>
    cases hstep
    rfl
  | request F caller r =>
    obtain ⟨d', hd', rfl⟩ := Option.map_eq_some_iff.mp hstep
    obtain ⟨-, rfl⟩ := DeviceContext.next_request hd'
    exact dispatch_detached w.device F caller r
  | setNocCleanup F io i =>
    simp only [HwWorld.next] at hstep
    split at hstep
    · split at hstep <;> cases hstep <;> rfl
    · cases hstep
  | setPowerState F io i =>
    simp only [HwWorld.next] at hstep
    split at hstep
    · split at hstep <;> cases hstep <;> rfl
    · cases hstep
  | cleanup F =>
    obtain ⟨d', hd', rfl⟩ := Option.map_eq_some_iff.mp hstep
    obtain ⟨-, rfl⟩ := DeviceContext.next_cleanup hd'
    rfl
  | processExit process =>
    cases hstep
    rfl
  | surpriseRemoval => cases hother
  | cancel k =>
    cases hstep
    rfl

/-- What an entry point has before it. -/
theorem pending_activity (e : HwEvent) : (w.activity hw e).pending = lockedAccesses hw w e := by
  cases e <;> rfl

/-- Everything a step of a thread can do: it performs an access, it has none left to perform,
or it has passed the test of `TtPowerAggregate`. -/
theorem advance_cases {s : ThreadStep} {a a' : Activity} (h : a.advance w s = some a') :
    (a.pending ≠ [] ∧ a'.holds = a.holds) ∨ (a'.pending = [] ∧ a'.holds = false) ∨
      (s = .test ∧ w.sends = true ∧ a'.holds = false) := by
  cases s with
  | access more =>
    cases a with
    | locked exclusive queued rest aggregates =>
      cases rest with
      | nil => cases h
      | cons b rest =>
        cases h
        exact .inl ⟨List.cons_ne_nil b rest, rfl⟩
    | sending rest =>
      cases rest with
      | nil => cases h
      | cons b rest =>
        cases h
        exact .inl ⟨List.cons_ne_nil b rest, rfl⟩
    | _ => cases h
  | leave =>
    cases a with
    | locked exclusive queued rest aggregates =>
      cases rest with
      | nil =>
        cases h
        cases aggregates <;> exact .inr (.inl ⟨rfl, rfl⟩)
      | cons b rest => cases h
    | sending rest =>
      cases rest with
      | nil =>
        cases h
        exact .inr (.inl ⟨rfl, rfl⟩)
      | cons b rest => cases h
    | _ => cases h
  | aggregate =>
    cases a with
    | aggregating =>
      cases h
      exact .inr (.inl ⟨rfl, rfl⟩)
    | _ => cases h
  | test =>
    cases a with
    | aggregated msg =>
      cases h
      cases hsends : w.sends with
      | true => exact .inr (.inr ⟨rfl, rfl, rfl⟩)
      | false => exact .inr (.inl ⟨rfl, rfl⟩)
    | _ => cases h

/-- A thread can perform the access that is before it. -/
theorem advance_access {a : Activity} (hpend : a.pending ≠ []) :
    ∃ a', a.advance w (.access false) = some a' := by
  cases a with
  | locked exclusive queued rest aggregates =>
    cases rest with
    | nil => exact absurd rfl hpend
    | cons b rest => exact ⟨_, rfl⟩
  | sending rest =>
    cases rest with
    | nil => exact absurd rfl hpend
    | cons b rest => exact ⟨_, rfl⟩
  | _ => exact absurd rfl hpend

end Accesses

/-- What the stage says about the pointers. -/
def PnpStage.Agrees (pointer : RegisterPointer → Bool) : PnpStage → Prop
  | .stopped => ∀ q, pointer q = false
  | .mapping _ p rest => ∀ q, q ∉ p :: rest → pointer q = true
  | .started => ∀ q, pointer q = true
  | .unmapping p rest _ => ∀ q, q ∉ p :: rest → pointer q = false
  | .failed => ∀ q, pointer q = false

/-- The start of the mapping says nothing about the pointers. -/
theorem agrees_map (pointer : RegisterPointer → Bool) (found : HardwareFound) :
    (PnpStage.map found).Agrees pointer := by
  intro q hq
  cases q <;> exact absurd (by decide) hq

/-- The start of the unmapping says nothing about the pointers. -/
theorem agrees_unmap (pointer : RegisterPointer → Bool) (release : Bool) :
    (PnpStage.unmap release).Agrees pointer := by
  intro q hq
  cases q <;> exact absurd (by decide) hq

/-- The invariant. -/
structure PointersOk {Thread : Type*} (w : PointerWorld Thread) : Prop where
  /-- The pointers are as the stage says. -/
  agrees : w.stage.Agrees w.pointer
  /-- The threads in an entry point are listed. -/
  listed : ∀ t, (w.activity t).isIdle = false → t ∈ w.running
  /-- A thread is about to perform an access only while the hardware is prepared. -/
  prepared : ∀ t, (w.activity t).pending ≠ [] → w.stage = .started
  /-- On a detached device nothing is accessed under `ResetResource`. -/
  gone : w.hw.device.detached = true → ∀ t, (w.activity t).holds = true →
    (w.activity t).pending = []

section Steps

variable {Thread : Type*} {hw : DeviceContext → Handle → Request → List RegisterAccess}
  {w w' : PointerWorld Thread}

/-- The pointers that are done, after the next one. -/
theorem update_eq_of_notMem {pointer : RegisterPointer → Bool} {b : Bool} {p : RegisterPointer}
    {rest : List RegisterPointer} (h : ∀ q, q ∉ p :: rest → pointer q = b) :
    ∀ q, q ∉ rest → Function.update pointer p b q = b := by
  intro q hq
  by_cases hqp : q = p
  · rw [hqp, Function.update_self]
  · rw [Function.update_of_ne hqp]
    exact h q (List.not_mem_cons_of_ne_of_not_mem hqp hq)

/-- All pointers are set when the last one is. -/
theorem agrees_mapped (h : w.stage.Agrees w.pointer) {found : HardwareFound} {p : RegisterPointer}
    {rest : List RegisterPointer} (hstage : w.stage = .mapping found p rest) :
    (w.mapped found p rest).stage.Agrees (w.mapped found p rest).pointer := by
  rw [hstage] at h
  have hset : ∀ q, q ∉ rest → Function.update w.pointer p true q = true := update_eq_of_notMem h
  cases rest with
  | nil => exact fun q => hset q (List.not_mem_nil)
  | cons q rest => exact hset

/-- All pointers are `NULL` when the last one is cleared. -/
theorem agrees_unmapped (h : w.stage.Agrees w.pointer) {p : RegisterPointer}
    {rest : List RegisterPointer} {release : Bool} (hstage : w.stage = .unmapping p rest release) :
    (w.unmapped p release rest).stage.Agrees (w.unmapped p release rest).pointer := by
  rw [hstage] at h
  have hclear : ∀ q, q ∉ rest → Function.update w.pointer p false q = false :=
    update_eq_of_notMem h
  cases rest with
  | nil => cases release <;> exact fun q => hclear q (List.not_mem_nil)
  | cons q rest => exact hclear

/-- A change of the device that does not detach it. -/
theorem PointersOk.withHw (h : PointersOk w) {hw' : HwWorld}
    (hdet : hw'.device.detached = w.hw.device.detached) : PointersOk { w with hw := hw' } :=
  ⟨h.agrees, h.listed, h.prepared, fun hgone => h.gone (hdet ▸ hgone)⟩

/-- The surprise removal waits for the threads that hold `ResetResource`. -/
theorem holds_of_grants (h : ∀ t, (w.activity t).isIdle = false → t ∈ w.running)
    (hgrants : w.grants true = true) (t : Thread) : (w.activity t).holds = false := by
  cases hact : w.activity t with
  | locked exclusive queued rest aggregates =>
    have ht := List.all_eq_true.mp hgrants t (h t (by rw [hact]; rfl))
    rw [hact] at ht
    cases ht
  | _ => rfl

/-- A change of the stage and of the pointers, while no thread is about to perform an access. -/
theorem PointersOk.restage (h : PointersOk w) (hidle : ∀ t, (w.activity t).pending = [])
    (hagrees : w'.stage.Agrees w'.pointer) (hactivity : w'.activity = w.activity)
    (hrunning : w'.running = w.running) : PointersOk w' where
  agrees := hagrees
  listed := by
    rw [hactivity, hrunning]
    exact h.listed
  prepared := fun t ht => by
    rw [hactivity] at ht
    exact absurd (hidle t) ht
  gone := fun _ t _ => by
    rw [hactivity]
    exact hidle t

/-- No thread is about to perform an access while the hardware is not prepared. -/
theorem PointersOk.quiet (h : PointersOk w) (hstage : w.stage ≠ .started) (t : Thread) :
    (w.activity t).pending = [] := by
  by_contra hpend
  exact hstage (h.prepared t hpend)

/-- A device that was added. -/
theorem PointersOk.added (dmaBufLimitBytes : ℕ) (regs : Fin 16 → AtuRegs) :
    PointersOk (PointerWorld.added dmaBufLimitBytes regs : PointerWorld Thread) :=
  ⟨fun _ => rfl, fun _ hbusy => (by cases hbusy), fun _ hpend => absurd rfl hpend,
    fun _ _ _ => rfl⟩

/-- On a detached device the condition is left with the release: it has to wait for the sends
that had passed their test. -/
theorem PointersOk.quiesced_of_detached (h : PointersOk w)
    (hdet : w.hw.device.detached = true) :
    (∀ e, e ≠ .releaseHardware → w.Quiesced hw e) ∧
      (w.Quiesced hw .releaseHardware ↔
        ∀ t rest, w.activity t = .sending rest → rest = []) := by
  refine ⟨fun e he => ?_, fun hcond t rest hact => ?_, fun hsent t => ?_⟩
  · cases e with
    | enter t e => exact fun hlocked => absurd (lockedAccesses_of_detached hdet e) hlocked
    | thread t s =>
      cases s with
      | test =>
        intro hsends
        simp [HwWorld.sends, hdet] at hsends
      | _ => trivial
    | releaseHardware => exact absurd rfl he
    | _ => trivial
  · have hpend := hcond t
    rwa [hact] at hpend
  · cases hact : w.activity t with
    | locked exclusive queued rest aggregates =>
      have hpend := h.gone hdet t (by rw [hact]; rfl)
      rwa [hact] at hpend
    | sending rest => exact hsent t rest hact
    | _ => rfl

variable [DecidableEq Thread]

/-- Another activity of a thread: what is claimed of all threads is claimed of the new
activity and of the threads before. -/
theorem forall_set {P : Activity → Prop} {t : Thread} {a : Activity} (ha : P a)
    (h : ∀ u, P (w.activity u)) (u : Thread) : P ((w.set t a).activity u) := by
  by_cases hu : u = t
  · subst hu
    simpa [PointerWorld.set] using ha
  · simpa [PointerWorld.set, hu] using h u

/-- The threads stay listed. -/
theorem listed_set (h : ∀ t, (w.activity t).isIdle = false → t ∈ w.running) (t : Thread)
    (a : Activity) (u : Thread) (hu : ((w.set t a).activity u).isIdle = false) :
    u ∈ (w.set t a).running := by
  by_cases hut : u = t
  · subst hut
    have ha : a.isIdle = false := by simpa [PointerWorld.set] using hu
    simp [PointerWorld.set, ha]
  · have hlisted : u ∈ w.running := h u (by simpa [PointerWorld.set, hut] using hu)
    unfold PointerWorld.set
    dsimp only
    split
    · exact List.mem_filter.mpr ⟨hlisted, by simpa using hut⟩
    · exact List.mem_insert_of_mem hlisted

/-- A thread takes an activity that has nothing to access, or has and may. -/
theorem PointersOk.set (h : PointersOk w) (t : Thread) {a : Activity}
    (hprepared : a.pending ≠ [] → w.stage = .started)
    (hgone : w.hw.device.detached = true → a.holds = true → a.pending = []) :
    PointersOk (w.set t a) where
  agrees := h.agrees
  listed := listed_set h.listed t a
  prepared := forall_set (P := fun a => a.pending ≠ [] → w.stage = .started) hprepared h.prepared
  gone := fun hdet => forall_set (P := fun a => a.holds = true → a.pending = []) (hgone hdet)
    (h.gone hdet)

/-- The release begins with the unmapping. -/
theorem next_releaseHardware (hstep : w.next hw .releaseHardware = some w') :
    w' = { w with stage := .unmap true } := by
  simp only [PointerWorld.next] at hstep
  split at hstep
  · exact (guard_of_eq_some hstep).2.symm
  · exact (guard_of_eq_some hstep).2.symm
  · cases hstep

/-- Every step that meets the condition keeps the invariant. -/
theorem PointersOk.next (h : PointersOk w) {e : PointerEvent Thread} (hcond : w.Quiesced hw e)
    (hstep : w.next hw e = some w') : PointersOk w' := by
  cases e with
  | enter t e =>
    simp only [PointerWorld.next] at hstep
    split at hstep
    swap
    · cases hstep
    rename_i hadmits
    obtain ⟨hw', hhw, rfl⟩ := Option.map_eq_some_iff.mp hstep
    have hother : e.isRemoval = false := by
      simp only [PointerWorld.admits, Bool.and_eq_true] at hadmits
      simpa using hadmits.2.1.1
    have hdet := detached_of_hwStep hother hhw
    refine (h.withHw hdet).set t (fun hpend => ?_) (fun hgone _ => ?_)
    · rw [pending_activity] at hpend
      exact hcond hpend
    · rw [pending_activity]
      exact lockedAccesses_of_detached (hdet ▸ hgone) e
  | thread t s =>
    obtain ⟨a, ha, rfl⟩ := Option.map_eq_some_iff.mp hstep
    rcases advance_cases ha with ⟨hpend, hholds⟩ | ⟨hpend, -⟩ | ⟨rfl, hsends, hholds⟩
    · refine h.set t (fun _ => h.prepared t hpend) fun hgone hheld => ?_
      exact absurd (h.gone hgone t (hholds ▸ hheld)) hpend
    · exact h.set t (fun hno => absurd hpend hno) fun _ _ => hpend
    · refine h.set t (fun _ => hcond hsends) fun _ hheld => ?_
      rw [hholds] at hheld
      cases hheld
  | surpriseRemoval =>
    simp only [PointerWorld.next] at hstep
    split at hstep
    swap
    · cases hstep
    rename_i hgrants
    obtain ⟨hw', -, rfl⟩ := Option.map_eq_some_iff.mp hstep
    refine ⟨h.agrees, h.listed, h.prepared, fun _ t hheld => ?_⟩
    rw [show ({ w with hw := hw' } : PointerWorld Thread).activity t = w.activity t from rfl,
      holds_of_grants h.listed hgrants t] at hheld
    cases hheld
  | prepareHardware found =>
    simp only [PointerWorld.next] at hstep
    split at hstep
    · rename_i hstage
      obtain ⟨-, rfl⟩ := guard_of_eq_some hstep
      have hquiet := h.quiet (by rw [hstage]; exact PnpStage.noConfusion)
      exact h.restage hquiet (agrees_map w.pointer found) rfl rfl
    · cases hstep
  | mapBar ok =>
    simp only [PointerWorld.next] at hstep
    split at hstep
    · rename_i found p rest hstage
      have hquiet := h.quiet (by rw [hstage]; exact PnpStage.noConfusion)
      cases hstep
      cases ok with
      | true =>
        refine h.restage hquiet (agrees_mapped h.agrees hstage) ?_ ?_
        · cases rest <;> rfl
        · cases rest <;> rfl
      | false => exact h.restage hquiet (agrees_unmap w.pointer false) rfl rfl
    · cases hstep
  | pnpAccess a =>
    simp only [PointerWorld.next] at hstep
    split at hstep
    · cases hstep
      exact h
    · cases hstep
  | releaseHardware =>
    rw [next_releaseHardware hstep]
    exact h.restage hcond (agrees_unmap w.pointer true) rfl rfl
  | unmapBar =>
    simp only [PointerWorld.next] at hstep
    split at hstep
    · rename_i p rest release hstage
      cases hstep
      refine h.restage (h.quiet (by rw [hstage]; exact PnpStage.noConfusion))
        (agrees_unmapped h.agrees hstage) ?_ ?_
      · cases rest <;> rfl
      · cases rest <;> rfl
    · cases hstep

/-- Every run whose steps meet the condition keeps the invariant. -/
theorem PointersOk.run {dmaBufLimitBytes : ℕ} {regs : Fin 16 → AtuRegs}
    {es : List (PointerEvent Thread)}
    (hrun : Run (restrict (partialGraph (PointerWorld.next hw)) (PointerWorld.Quiesced hw))
      (.added dmaBufLimitBytes regs) es w) : PointersOk w :=
  hrun.invariant (fun _ _ _ h hstep => h.next hstep.1 hstep.2)
    (PointersOk.added dmaBufLimitBytes regs)

/-- No step of a run whose steps meet the condition faults. -/
theorem PointersOk.not_faults (h : PointersOk w) {e : PointerEvent Thread}
    (hstep : w.next hw e = some w') : ¬ w.Faults e := by
  have hset : w.stage = .started → ∀ p, w.pointer p ≠ false := by
    intro hstage p hp
    have hagrees := h.agrees
    rw [hstage] at hagrees
    rw [hagrees p] at hp
    cases hp
  intro hfaults
  cases e with
  | thread t s =>
    cases s with
    | access more =>
      obtain ⟨a, rest, hpend, p, -, hp⟩ := hfaults
      exact hset (h.prepared t (by rw [hpend]; exact List.cons_ne_nil a rest)) p hp
    | _ => exact hfaults
  | pnpAccess a =>
    obtain ⟨p, -, hp⟩ := hfaults
    simp only [PointerWorld.next] at hstep
    split at hstep
    · exact hset ‹_› p hp
    · cases hstep
  | _ => exact hfaults

/-- Some steps lead to a step that faults. -/
def PointerWorld.CanFault (hw : DeviceContext → Handle → Request → List RegisterAccess)
    (w : PointerWorld Thread) : Prop :=
  ∃ es v e v', Run (partialGraph (PointerWorld.next hw)) w es v ∧ v.next hw e = some v' ∧
    v.Faults e

/-- A thread that is about to perform an access performs it through a pointer that is `NULL`. -/
theorem canFault_of_null {t : Thread} (hpend : (w.activity t).pending ≠ [])
    (hnull : ∀ q, w.pointer q = false) : w.CanFault hw := by
  obtain ⟨a, rest, hact⟩ := List.exists_cons_of_ne_nil hpend
  obtain ⟨p, hp⟩ := a.exists_pointer
  obtain ⟨a', ha'⟩ := advance_access (w := w.hw) hpend
  have hstep : w.next hw (.thread t (.access false)) = some (w.set t a') := by
    simp only [PointerWorld.next, ha', Option.map_some]
  exact ⟨[], w, _, _, .nil w, hstep, a, rest, hact, p, hp, hnull p⟩

/-- What can fault after a step can fault before it. -/
theorem PointerWorld.CanFault.of_next (e : PointerEvent Thread) (u : PointerWorld Thread)
    (hstep : w.next hw e = some u) (h : u.CanFault hw) : w.CanFault hw := by
  obtain ⟨es, v, e', v', hrun, hlast, hfaults⟩ := h
  exact ⟨e :: es, v, e', v', .cons hstep hrun, hlast, hfaults⟩

/-- The unmapping goes on to its end. -/
theorem canFault_of_unmapping {t : Thread} {rest : List RegisterPointer} :
    ∀ {w : PointerWorld Thread} {p : RegisterPointer} {release : Bool},
      (w.activity t).pending ≠ [] → w.stage.Agrees w.pointer →
      w.stage = .unmapping p rest release → w.CanFault hw := by
  induction rest with
  | nil =>
    intro w p release hpend hagrees hstage
    refine .of_next .unmapBar (w.unmapped p release []) ?_
      (canFault_of_null (t := t) hpend ?_)
    · simp only [PointerWorld.next, hstage]
    · have hnull := agrees_unmapped hagrees hstage
      cases release <;> exact hnull
  | cons q rest ih =>
    intro w p release hpend hagrees hstage
    refine .of_next .unmapBar (w.unmapped p release (q :: rest)) ?_
      (ih hpend (agrees_unmapped hagrees hstage) rfl)
    simp only [PointerWorld.next, hstage]

/-- A thread that is about to perform an access while the hardware is not prepared can fault. -/
theorem canFault_of_pending {t : Thread} (hpend : (w.activity t).pending ≠ [])
    (hagrees : w.stage.Agrees w.pointer) (hstage : w.stage ≠ .started) : w.CanFault hw := by
  cases hs : w.stage with
  | stopped =>
    rw [hs] at hagrees
    exact canFault_of_null hpend hagrees
  | mapping found p rest =>
    refine .of_next (.mapBar false) { w with stage := .unmap false } ?_
      (canFault_of_unmapping hpend (agrees_unmap w.pointer false) rfl)
    simp only [PointerWorld.next, hs]
    rfl
  | started => exact absurd hs hstage
  | unmapping p rest release => exact canFault_of_unmapping hpend hagrees hs
  | failed =>
    rw [hs] at hagrees
    exact canFault_of_null hpend hagrees

/-- A step that does not meet the condition leads to a fault. -/
theorem PointersOk.canFault (h : PointersOk w) {e : PointerEvent Thread}
    (hstep : w.next hw e = some w') (hcond : ¬ w.Quiesced hw e) : w'.CanFault hw := by
  cases e with
  | enter t e =>
    obtain ⟨hlocked, hstage⟩ := Classical.not_imp.mp hcond
    simp only [PointerWorld.next] at hstep
    split at hstep
    swap
    · cases hstep
    obtain ⟨hw', -, rfl⟩ := Option.map_eq_some_iff.mp hstep
    refine canFault_of_pending (t := t) ?_ h.agrees hstage
    simpa [PointerWorld.set, pending_activity] using hlocked
  | thread t s =>
    cases s with
    | test =>
      obtain ⟨hsends, hstage⟩ := Classical.not_imp.mp hcond
      obtain ⟨a, ha, rfl⟩ := Option.map_eq_some_iff.mp hstep
      refine canFault_of_pending (t := t) ?_ h.agrees hstage
      cases hact : w.activity t with
      | aggregated msg =>
        rw [hact] at ha
        cases ha
        simp [PointerWorld.set, hsends, Activity.pending]
      | _ =>
        rw [hact] at ha
        cases ha
    | _ => exact absurd trivial hcond
  | releaseHardware =>
    obtain ⟨t, hpend⟩ := not_forall.mp hcond
    rw [next_releaseHardware hstep]
    exact canFault_of_unmapping hpend (agrees_unmap w.pointer true) rfl
  | _ => exact absurd trivial hcond

/-- The rounds of the mapping make the preparation of a Blackhole whose BARs can be mapped. -/
theorem prepareHardware_steps (hstage : w.stage = .stopped) {found : HardwareFound}
    (hblackhole : (w.hw.device.discover found).config.isBlackhole = true)
    (hmaps : found.mapsBars = true) :
    ∃ v, runList (PointerWorld.next hw) w [.prepareHardware found, .mapBar true, .mapBar true,
        .mapBar true, .mapBar true] = some v ∧
      v.stage = .started ∧ v.hw.device = (w.hw.device.ttEvtDevicePrepareHardware found).2 := by
  have hdevice : w.hw.device.ttEvtDevicePrepareHardware found =
      (true, (w.hw.device.discover found).bringUp found) := by
    simp [DeviceContext.ttEvtDevicePrepareHardware, hblackhole, hmaps]
  have hprepare : w.next hw (.prepareHardware found) = some { w with
      hw := w.hw.withDevice (w.hw.device.discover found), stage := .map found } := by
    simp only [PointerWorld.next, hstage, if_pos hblackhole]
  rw [hdevice, runList, hprepare]
  exact ⟨_, rfl, rfl, rfl⟩

/-- The rounds of the unmapping make the release. -/
theorem releaseHardware_steps (hstage : w.stage = .started)
    (hqueue : w.running.all (fun t => !(w.activity t).serves) = true) :
    ∃ v, runList (PointerWorld.next hw) w [.releaseHardware, .unmapBar, .unmapBar, .unmapBar,
        .unmapBar] = some v ∧
      v.stage = .stopped ∧ v.hw.device = w.hw.device.ttEvtDeviceReleaseHardware := by
  have hrelease : w.next hw .releaseHardware = some { w with stage := .unmap true } := by
    simp only [PointerWorld.next, hstage, if_pos hqueue]
  rw [runList, hrelease]
  exact ⟨_, rfl, rfl, rfl⟩

end Steps

/-- In every run from the addition of a device, with any number of threads, in which a section
with accesses begins and a send passes its test only while the hardware is prepared, and the
release comes when no thread is about to perform an access, no step goes through a pointer that
is `NULL`. A step that does not meet the condition can be followed by one that does. On a device
that is gone the condition is only that the release waits for the sends under way. -/
theorem no_null_access_when_quiesced {Thread : Type*} [DecidableEq Thread]
    {hw : DeviceContext → Handle → Request → List RegisterAccess} {dmaBufLimitBytes : ℕ}
    {regs : Fin 16 → AtuRegs} {es : List (PointerEvent Thread)} {w : PointerWorld Thread}
    (hrun : Run (restrict (partialGraph (PointerWorld.next hw)) (PointerWorld.Quiesced hw))
      (.added dmaBufLimitBytes regs) es w) :
    (∀ e w', w.next hw e = some w' → ¬ w.Faults e) ∧
      (∀ e w', w.next hw e = some w' → ¬ w.Quiesced hw e → w'.CanFault hw) ∧
      (w.hw.device.detached = true →
        (∀ e, e ≠ .releaseHardware → w.Quiesced hw e) ∧
          (w.Quiesced hw .releaseHardware ↔
            ∀ t rest, w.activity t = .sending rest → rest = [])) := by
  have hinv := PointersOk.run hrun
  exact ⟨fun _ _ hstep => hinv.not_faults hstep, fun _ _ hstep => hinv.canFault hstep,
    hinv.quiesced_of_detached⟩

/-- The preparation of a Blackhole. -/
def prepared {Thread : Type*} : List (PointerEvent Thread) :=
  [.prepareHardware (foundAt (2 ^ 36)), .mapBar true, .mapBar true, .mapBar true, .mapBar true]

/-- The release. -/
def released {Thread : Type*} : List (PointerEvent Thread) :=
  [.releaseHardware, .unmapBar, .unmapBar, .unmapBar, .unmapBar]

/-- An open up to its send. -/
def opened {Thread : Type*} (t : Thread) : List (PointerEvent Thread) :=
  [.enter t (.create 7), .thread t .aggregate, .thread t .test]

/-- A handle is opened on a device that is prepared, the device is removed and released, and the
handle is closed. -/
def closedAfterRemoval : List (PointerEvent Bool) :=
  prepared ++ opened false ++ [.thread false (.access true), .thread false (.access false),
    .thread false .leave, .surpriseRemoval] ++ released ++
  [.enter true (.cleanup 0), .thread true .leave, .thread true .aggregate, .thread true .test]

/-- No step of the close faults. -/
theorem no_null_access_when_quiesced_closedAfterRemoval :
    ∃ w, Run (restrict (partialGraph (PointerWorld.next fun _ _ _ => []))
        (PointerWorld.Quiesced fun _ _ _ => [])) (.added 0 fun _ _ => 0) closedAfterRemoval w ∧
      w.pointer .kernelTlb = false ∧
      ∀ e w', w.next (fun _ _ _ => []) e = some w' → ¬ w.Faults e := by
  obtain ⟨w, hrun, hpointer⟩ : ∃ w, Run (restrict (partialGraph (PointerWorld.next fun _ _ _ => []))
      (PointerWorld.Quiesced fun _ _ _ => [])) (.added 0 fun _ _ => 0) closedAfterRemoval w ∧
        w.pointer .kernelTlb = false := by
    refine ⟨_, .cons ⟨trivial, rfl⟩ (.cons ⟨trivial, rfl⟩ (.cons ⟨trivial, rfl⟩
      (.cons ⟨trivial, rfl⟩ (.cons ⟨trivial, rfl⟩
      (.cons ⟨fun hlocked => absurd rfl hlocked, rfl⟩ (.cons ⟨trivial, rfl⟩
      (.cons ⟨fun _ => rfl, rfl⟩ (.cons ⟨trivial, rfl⟩ (.cons ⟨trivial, rfl⟩
      (.cons ⟨trivial, rfl⟩ (.cons ⟨trivial, rfl⟩ (.cons ⟨fun t => ?_, rfl⟩
      (.cons ⟨trivial, rfl⟩ (.cons ⟨trivial, rfl⟩ (.cons ⟨trivial, rfl⟩ (.cons ⟨trivial, rfl⟩
      (.cons ⟨fun hlocked => absurd (lockedAccesses_of_detached rfl _) hlocked, rfl⟩
      (.cons ⟨trivial, rfl⟩ (.cons ⟨trivial, rfl⟩ (.cons ⟨fun hsends => ?_, rfl⟩
      (.nil _))))))))))))))))))))), rfl⟩
    · cases t <;> rfl
    · cases hsends
  exact ⟨w, hrun, hpointer, (no_null_access_when_quiesced hrun).1⟩

/-- A handle is opened between a release and the next preparation. -/
def openedWhileStopped : List (PointerEvent Unit) := prepared ++ released ++ opened ()

/-- A handle is opened, and the device is removed and released after the test of the send. -/
def removedDuringOpen : List (PointerEvent Unit) :=
  prepared ++ opened () ++ [.surpriseRemoval] ++ released

/-- Whatever the handlers do, both opens send the power state through pointers that are
`NULL`. -/
theorem sends_through_null :
    (∀ hw, ∃ w w', Run (partialGraph (PointerWorld.next hw)) (.added 0 fun _ _ => 0)
        openedWhileStopped w ∧ w.next hw (.thread () (.access false)) = some w' ∧
        w.Faults (.thread () (.access false))) ∧
      ∀ hw, ∃ w w', Run (partialGraph (PointerWorld.next hw)) (.added 0 fun _ _ => 0)
        removedDuringOpen w ∧ w.next hw (.thread () (.access false)) = some w' ∧
        w.Faults (.thread () (.access false)) := by
  have hfaults : ∀ {hw} (es : List (PointerEvent Unit)) {w : PointerWorld Unit} {msg : ArcMsg},
      runList (PointerWorld.next hw) (.added 0 fun _ _ => 0) es = some w →
      w.activity () = .sending [.arcMessage msg] → w.pointer .tlbRegs = false →
        ∃ w w', Run (partialGraph (PointerWorld.next hw)) (.added 0 fun _ _ => 0) es w ∧
          w.next hw (.thread () (.access false)) = some w' ∧
          w.Faults (.thread () (.access false)) := by
    intro hw es w msg hrun hact hnull
    refine ⟨w, w.set () (.sending []), run_of_runList hrun, ?_, .arcMessage msg, [], ?_, .tlbRegs,
      List.mem_cons_self .., hnull⟩
    · simp only [PointerWorld.next, hact]
      rfl
    · rw [hact]
      rfl
  exact ⟨fun hw => hfaults openedWhileStopped rfl rfl rfl,
    fun hw => hfaults removedDuringOpen rfl rfl rfl⟩

end TtKmd
