import TtKmd.Device.Resources
import TtKmd.Power.Quiescence
import TtKmd.Reset.Marker

/-!
# Register accesses in the reset window

From a flavor that sets `NeedsHwInit` to `POST_RESET` the gate refuses every request that
would reach the hardware. It stands in front of the requests only: closing a handle still
performs its cleanup write and tears its regions down, and the exit of a process tears the
regions of its pinnings down. Both are skipped only on a detached device.

An open and a close also send the aggregated power state, with the same check of `Detached`
alone. The lines of `chardev.c` that these sends cite skip it in the window, so the results
leave that message open and bound everything else.

Every entry point has a trace of its register accesses. What the handlers behind the gate
do is a parameter; the traces of the entry points beside the gate are computed, and the
iATU writes in them account for everything they do to the registers.
-/

namespace TtKmd

open Lib

/-- An access to the registers of the device. -/
inductive RegisterAccess
  /-- A read through the kernel TLB window. -/
  | nocRead (x y addr noc : ℕ)
  /-- A write through the kernel TLB window. -/
  | nocWrite (x y addr data noc : ℕ)
  /-- A message to the firmware. -/
  | arcMessage (msg : ArcMsg)
  /-- A write to a register of a TLB window. -/
  | tlbWrite (offset value : ℕ)
  /-- A write to a register of an outbound region. -/
  | iatuWrite (r : Fin 16) (w : AtuReg × ℕ)
  deriving DecidableEq

/-- A message to the firmware. -/
def RegisterAccess.isMessage : RegisterAccess → Bool
  | .arcMessage _ => true
  | _ => false

/-- The write a handle has registered for its close. -/
structure NocCleanup where
  /-- `NocCleanupX`. -/
  x : ℕ
  /-- `NocCleanupY`. -/
  y : ℕ
  /-- `NocCleanupNoc`. -/
  noc : ℕ
  /-- `NocCleanupAddr`. -/
  addr : ℕ
  /-- `NocCleanupData`. -/
  data : ℕ

/-- `tenstorrent_set_noc_cleanup`. -/
structure NocCleanupIn where
  /-- `argsz`. -/
  argsz : ℕ
  /-- `flags`. -/
  flags : ℕ
  /-- `enabled`. -/
  enabled : ℕ
  /-- `x`, `y`, `noc`, `addr` and `data`. -/
  write : NocCleanup

/-- The checks of `TtIoctlSetNocCleanup`. -/
def setNocCleanupCheck (isBlackhole : Bool) (io : Io) (i : NocCleanupIn) : NtStatus :=
  if !isBlackhole then .notSupported
  else if ttCopyInBuffer io 32 ≠ .success then .accessViolation
  else if i.argsz ≠ 32 ∨ i.flags ≠ 0 ∨ i.enabled > 1 ∨ i.write.addr % 4 ≠ 0 ∨ i.write.noc > 1 ∨
      i.write.x > 64 ∨ i.write.y > 64 then
    .invalidParameter
  else .success

/-- A device with the parts of its file contexts that reach the hardware beside the
requests. -/
structure HwWorld where
  /-- The device. -/
  device : DeviceContext
  /-- The contribution of each file object to the power state. -/
  power : Handle → FilePower
  /-- The write of each file object; `none` while `NocCleanupEnabled` is not set. -/
  nocCleanup : Handle → Option NocCleanup

/-- The entry points. -/
inductive HwEvent
  /-- `TtEvtDeviceFileCreate`. -/
  | create (opener : Process)
  /-- A request, on either dispatch path. -/
  | request (F : Handle) (caller : Process) (r : Request)
  /-- `SET_NOC_CLEANUP`. -/
  | setNocCleanup (F : Handle) (io : Io) (i : NocCleanupIn)
  /-- `SET_POWER_STATE`. -/
  | setPowerState (F : Handle) (io : Io) (i : PowerStateIn)
  /-- `TtEvtFileCleanup`. -/
  | cleanup (F : Handle)
  /-- `TtProcessNotify`. -/
  | processExit (process : Process)
  /-- `TtEvtDeviceSurpriseRemoval`. -/
  | surpriseRemoval
  /-- The framework cancels a pended request. -/
  | cancel (k : ℕ)

/-- A `RESET_DEVICE` request. -/
def HwEvent.isReset : HwEvent → Bool
  | .request _ _ r => r.nr == 6
  | _ => false

/-- The entry points that end in `TtPowerAggregate` without a gate in front. -/
def HwEvent.aggregates : HwEvent → Bool
  | .create _ => true
  | .cleanup _ => true
  | _ => false

/-- The state with another device. -/
def HwWorld.withDevice (w : HwWorld) (device : DeviceContext) : HwWorld := { w with device }

/-- The requests that pass the gate and the checks of `SET_NOC_CLEANUP`. -/
def storesNocCleanup (d : DeviceContext) (F : Handle) (io : Io) (i : NocCleanupIn) : Bool :=
  decide (ttCheckIoGates d F 14 = .success) &&
    decide (setNocCleanupCheck d.config.isBlackhole io i = .success)

/-- The requests that pass the gate and the checks of `SET_POWER_STATE`. -/
def storesPower (d : DeviceContext) (F : Handle) (io : Io) (i : PowerStateIn) : Bool :=
  decide (ttCheckIoGates d F 15 = .success) && decide (setPowerStateCheck io i = .success)

/-- The contributions after a handle is opened. -/
def HwWorld.openedPower (w : HwWorld) : Handle → FilePower :=
  Function.update w.power w.device.nextFile ttPowerFileDefault

/-- The contributions after a handle is closed. -/
def HwWorld.closedPower (w : HwWorld) (F : Handle) : Handle → FilePower :=
  Function.update w.power F { (w.power F) with contributes := false }

/-- The contributions after `SET_POWER_STATE`. -/
def HwWorld.storedPower (w : HwWorld) (F : Handle) (i : PowerStateIn) : Handle → FilePower :=
  Function.update w.power F i.contribution

/-- The registered writes after `SET_NOC_CLEANUP`. -/
def HwWorld.storedCleanup (w : HwWorld) (F : Handle) (i : NocCleanupIn) :
    Handle → Option NocCleanup :=
  Function.update w.nocCleanup F (if i.enabled ≠ 0 then some i.write else none)

/-- One step; `none` is an event that cannot happen. -/
def HwWorld.next (w : HwWorld) : HwEvent → Option HwWorld
  | .create opener =>
      some { w with device := ttEvtDeviceFileCreate w.device opener, power := w.openedPower }
  | .request F caller r => (w.device.next (.request F caller r)).map w.withDevice
  | .setNocCleanup F io i =>
      if w.device.isOpen F then
        if storesNocCleanup w.device F io i then
          some { w with nocCleanup := w.storedCleanup F i }
        else some w
      else none
  | .setPowerState F io i =>
      if w.device.isOpen F then
        if storesPower w.device F io i then some { w with power := w.storedPower F i } else some w
      else none
  | .cleanup F =>
      (w.device.next (.cleanup F)).map fun device => { w with device, power := w.closedPower F }
  | .processExit process => (w.device.next (.processExit process)).map w.withDevice
  | .surpriseRemoval => (w.device.next .surpriseRemoval).map w.withDevice
  | .cancel k => (w.device.next (.cancel k)).map w.withDevice

/-- A started device. -/
def HwWorld.started (config : MemoryConfig) (subsysVendorId subsysId : ℕ)
    (regs : Fin 16 → AtuRegs) : HwWorld where
  device := .started config subsysVendorId subsysId false regs
  power := fun _ => .init
  nocCleanup := fun _ => none

/-- The send of `TtPowerAggregate`. -/
def powerSend (d : DeviceContext) (power : Handle → FilePower) : List RegisterAccess :=
  if d.config.isBlackhole ∧ d.detached = false then
    [.arcMessage (powerMessage (powerAggregate power d.openResetGen d.resetGen d.fileList))]
  else []

/-- The writes of `TtTeardownNocDma`. -/
def teardownWrites (detached : Bool) : Option (Fin 16) → List RegisterAccess
  | none => []
  | some r => if detached then [] else (ttBhConfigureOutboundAtu 0 0 0).2.map (.iatuWrite r)

/-- The writes of `TtMemoryProcessExit`. -/
def pinningWrites (detached : Bool) (f : FileMemory) : List RegisterAccess :=
  f.pinnings.flatMap fun p => teardownWrites detached p.iatuRegion

/-- The writes of `TtMemoryFileCleanup`. -/
def fileWrites (detached : Bool) (f : FileMemory) : List RegisterAccess :=
  pinningWrites detached f ++ f.bufs.flatMap fun b => teardownWrites detached b.iatuRegion

/-- The write a handle has registered, performed by `TtEvtFileCleanup`. -/
def cleanupWrite (d : DeviceContext) (cleanup : Option NocCleanup) : List RegisterAccess :=
  match cleanup with
  | none => []
  | some c =>
      if d.detached = false ∧ d.config.isBlackhole then
        [.nocWrite c.x c.y c.addr (c.data &&& 0xFFFFFFFF) c.noc]
      else []

/-- The requests whose handlers call no function that reaches the hardware, and the codes
that no handler serves. -/
def Request.quiet : Request → Bool
  | .map .. => true
  | .unmap .. => true
  | .lockCtl .. => true
  | .allocateTlb .. => true
  | .freeTlb .. => true
  | .other nr _ => nr != 6 && nr != 13 && nr != 15 && nr != 0x102 && nr != 0x200 && nr != 0x201
  | _ => false

/-- The accesses of an entry point; `hw` is what the handlers that reach the hardware do. -/
def accesses (hw : DeviceContext → Handle → Request → List RegisterAccess) (w : HwWorld) :
    HwEvent → List RegisterAccess
  | .create opener => powerSend (ttEvtDeviceFileCreate w.device opener) w.openedPower
  | .request F caller r =>
      if ttCheckIoGates w.device F r.nr ≠ .success then []
      else if r.inCallerContext ∧ w.device.creatorProcess F ≠ caller then []
      else if r.quiet then []
      else hw w.device F r
  | .setNocCleanup .. => []
  | .setPowerState F io i =>
      if storesPower w.device F io i then powerSend w.device (w.storedPower F i) else []
  | .cleanup F =>
      cleanupWrite w.device (w.nocCleanup F) ++
        fileWrites w.device.detached (w.device.mem.file F) ++
        if (w.power F).contributes then powerSend (ttEvtFileCleanup w.device F) (w.closedPower F)
        else []
  | .processExit process =>
      (w.device.fileList.filter fun F => w.device.creatorProcess F == process).flatMap
        fun F => pinningWrites w.device.detached (w.device.mem.file F)
  | .surpriseRemoval => []
  | .cancel _ => []

/-- The registers after the iATU writes of a trace. -/
def replay (regs : Fin 16 → AtuRegs) (trace : List RegisterAccess) : Fin 16 → AtuRegs :=
  trace.foldl (fun regs a =>
    match a with
    | .iatuWrite r w => Function.update regs r ((regs r).write w)
    | _ => regs) regs

section Traces

variable {detached : Bool}

/-- A trace in two parts. -/
theorem replay_append (regs : Fin 16 → AtuRegs) (t t' : List RegisterAccess) :
    replay regs (t ++ t') = replay (replay regs t) t' := List.foldl_append

/-- The writes to one region. -/
theorem replay_writes (u : IatuUnit) (r : Fin 16) (ws : List (AtuReg × ℕ)) :
    replay u.regs (ws.map (.iatuWrite r)) = (u.writes r ws).regs := by
  induction ws generalizing u with
  | nil => rfl
  | cons x ws ih => exact ih (u.write r x)

/-- The trace of a teardown accounts for what it does to the registers. -/
theorem replay_teardown (u : IatuUnit) (region : Option (Fin 16)) :
    replay u.regs (teardownWrites detached region) =
      (ttTeardownNocDma detached u region).regs := by
  cases region with
  | none => rfl
  | some r =>
    cases detached with
    | false => exact replay_writes u r _
    | true => rfl

/-- The trace of `TtMemoryProcessExit` accounts for what it does to the registers. -/
theorem replay_pinnings (m : MemoryState) (F : Handle) :
    replay m.iatu.regs (pinningWrites detached (m.file F)) =
      (ttMemoryProcessExit detached m F).iatu.regs := by
  have hfold : ∀ (ps : List Pinning) (m : MemoryState),
      replay m.iatu.regs (ps.flatMap fun p => teardownWrites detached p.iatuRegion) =
        (ps.foldl (ttDestroyPinning detached) m).iatu.regs := by
    intro ps
    induction ps with
    | nil => exact fun _ => rfl
    | cons p ps ih =>
      intro m
      rw [List.flatMap_cons, replay_append, replay_teardown, List.foldl_cons]
      exact ih (ttDestroyPinning detached m p)
  exact hfold (m.file F).pinnings (m.setFile F _)

/-- The trace of the rounds over the DMA-buffer slots accounts for what they do to the
registers. -/
theorem replay_slots {F : Handle} {slots : List ℕ} (hslots : slots.Nodup) (m : MemoryState) :
    replay m.iatu.regs ((slots.filterMap (m.file F).dmaBufs).flatMap
        fun b => teardownWrites detached b.iatuRegion) =
      (slots.foldl (cleanupDmaBuf detached F) m).iatu.regs := by
  induction slots generalizing m with
  | nil => rfl
  | cons i slots ih =>
    obtain ⟨hi, hslots⟩ := List.nodup_cons.mp hslots
    rw [List.foldl_cons]
    rcases cleanupDmaBuf_cases detached m F i with ⟨hnone, hm⟩ | ⟨b, hb, hm⟩
    · rw [hm, List.filterMap_cons_none hnone]
      exact ih hslots m
    · have hrest : slots.filterMap ((cleanupDmaBuf detached F m i).file F).dmaBufs =
          slots.filterMap (m.file F).dmaBufs := by
        apply List.filterMap_congr
        intro j hj
        have hne : j ≠ i := by
          rintro rfl
          exact hi hj
        rw [hm]
        simp [ttDmaBufDestroy, ttDmaAccountRelease, MemoryState.setFile, hne]
      rw [List.filterMap_cons_some hb, List.flatMap_cons, replay_append, replay_teardown,
        ← ih hslots, hrest, hm]
      rfl

/-- The trace of `TtMemoryFileCleanup` accounts for what it does to the registers. -/
theorem replay_file (m : MemoryState) (F : Handle) :
    replay m.iatu.regs (fileWrites detached (m.file F)) =
      (ttMemoryFileCleanup detached m F).iatu.regs := by
  have hbufs : (m.file F).bufs = (List.range maxDmaBufs).filterMap
      ((ttMemoryProcessExit detached m F).file F).dmaBufs := by
    obtain ⟨u', hu'⟩ := ttMemoryProcessExit_eq detached m F
    rw [hu']
    simp [MemoryState.setFile, FileMemory.bufs]
  have hslots := @replay_slots detached F _ (List.nodup_range (n := maxDmaBufs))
    (ttMemoryProcessExit detached m F)
  rw [fileWrites, replay_append, replay_pinnings, hbufs, hslots, ttMemoryFileCleanup,
    cleanupTlbSection, cleanupFileSection]

/-- The trace of a process exit accounts for what it does to the registers. -/
theorem replay_exits {Fs : List Handle} (hFs : Fs.Nodup) (m : MemoryState) :
    replay m.iatu.regs (Fs.flatMap fun F => pinningWrites detached (m.file F)) =
      (Fs.foldl (ttMemoryProcessExit detached) m).iatu.regs := by
  induction Fs generalizing m with
  | nil => rfl
  | cons F Fs ih =>
    obtain ⟨hF, hFs⟩ := List.nodup_cons.mp hFs
    have hrest : (Fs.flatMap fun G => pinningWrites detached (m.file G)) =
        Fs.flatMap fun G => pinningWrites detached ((ttMemoryProcessExit detached m F).file G) := by
      apply List.flatMap_congr
      intro G hG
      have hne : G ≠ F := by
        rintro rfl
        exact hF hG
      obtain ⟨u', hu'⟩ := ttMemoryProcessExit_eq detached m F
      rw [hu']
      exact congrArg _ (MemoryState.setFile_of_ne hne _).symm
    rw [List.flatMap_cons, replay_append, replay_pinnings, hrest, List.foldl_cons]
    exact ih hFs _

/-- The zap of the views leaves the regions alone. -/
theorem ttResetZapMappings_iatu (m : MemoryState) (fileList : List Handle) :
    (ttResetZapMappings m fileList).iatu = m.iatu := by
  induction fileList generalizing m with
  | nil => rfl
  | cons F fileList ih => exact ih (zapFile m F)

/-- Messages leave the iATU registers alone. -/
theorem replay_powerSend (regs : Fin 16 → AtuRegs) (d : DeviceContext)
    (power : Handle → FilePower) : replay regs (powerSend d power) = regs := by
  unfold powerSend
  split <;> rfl

/-- The registered write leaves the iATU registers alone. -/
theorem replay_cleanupWrite (regs : Fin 16 → AtuRegs) (d : DeviceContext)
    (cleanup : Option NocCleanup) : replay regs (cleanupWrite d cleanup) = regs := by
  unfold cleanupWrite
  split
  · rfl
  · split <;> rfl

end Traces

/-- A region is claimed by a handle. -/
def HwWorld.Owns (w : HwWorld) (F : Handle) (r : Fin 16) : Prop :=
  (w.device.mem.iatu.slots r).used = true ∧ (w.device.mem.iatu.slots r).owner = some F

/-- What an entry point other than `RESET_DEVICE` may access in the reset window. -/
def Permitted (w : HwWorld) : HwEvent → RegisterAccess → Prop
  | .cleanup F, .nocWrite x y addr data noc =>
      ∃ c, w.nocCleanup F = some c ∧ x = c.x ∧ y = c.y ∧ addr = c.addr ∧
        data = c.data &&& 0xFFFFFFFF ∧ noc = c.noc
  | .cleanup F, .iatuWrite r x => w.Owns F r ∧ x ∈ atuWrites 0 0 0
  | .processExit process, .iatuWrite r x =>
      ∃ F, w.device.creatorProcess F = process ∧ w.Owns F r ∧ x ∈ atuWrites 0 0 0
  | _, _ => False

section Window

variable {hw : DeviceContext → Handle → Request → List RegisterAccess} {w w' : HwWorld}

/-- In the window the gate lets nothing pass but the four numbers it knows. -/
theorem ttCheckIoGates_of_window {d : DeviceContext} {F : Handle} {nr : ℕ}
    (hwindow : d.needsHwInit = true) (hgate : ttCheckIoGates d F nr = .success) :
    nr = maxUlong ∨ nr = 0 ∨ nr = 5 ∨ nr = 6 := by
  by_contra hno
  have hrefused : d.needsHwInit = true ∧ nr ≠ maxUlong ∧ nr ≠ 0 ∧ nr ≠ 5 ∧ nr ≠ 6 := by
    refine ⟨hwindow, ?_, ?_, ?_, ?_⟩ <;> intro h <;> exact hno (by simp [h])
  unfold ttCheckIoGates at hgate
  split_ifs at hgate

/-- A request that passes the gate in the window is a `RESET_DEVICE` or reaches no
hardware. -/
theorem quiet_of_window {d : DeviceContext} {F : Handle} {r : Request}
    (hwindow : d.needsHwInit = true) (hgate : ttCheckIoGates d F r.nr = .success)
    (hother : r.nr ≠ 6) : r.quiet = true := by
  have hnr := ttCheckIoGates_of_window hwindow hgate
  cases r with
  | map => rfl
  | unmap => rfl
  | lockCtl => rfl
  | allocateTlb => rfl
  | freeTlb => rfl
  | resetDevice => exact absurd rfl hother
  | other nr status =>
    have hnr' : nr = maxUlong ∨ nr = 0 ∨ nr = 5 ∨ nr = 6 := hnr
    have hother' : nr ≠ 6 := hother
    rcases hnr' with rfl | rfl | rfl | rfl
    · rfl
    · rfl
    · rfl
    · exact absurd rfl hother'
  | _ => exact absurd hnr (by simp [Request.nr, maxUlong])

/-- A request that reaches no hardware leaves the iATU registers alone. -/
theorem dispatch_regs {d : DeviceContext} {F : Handle} {caller : Process} {r : Request}
    (hquiet : ttCheckIoGates d F r.nr = .success → r.quiet = true) :
    (dispatch d F caller r).device.mem.iatu.regs = d.mem.iatu.regs := by
  by_cases hgate : ttCheckIoGates d F r.nr = .success
  swap
  · rw [dispatch_of_refused rfl hgate]
  have hquiet' := hquiet hgate
  unfold dispatch
  split
  · rfl
  split
  · rfl
  cases r with
  | allocateDmaBuf io i env => cases hquiet'
  | freeDmaBufEx io i => cases hquiet'
  | pinPages io i env => cases hquiet'
  | unpinPages io i => cases hquiet'
  | resetDevice io i env => cases hquiet'
  | allocateTlb io size =>
    obtain ⟨used, owner, hm⟩ := ttIoctlAllocateTlb_windows d.config d.mem F io size
    simp only [handle, DeviceContext.withMem, hm]
  | freeTlb io id =>
    obtain ⟨used, owner, hm⟩ := ttIoctlFreeTlb_windows d.mem F io id
    simp only [handle, DeviceContext.withMem, hm]
  | map io i env =>
    rcases ttIoctlMap_cases d.config d.mem F io i { env with process := caller } with
      hm | ⟨-, v, -, -, hm⟩
    · simp only [handle, DeviceContext.withMem, hm]
    · simp only [handle, DeviceContext.withMem, hm, MemoryState.setFile]
  | unmap io userVa reserved =>
    rcases ttIoctlUnmap_mem d.mem F io userVa reserved with hm | hm
    · simp only [handle, DeviceContext.withMem, hm]
    · simp only [handle, DeviceContext.withMem, hm, unmapSection]
      split <;> rfl
  | lockCtl io i env => rfl
  | other nr status => rfl

/-- What a send of the power state is. -/
theorem mem_powerSend {d : DeviceContext} {power : Handle → FilePower} {a : RegisterAccess}
    (ha : a ∈ powerSend d power) : ∃ agg, a = .arcMessage (powerMessage agg) := by
  unfold powerSend at ha
  split at ha
  · exact ⟨_, List.mem_singleton.mp ha⟩
  · cases ha

/-- What a teardown writes. -/
theorem mem_teardownWrites {detached : Bool} {region : Option (Fin 16)} {a : RegisterAccess}
    (ha : a ∈ teardownWrites detached region) :
    ∃ r, region = some r ∧ ∃ x ∈ atuWrites 0 0 0, a = .iatuWrite r x := by
  cases region with
  | none => cases ha
  | some r =>
    cases detached with
    | true => cases ha
    | false =>
      obtain ⟨x, hx, hax⟩ := List.mem_map.mp ha
      exact ⟨r, rfl, x, hx, hax.symm⟩

/-- What the release of the pinnings writes. -/
theorem mem_pinningWrites {detached : Bool} {f : FileMemory} {a : RegisterAccess}
    (ha : a ∈ pinningWrites detached f) :
    ∃ r ∈ f.regions, ∃ x ∈ atuWrites 0 0 0, a = .iatuWrite r x := by
  obtain ⟨p, hp, hap⟩ := List.mem_flatMap.mp ha
  obtain ⟨r, hr, hwrite⟩ := mem_teardownWrites hap
  refine ⟨r, ?_, hwrite⟩
  exact List.mem_append_right _ (List.mem_filterMap.mpr ⟨p, hp, hr⟩)

/-- What the cleanup of the memory of a handle writes. -/
theorem mem_fileWrites {detached : Bool} {f : FileMemory} {a : RegisterAccess}
    (ha : a ∈ fileWrites detached f) :
    ∃ r ∈ f.regions, ∃ x ∈ atuWrites 0 0 0, a = .iatuWrite r x := by
  rcases List.mem_append.mp ha with ha | ha
  · exact mem_pinningWrites ha
  · obtain ⟨b, hb, hab⟩ := List.mem_flatMap.mp ha
    obtain ⟨r, hr, hwrite⟩ := mem_teardownWrites hab
    refine ⟨r, ?_, hwrite⟩
    exact List.mem_append_left _ (List.mem_filterMap.mpr ⟨b, hb, hr⟩)

/-- What the registered write is. -/
theorem mem_cleanupWrite {d : DeviceContext} {cleanup : Option NocCleanup} {a : RegisterAccess}
    (ha : a ∈ cleanupWrite d cleanup) :
    ∃ c, cleanup = some c ∧ a = .nocWrite c.x c.y c.addr (c.data &&& 0xFFFFFFFF) c.noc := by
  cases cleanup with
  | none => cases ha
  | some c =>
    simp only [cleanupWrite] at ha
    split at ha
    · exact ⟨c, rfl, List.mem_singleton.mp ha⟩
    · cases ha

/-- `SET_POWER_STATE` is refused in the window. -/
theorem storesPower_of_window {d : DeviceContext} {F : Handle} {io : Io} {i : PowerStateIn}
    (hwindow : d.needsHwInit = true) : storesPower d F io i = false := by
  by_contra hstores
  simp only [storesPower, Bool.not_eq_false, Bool.and_eq_true, decide_eq_true_eq] at hstores
  have hnr := ttCheckIoGates_of_window hwindow hstores.1
  simp [maxUlong] at hnr

/-- In the window an entry point other than `RESET_DEVICE` accesses what it may, the message
of `TtPowerAggregate` apart. -/
theorem permitted_of_window (h : Resources w.device) (hwindow : w.device.needsHwInit = true)
    {e : HwEvent} (hother : e.isReset = false) :
    ∀ a ∈ accesses hw w e,
      Permitted w e a ∨ (e.aggregates = true ∧ a.isMessage = true) := by
  intro a ha
  cases e with
  | create opener =>
    obtain ⟨agg, rfl⟩ := mem_powerSend ha
    exact .inr ⟨rfl, rfl⟩
  | request F caller r =>
    simp only [accesses] at ha
    split at ha
    · cases ha
    rename_i hgate
    split at ha
    · cases ha
    have hnr : r.nr ≠ 6 := by simpa [HwEvent.isReset] using hother
    rw [if_pos (quiet_of_window hwindow (not_not.mp hgate) hnr)] at ha
    cases ha
  | setNocCleanup F io i => cases ha
  | setPowerState F io i =>
    simp only [accesses, storesPower_of_window hwindow, Bool.false_eq_true, if_false] at ha
    cases ha
  | cleanup F =>
    simp only [accesses] at ha
    rcases List.mem_append.mp ha with ha | ha
    · rcases List.mem_append.mp ha with ha | ha
      · obtain ⟨c, hc, rfl⟩ := mem_cleanupWrite ha
        exact .inl ⟨c, hc, rfl, rfl, rfl, rfl, rfl⟩
      · obtain ⟨r, hr, x, hx, rfl⟩ := mem_fileWrites ha
        exact .inl ⟨(h.mem_regions F r).mp hr, hx⟩
    · split at ha
      · obtain ⟨agg, rfl⟩ := mem_powerSend ha
        exact .inr ⟨rfl, rfl⟩
      · cases ha
  | processExit process =>
    obtain ⟨F, hF, haF⟩ := List.mem_flatMap.mp ha
    obtain ⟨r, hr, x, hx, rfl⟩ := mem_pinningWrites haF
    have hcreator := (List.mem_filter.mp hF).2
    exact .inl ⟨F, by simpa using hcreator, (h.mem_regions F r).mp hr, hx⟩
  | surpriseRemoval => cases ha
  | cancel k => cases ha

/-- In the window the trace of an entry point other than `RESET_DEVICE` accounts for what
happens to the iATU registers. -/
theorem replay_of_window (h : Resources w.device) (hwindow : w.device.needsHwInit = true)
    {e : HwEvent} (hother : e.isReset = false) (hstep : w.next e = some w') :
    w'.device.mem.iatu.regs = replay w.device.mem.iatu.regs (accesses hw w e) := by
  cases e with
  | create opener =>
    rw [← Option.some.inj hstep, accesses, replay_powerSend]
    rfl
  | request F caller r =>
    have hnr : r.nr ≠ 6 := by simpa [HwEvent.isReset] using hother
    have hquiet : ttCheckIoGates w.device F r.nr = .success → r.quiet = true :=
      fun hgate => quiet_of_window hwindow hgate hnr
    have hnone : accesses hw w (.request F caller r) = [] := by
      simp only [accesses]
      split
      · rfl
      rename_i hgate
      split
      · rfl
      · rw [if_pos (hquiet (not_not.mp hgate))]
    obtain ⟨d', hd', rfl⟩ := Option.map_eq_some_iff.mp hstep
    obtain ⟨-, rfl⟩ := DeviceContext.next_request hd'
    rw [hnone]
    exact dispatch_regs hquiet
  | setNocCleanup F io i =>
    simp only [HwWorld.next] at hstep
    split at hstep
    · split at hstep <;> cases hstep <;> rfl
    · cases hstep
  | setPowerState F io i =>
    simp only [HwWorld.next, storesPower_of_window hwindow] at hstep
    split at hstep
    · cases hstep
      simp only [accesses, storesPower_of_window hwindow]
      rfl
    · cases hstep
  | cleanup F =>
    obtain ⟨d', hd', rfl⟩ := Option.map_eq_some_iff.mp hstep
    obtain ⟨-, rfl⟩ := DeviceContext.next_cleanup hd'
    rw [accesses, replay_append, replay_append, replay_cleanupWrite,
      replay_file]
    split
    · rw [replay_powerSend]
      rfl
    · rfl
  | processExit process =>
    rw [← Option.some.inj hstep]
    exact (replay_exits (h.nodup.filter _) _).symm
  | surpriseRemoval =>
    rw [← Option.some.inj hstep]
    exact congrArg IatuUnit.regs (ttResetZapMappings_iatu w.device.mem w.device.fileList)
  | cancel k =>
    rw [← Option.some.inj hstep]
    rfl

end Window

section Runs

variable {hw : DeviceContext → Handle → Request → List RegisterAccess} {w w' : HwWorld}

/-- A step is one step of the device at most. -/
theorem deviceStep_of_hwStep {e : HwEvent} (hstep : w.next e = some w') :
    w'.device = w.device ∨ ∃ e', w.device.next e' = some w'.device := by
  cases e with
  | create opener =>
    rw [← Option.some.inj hstep]
    exact .inr ⟨.create opener, rfl⟩
  | request F caller r =>
    obtain ⟨d', hd', rfl⟩ := Option.map_eq_some_iff.mp hstep
    exact .inr ⟨_, hd'⟩
  | setNocCleanup F io i =>
    simp only [HwWorld.next] at hstep
    split at hstep
    · split at hstep <;> cases hstep <;> exact .inl rfl
    · cases hstep
  | setPowerState F io i =>
    simp only [HwWorld.next] at hstep
    split at hstep
    · split at hstep <;> cases hstep <;> exact .inl rfl
    · cases hstep
  | cleanup F =>
    obtain ⟨d', hd', rfl⟩ := Option.map_eq_some_iff.mp hstep
    exact .inr ⟨_, hd'⟩
  | processExit process =>
    rw [← Option.some.inj hstep]
    exact .inr ⟨.processExit process, rfl⟩
  | surpriseRemoval =>
    rw [← Option.some.inj hstep]
    exact .inr ⟨.surpriseRemoval, rfl⟩
  | cancel k =>
    rw [← Option.some.inj hstep]
    exact .inr ⟨.cancel k, rfl⟩

/-- The device of a run is a device of `DeviceContext.next`. -/
theorem deviceRun_of_hwRun {es : List HwEvent} (hrun : Run (partialGraph HwWorld.next) w es w') :
    Reachable (partialGraph DeviceContext.next) w.device w'.device := by
  induction hrun with
  | nil w => exact .refl _
  | cons hstep _ ih =>
    rcases deviceStep_of_hwStep hstep with hsame | ⟨e', he'⟩
    · rw [← hsame]
      exact ih
    · exact .head he' ih

end Runs

/-- The power state of a device and the one whose calls interleave agree. -/
structure PowerView (w : HwWorld) (v : PowerWorld) : Prop where
  /-- `IsBlackhole`. -/
  isBlackhole : v.isBlackhole = w.device.config.isBlackhole
  /-- `Detached`. -/
  detached : v.detached = w.device.detached
  /-- `ResetGen`. -/
  resetGen : v.resetGen = w.device.resetGen
  /-- `FileList`. -/
  fileList : v.fileList = w.device.fileList
  /-- The number of the next file object. -/
  nextFile : v.nextFile = w.device.nextFile
  /-- `OpenResetGen`. -/
  openResetGen : v.openResetGen = w.device.openResetGen
  /-- The contributions. -/
  power : v.power = w.power

/-- The last `POWER_SETTING` message after a trace. -/
def lastMessage (last : Option ArcMsg) (trace : List RegisterAccess) : Option ArcMsg :=
  trace.foldl (fun last a =>
    match a with
    | .arcMessage msg => some msg
    | _ => last) last

section Power

variable {hw : DeviceContext → Handle → Request → List RegisterAccess} {w : HwWorld}
  {v : PowerWorld}

/-- What the send of the power state tells the firmware. -/
theorem lastMessage_powerSend (hv : PowerView w v) :
    lastMessage v.last (powerSend w.device w.power) = (v.sent v.wanted).last := by
  have hmsg : powerMessage (powerAggregate w.power w.device.openResetGen w.device.resetGen
      w.device.fileList) = v.wanted := by
    rw [powerAggregate_eq, ← hv.power, ← hv.openResetGen, ← hv.resetGen, ← hv.fileList]
    rfl
  unfold powerSend PowerWorld.sent
  rw [hv.isBlackhole, hv.detached, hmsg]
  split <;> rfl

/-- Writes to the regions are no messages. -/
theorem lastMessage_fileWrites {detached : Bool} {f : FileMemory} (last : Option ArcMsg) :
    lastMessage last (fileWrites detached f) = last := by
  have hnone : ∀ t : List RegisterAccess, (∀ a ∈ t, ∃ r x, a = .iatuWrite r x) →
      lastMessage last t = last := by
    intro t
    induction t with
    | nil => exact fun _ => rfl
    | cons a t ih =>
      intro ht
      obtain ⟨r, x, rfl⟩ := ht _ (List.mem_cons_self ..)
      exact ih fun b hb => ht b (List.mem_cons_of_mem _ hb)
  apply hnone
  intro a ha
  obtain ⟨r, -, x, -, rfl⟩ := mem_fileWrites ha
  exact ⟨r, x, rfl⟩

/-- An open that is not interrupted is an open of the power state, with the same message. -/
theorem open_tells (hv : PowerView w v) (opener : Process) :
    ∃ v', runList PowerWorld.next v [.create w.device.resetGen, .readGen v.nextCall,
        .compute v.nextCall, .send v.nextCall] = some v' ∧
      v'.last = lastMessage v.last (accesses hw w (.create opener)) := by
  have hcreate : v.next (.create w.device.resetGen) =
      some ((v.listed w.device.resetGen).enter false) :=
    if_pos (le_of_eq hv.resetGen.symm)
  have hlisted : PowerView { w with
      device := ttEvtDeviceFileCreate w.device opener
      power := w.openedPower } (v.listed w.device.resetGen) := by
    refine ⟨hv.isBlackhole, hv.detached, hv.resetGen, ?_, ?_, ?_, ?_⟩
    · simp [PowerWorld.listed, ttEvtDeviceFileCreate, hv.fileList, hv.nextFile]
    · simp [PowerWorld.listed, ttEvtDeviceFileCreate, hv.nextFile]
    · simp [PowerWorld.listed, ttEvtDeviceFileCreate, hv.openResetGen, hv.nextFile]
    · simp [PowerWorld.listed, HwWorld.openedPower, hv.power, hv.nextFile]
  obtain ⟨v', hrun, hlast, -⟩ := uninterrupted_call (v.listed w.device.resetGen) false
  refine ⟨v', ?_, hlast.trans (lastMessage_powerSend hlisted).symm⟩
  rw [runList, hcreate]
  exact hrun

/-- A close that is not interrupted is a close of the power state, with the same message. -/
theorem close_tells (hv : PowerView w v) {F : Handle} (hF : F ∈ w.device.fileList)
    (hcontributes : (w.power F).contributes = true) :
    ∃ v', runList PowerWorld.next v [.close F, .readGen v.nextCall, .compute v.nextCall,
        .send v.nextCall] = some v' ∧
      v'.last = lastMessage v.last (accesses hw w (.cleanup F)) := by
  have hclose : v.next (.close F) = some ((v.delisted F).enter false) := by
    simp only [PowerWorld.next]
    rw [if_pos (by rw [hv.fileList]; exact hF), if_pos (by rw [hv.power]; exact hcontributes)]
  have hdelisted : PowerView { w with
      device := ttEvtFileCleanup w.device F
      power := w.closedPower F } (v.delisted F) := by
    refine ⟨hv.isBlackhole, hv.detached, hv.resetGen, ?_, hv.nextFile, hv.openResetGen, ?_⟩
    · simp [PowerWorld.delisted, ttEvtFileCleanup, hv.fileList]
    · simp [PowerWorld.delisted, HwWorld.closedPower, hv.power]
  obtain ⟨v', hrun, hlast, -⟩ := uninterrupted_call (v.delisted F) false
  refine ⟨v', ?_, ?_⟩
  · rw [runList, hclose]
    exact hrun
  · have htrace : ∀ last, lastMessage last (cleanupWrite w.device (w.nocCleanup F)) = last := by
      intro last
      unfold cleanupWrite
      split
      · rfl
      · split <;> rfl
    have hlast' := hlast.trans (lastMessage_powerSend hdelisted).symm
    rw [hlast', accesses, if_pos hcontributes]
    unfold lastMessage at htrace ⊢
    rw [List.foldl_append, List.foldl_append, htrace]
    exact congrArg (fun l => lastMessage l _) (lastMessage_fileWrites v.last).symm

end Power

/-- Handle 0 registers a write for its close and pins a page with an aperture; handle 1
opens the reset window. -/
def windowOpened : List HwEvent :=
  [.create 7,
   .setNocCleanup 0 ⟨32, 0⟩ ⟨32, 0, 1, ⟨1, 2, 0, 0x1000, 5⟩⟩,
   .request 0 7 (.pinPages ⟨24, 40⟩ ⟨16, 2, 0x5000, 4096⟩ ⟨true, true, some [9]⟩),
   .create 8,
   .request 1 8 (.resetDevice ⟨8, 16⟩ ⟨8, 3⟩ ⟨true, true, true, true, true, true⟩)]

/-- A Blackhole with every handle still to come. -/
def startedHw : HwWorld := .started blackholeConfig 0 0 fun _ _ => 0

end TtKmd
