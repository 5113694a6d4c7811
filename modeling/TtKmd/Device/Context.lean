import TtKmd.Memory.Requests
import TtKmd.Locks.Table
import TtKmd.Lib.Runs

/-!
# The device context and its entry points

The state of one device with its open handles, the gate every request passes, the
two dispatch paths, `RESET_DEVICE`, and the callbacks of the framework. Each entry
point is one step here, from the state before it to the state after it. A file
object takes requests between its create and its cleanup only; the flag `closed`
records that its cleanup has run.

The reset generation counts resets; it is a natural number, since the 64-bit counter
of the driver does not come round. What the hardware answers to a reset is an input.
-/

namespace TtKmd

open Lib

/-- `TT_DEVICE_CONTEXT`, with the contexts of its file objects. -/
structure DeviceContext where
  /-- What `EvtDevicePrepareHardware` fixed. -/
  config : MemoryConfig
  /-- `SubsysVendorId`. -/
  subsysVendorId : ℕ
  /-- `SubsysId`. -/
  subsysId : ℕ
  /-- `Detached`. -/
  detached : Bool
  /-- `NeedsHwInit`. -/
  needsHwInit : Bool
  /-- `ResetGen`. -/
  resetGen : ℕ
  /-- The memory resources. -/
  mem : MemoryState
  /-- The resource locks. -/
  locks : LockState
  /-- `FileList`. -/
  fileList : List Handle
  /-- `OpenResetGen` of each file object. -/
  openResetGen : Handle → ℕ
  /-- `CreatorProcess` of each file object. -/
  creatorProcess : Handle → Process
  /-- The number of the next file object. -/
  nextFile : ℕ
  /-- The cleanup of the file object has run. -/
  closed : Handle → Bool

/-- A handle between its create and its cleanup. -/
def DeviceContext.isOpen (d : DeviceContext) (F : Handle) : Bool :=
  decide (F < d.nextFile) && !d.closed F

/-- The test of `TtLocksWakeWaiters` for a waiter that cannot be served any more. -/
def DeviceContext.removed (d : DeviceContext) (F : Handle) : Bool :=
  d.detached || d.openResetGen F != d.resetGen

/-- A started device with nothing open. -/
def DeviceContext.started (config : MemoryConfig) (subsysVendorId subsysId : ℕ)
    (needsHwInit : Bool) (regs : Fin 16 → AtuRegs) : DeviceContext :=
  { config, subsysVendorId, subsysId, needsHwInit
    detached := false
    resetGen := 0
    mem := .started config regs
    locks := .init
    fileList := []
    openResetGen := fun _ => 0
    creatorProcess := fun _ => 0
    nextFile := 0
    closed := fun _ => false }

/-- `TtCheckIoGates`. -/
def ttCheckIoGates (d : DeviceContext) (F : Handle) (nr : ℕ) : NtStatus :=
  if d.detached then .deviceRemoved
  else if d.openResetGen F ≠ d.resetGen then .deviceRemoved
  else if d.needsHwInit ∧ nr ≠ maxUlong ∧ nr ≠ 0 ∧ nr ≠ 5 ∧ nr ≠ 6 then
    if nr = 0x102 then .deviceNotReady else .deviceRemoved
  else .success

/-- `tenstorrent_reset_device_in`. -/
structure ResetIn where
  /-- `output_size_bytes`. -/
  outputSizeBytes : ℕ
  /-- `flags`. -/
  flags : ℕ

/-- What the hardware answers to `TtIoctlResetDevice`. -/
structure ResetEnv where
  /-- `TtSafeRestoreState`. -/
  safeRestoreState : Bool
  /-- `TtBhInitHardware`. -/
  bhInitHardware : Bool
  /-- `TtPldrInitiate`. -/
  pldrInitiate : Bool
  /-- `TtPcieTimerInterrupt`. -/
  pcieTimerInterrupt : Bool
  /-- `TtBhReset`. -/
  bhReset : Bool
  /-- `TtIsResetMarkerZero`. -/
  isResetMarkerZero : Bool

/-- `TtResetLegacyFlagPermitted`. -/
def ttResetLegacyFlagPermitted (d : DeviceContext) (flags : ℕ) : Bool :=
  if flags ≠ 2 ∧ flags ≠ 4 then true
  else decide (d.subsysVendorId = 0 ∧ d.subsysId = 0)

/-- `TtBumpResetGen`. -/
def ttBumpResetGen (d : DeviceContext) (F : Handle) : DeviceContext :=
  let d := { d with
    resetGen := d.resetGen + 1,
    openResetGen := Function.update d.openResetGen F (d.resetGen + 1) }
  { d with locks := ttLocksWakeWaiters d.removed d.locks }

/-- `TtResetZapMappings` on the device. -/
def DeviceContext.zap (d : DeviceContext) : DeviceContext :=
  { d with mem := ttResetZapMappings d.mem d.fileList }

/-- The flavors that bump the generation: the result and the device after them. -/
def bumpingReset (d : DeviceContext) (F : Handle) (flags : ℕ) (ok needsHwInit : Bool) :
    Bool × DeviceContext :=
  if !ttResetLegacyFlagPermitted d flags then (false, d)
  else (ok, { (ttBumpResetGen d F).zap with needsHwInit })

/-- The switch of `TtIoctlResetDevice`: `ok` and the device after it. -/
def resetFlavor (d : DeviceContext) (F : Handle) (env : ResetEnv) :
    ℕ → Option (Bool × DeviceContext)
  | 0 => some (env.safeRestoreState && (!d.config.isBlackhole || env.bhInitHardware), d)
  | 1 => some (env.pldrInitiate, d.zap)
  | 2 => some (bumpingReset d F 2 env.pcieTimerInterrupt d.needsHwInit)
  | 3 => some (bumpingReset d F 3 true true)
  | 4 => some (bumpingReset d F 4 (d.config.isBlackhole && env.bhReset) true)
  | 5 => some (bumpingReset d F 5 (d.config.isBlackhole && env.bhReset) true)
  | 6 =>
      if d.needsHwInit then
        some (env.isResetMarkerZero && env.safeRestoreState &&
          (!d.config.isBlackhole || env.bhInitHardware), { d with needsHwInit := false })
      else some (env.isResetMarkerZero, d)
  | _ => none

/-- What a request returns and leaves. -/
structure DeviceReply where
  /-- The status the request is completed with. -/
  status : NtStatus
  /-- The request stays pending. -/
  pended : Bool
  /-- The device afterwards. -/
  device : DeviceContext

/-- `TtIoctlResetDevice`. -/
def ttIoctlResetDevice (d : DeviceContext) (F : Handle) (io : Io) (i : ResetIn) (env : ResetEnv) :
    DeviceReply :=
  if ttCopyInBuffer io 8 ≠ .success then ⟨.accessViolation, false, d⟩
  else
    match resetFlavor d F env i.flags with
    | none => ⟨.invalidParameter, false, d⟩
    | some (_, d) => ⟨ttCompleteSizedOutBuffer io 8 i.outputSizeBytes, false, d⟩

/-- The requests, with their inputs and the answers of the operating system. `other`
is a request whose handler touches nothing of the state modelled here. -/
inductive Request
  | allocateDmaBuf (io : Io) (i : AllocateDmaBufIn) (env : DmaBufEnv)
  | freeDmaBufEx (io : Io) (i : FreeDmaBufExIn)
  | allocateTlb (io : Io) (size : ℕ)
  | freeTlb (io : Io) (id : ℕ)
  | map (io : Io) (i : MapIn) (env : MapEnv)
  | unmap (io : Io) (userVa reserved : ℕ)
  | pinPages (io : Io) (i : PinPagesIn) (env : PinEnv)
  | unpinPages (io : Io) (i : UnpinPagesIn)
  | lockCtl (io : Io) (i : LockCtlIn) (env : LockEnv)
  | resetDevice (io : Io) (i : ResetIn) (env : ResetEnv)
  | other (nr : ℕ) (status : NtStatus)

/-- The number under which a request passes the gate. -/
def Request.nr : Request → ℕ
  | .allocateDmaBuf .. => 3
  | .freeDmaBufEx .. => 0x104
  | .allocateTlb .. => 11
  | .freeTlb .. => 12
  | .map .. => maxUlong
  | .unmap .. => maxUlong
  | .pinPages .. => 7
  | .unpinPages .. => 10
  | .lockCtl .. => 8
  | .resetDevice .. => 6
  | .other nr _ => nr

/-- The requests `TtEvtIoInCallerContext` handles itself. -/
def Request.inCallerContext : Request → Bool
  | .map .. => true
  | .unmap .. => true
  | .pinPages .. => true
  | .unpinPages .. => true
  | _ => false

/-- The reply of a memory request. -/
def DeviceContext.withMem {α : Type} (d : DeviceContext) (reply : Reply α) : DeviceReply :=
  ⟨reply.status, false, { d with mem := reply.mem }⟩

/-- The handlers. -/
def handle (d : DeviceContext) (F : Handle) (caller : Process) : Request → DeviceReply
  | .allocateDmaBuf io i env =>
      d.withMem (ttIoctlAllocateDmaBuf d.config d.detached d.mem F io i env)
  | .freeDmaBufEx io i => d.withMem (ttIoctlFreeDmaBufEx d.detached d.mem F io i)
  | .allocateTlb io size => d.withMem (ttIoctlAllocateTlb d.config d.mem F io size)
  | .freeTlb io id => d.withMem (ttIoctlFreeTlb d.mem F io id)
  | .map io i env => d.withMem (ttIoctlMap d.config d.mem F io i { env with process := caller })
  | .unmap io userVa reserved => d.withMem (ttIoctlUnmap d.mem F io userVa reserved)
  | .pinPages io i env => d.withMem (ttIoctlPinPages d.config d.detached d.mem F io i env)
  | .unpinPages io i => d.withMem (ttIoctlUnpinPages d.detached d.mem F io i)
  | .lockCtl io i env =>
      let reply := ttIoctlLockCtl d.removed d.locks F io i env
      ⟨reply.status, reply.pended, { d with locks := reply.locks }⟩
  | .resetDevice io i env => ttIoctlResetDevice d F io i env
  | .other _ status => ⟨status, false, d⟩

/-- `TtEvtIoInCallerContext` and `TtEvtIoDeviceControl`: the gate, the test of the
calling process, the handler. -/
def dispatch (d : DeviceContext) (F : Handle) (caller : Process) (r : Request) : DeviceReply :=
  if ttCheckIoGates d F r.nr ≠ .success then ⟨ttCheckIoGates d F r.nr, false, d⟩
  else if r.inCallerContext ∧ d.creatorProcess F ≠ caller then ⟨.accessDenied, false, d⟩
  else handle d F caller r

/-- `TtEvtDeviceFileCreate` of a file object whose context could be set up. -/
def ttEvtDeviceFileCreate (d : DeviceContext) (opener : Process) : DeviceContext :=
  { d with
    openResetGen := Function.update d.openResetGen d.nextFile d.resetGen,
    creatorProcess := Function.update d.creatorProcess d.nextFile opener,
    fileList := d.fileList ++ [d.nextFile],
    nextFile := d.nextFile + 1 }

/-- `TtEvtFileCleanup`. -/
def ttEvtFileCleanup (d : DeviceContext) (F : Handle) : DeviceContext :=
  { d with
    locks := ttLocksReleaseAll d.removed d.locks F,
    fileList := d.fileList.erase F,
    mem := ttMemoryFileCleanup d.detached d.mem F,
    closed := Function.update d.closed F true }

/-- The round of `TtProcessNotify` over the file list of the device. -/
def ttProcessNotify (d : DeviceContext) (process : Process) : DeviceContext :=
  { d with
    mem := (d.fileList.filter fun F => d.creatorProcess F == process).foldl
      (ttMemoryProcessExit d.detached) d.mem }

/-- `TtEvtDeviceSurpriseRemoval`. -/
def ttEvtDeviceSurpriseRemoval (d : DeviceContext) : DeviceContext :=
  let d := { d with detached := true }.zap
  { d with locks := ttLocksWakeWaiters d.removed d.locks }

/-- What can happen to a device. -/
inductive Event
  /-- A handle is opened. -/
  | create (opener : Process)
  /-- A request on a handle. -/
  | request (F : Handle) (caller : Process) (r : Request)
  /-- The last reference to a handle is closed. -/
  | cleanup (F : Handle)
  /-- A process exits. -/
  | processExit (process : Process)
  /-- The device is gone. -/
  | surpriseRemoval
  /-- The framework cancels a pended request. -/
  | cancel (k : ℕ)

/-- One step of the device; `none` is an event that cannot happen. -/
def DeviceContext.next (d : DeviceContext) : Event → Option DeviceContext
  | .create opener => some (ttEvtDeviceFileCreate d opener)
  | .request F caller r => if d.isOpen F then some (dispatch d F caller r).device else none
  | .cleanup F => if d.isOpen F then some (ttEvtFileCleanup d F) else none
  | .processExit process => some (ttProcessNotify d process)
  | .surpriseRemoval => some (ttEvtDeviceSurpriseRemoval d)
  | .cancel k => some { d with locks := cancelWaiter d.locks k }

/-- A request is made on an open handle. -/
theorem DeviceContext.next_request {d d' : DeviceContext} {F : Handle} {caller : Process}
    {r : Request} (h : d.next (.request F caller r) = some d') :
    d.isOpen F = true ∧ (dispatch d F caller r).device = d' := guard_of_eq_some h

/-- An open handle is closed. -/
theorem DeviceContext.next_cleanup {d d' : DeviceContext} {F : Handle}
    (h : d.next (.cleanup F) = some d') : d.isOpen F = true ∧ ttEvtFileCleanup d F = d' :=
  guard_of_eq_some h

/-- The `RESET_DEVICE` requests that bump the generation. -/
def resetBumps (d : DeviceContext) (io : Io) (i : ResetIn) : Bool :=
  decide (ttCopyInBuffer io 8 = .success) && decide (2 ≤ i.flags ∧ i.flags ≤ 5) &&
    ttResetLegacyFlagPermitted d i.flags

/-- Everything a flavor that may bump the generation can do. -/
theorem bumpingReset_cases (d : DeviceContext) (F : Handle) (flags : ℕ) (ok needsHwInit : Bool) :
    (ttResetLegacyFlagPermitted d flags = false ∧
        (bumpingReset d F flags ok needsHwInit).2 = d) ∨
      (ttResetLegacyFlagPermitted d flags = true ∧
        (bumpingReset d F flags ok needsHwInit).2 =
          { (ttBumpResetGen d F).zap with needsHwInit }) := by
  unfold bumpingReset
  cases hpermit : ttResetLegacyFlagPermitted d flags
  · exact .inl ⟨rfl, rfl⟩
  · exact .inr ⟨rfl, rfl⟩

/-- Everything the switch of `RESET_DEVICE` can do. -/
theorem resetFlavor_cases {d d' : DeviceContext} {F : Handle} {env : ResetEnv} {flags : ℕ}
    {ok : Bool} (h : resetFlavor d F env flags = some (ok, d')) :
    (¬(2 ≤ flags ∧ flags ≤ 5 ∧ ttResetLegacyFlagPermitted d flags = true) ∧
        (d' = d ∨ d' = d.zap ∨ d' = { d with needsHwInit := false })) ∨
      ((2 ≤ flags ∧ flags ≤ 5 ∧ ttResetLegacyFlagPermitted d flags = true) ∧
        ∃ needsHwInit, d' = { (ttBumpResetGen d F).zap with needsHwInit }) := by
  have hbump : ∀ flags, 2 ≤ flags ∧ flags ≤ 5 → ∀ ok' hw,
      some (bumpingReset d F flags ok' hw) = some (ok, d') →
      (¬(2 ≤ flags ∧ flags ≤ 5 ∧ ttResetLegacyFlagPermitted d flags = true) ∧
          (d' = d ∨ d' = d.zap ∨ d' = { d with needsHwInit := false })) ∨
        ((2 ≤ flags ∧ flags ≤ 5 ∧ ttResetLegacyFlagPermitted d flags = true) ∧
          ∃ needsHwInit, d' = { (ttBumpResetGen d F).zap with needsHwInit }) := by
    intro flags hflags ok' hw heq
    have hd' : d' = (bumpingReset d F flags ok' hw).2 := by rw [Option.some.inj heq]
    rcases bumpingReset_cases d F flags ok' hw with ⟨hpermit, hres⟩ | ⟨hpermit, hres⟩
    · exact .inl ⟨by simp [hpermit], .inl (hd'.trans hres)⟩
    · exact .inr ⟨⟨hflags.1, hflags.2, hpermit⟩, hw, hd'.trans hres⟩
  unfold resetFlavor at h
  split at h
  · cases h
    exact .inl ⟨by omega, .inl rfl⟩
  · cases h
    exact .inl ⟨by omega, .inr (.inl rfl)⟩
  · exact hbump 2 (by omega) _ _ h
  · exact hbump 3 (by omega) _ _ h
  · exact hbump 4 (by omega) _ _ h
  · exact hbump 5 (by omega) _ _ h
  · split at h
    · cases h
      exact .inl ⟨by omega, .inr (.inr rfl)⟩
    · cases h
      exact .inl ⟨by omega, .inl rfl⟩
  · cases h

/-- Everything `RESET_DEVICE` can do. -/
theorem ttIoctlResetDevice_cases (d : DeviceContext) (F : Handle) (io : Io) (i : ResetIn)
    (env : ResetEnv) :
    let d' := (ttIoctlResetDevice d F io i env).device
    (resetBumps d io i = false ∧ (d' = d ∨ d' = d.zap ∨ d' = { d with needsHwInit := false })) ∨
      (resetBumps d io i = true ∧
        ∃ needsHwInit, d' = { (ttBumpResetGen d F).zap with needsHwInit }) := by
  simp only [ttIoctlResetDevice]
  split
  · rename_i hin
    exact .inl ⟨by simp [resetBumps, hin], .inl rfl⟩
  rename_i hin
  have hin' := not_not.mp hin
  cases hflavor : resetFlavor d F env i.flags with
  | none =>
    refine .inl ⟨?_, .inl rfl⟩
    have hrange : ¬(2 ≤ i.flags ∧ i.flags ≤ 5) := by
      intro hrange
      have hcases : i.flags = 2 ∨ i.flags = 3 ∨ i.flags = 4 ∨ i.flags = 5 := by omega
      rcases hcases with hf | hf | hf | hf <;> rw [hf] at hflavor <;> cases hflavor
    simp [resetBumps, hrange]
  | some res =>
    obtain ⟨ok, d'⟩ := res
    rcases resetFlavor_cases hflavor with ⟨hnot, hd'⟩ | ⟨⟨hlo, hhi, hpermit⟩, hw, hd'⟩
    · refine .inl ⟨?_, hd'⟩
      rw [← Bool.not_eq_true]
      intro hbumps
      simp only [resetBumps, Bool.and_eq_true, decide_eq_true_eq] at hbumps
      exact hnot ⟨hbumps.1.2.1, hbumps.1.2.2, hbumps.2⟩
    · exact .inr ⟨by simp [resetBumps, hin', hlo, hhi, hpermit], hw, hd'⟩

end TtKmd
