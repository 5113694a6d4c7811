import TtKmd.Lib.LockOrder

/-!
# The order of the locks

What every entry point of the driver does to locks, function by function. A check that returns
is `LockCmd.maybe (.leave _)`, a run of such checks is one, and `goto` is the end of a block; a
function that touches no lock is left out. The locks have a rank, which is the order the comment
at `TtProcessNotify` states, completed:

`g_TtDeviceListLock`, `ResetResource`, `PowerLock`, `FileListLock`, the `Lock` of a handle, then
`TlbLock`, `IatuLock`, `LockLock` and `ArcMsgLock`, and `KernelTlbLock` last.
-/

namespace TtKmd

open Lib

/-- The locks of the driver. -/
inductive DriverLock
  /-- `g_TtDeviceListLock`. -/
  | deviceList
  /-- `ResetResource` of a device. -/
  | resetResource (d : ℕ)
  /-- `PowerLock` of a device. -/
  | power (d : ℕ)
  /-- `FileListLock` of a device. -/
  | fileList (d : ℕ)
  /-- `Lock` of a handle of a device. -/
  | file (d F : ℕ)
  /-- `TlbLock` of a device. -/
  | tlb (d : ℕ)
  /-- `IatuLock` of a device. -/
  | iatu (d : ℕ)
  /-- `LockLock` of a device. -/
  | lockLock (d : ℕ)
  /-- `ArcMsgLock` of a device. -/
  | arcMsg (d : ℕ)
  /-- `KernelTlbLock` of a device. -/
  | kernelTlb (d : ℕ)
  deriving DecidableEq

/-- The order of the locks. -/
@[simp] def DriverLock.rank : DriverLock → ℕ
  | .deviceList => 0
  | .resetResource _ => 1
  | .power _ => 2
  | .fileList _ => 3
  | .file _ _ => 4
  | .tlb _ => 5
  | .iatu _ => 5
  | .lockLock _ => 5
  | .arcMsg _ => 5
  | .kernelTlb _ => 6

/-- What a function does to the locks. -/
abbrev LockProgram := LockCmd DriverLock

/-- `WdfWaitLockAcquire`. -/
@[simp] def wdfWaitLockAcquire (l : DriverLock) : LockProgram := .acquire l .exclusive

/-- `WdfWaitLockRelease`. -/
@[simp] def wdfWaitLockRelease (l : DriverLock) : LockProgram := .release l

/-- `TtResetAcquireShared`. -/
@[simp] def ttResetAcquireShared (d : ℕ) : LockProgram := .acquire (.resetResource d) .shared

/-- `TtResetAcquireExclusive`. -/
@[simp] def ttResetAcquireExclusive (d : ℕ) : LockProgram := .acquire (.resetResource d) .exclusive

/-- `TtResetRelease`. -/
@[simp] def ttResetRelease (d : ℕ) : LockProgram := .release (.resetResource d)

section Hardware

/-- `TtBhNocRead32`. -/
def ttBhNocRead32Locks (d : ℕ) : LockProgram :=
  .call (.all [wdfWaitLockAcquire (.kernelTlb d), wdfWaitLockRelease (.kernelTlb d)])

/-- `TtBhNocWrite32` and `TtBhNocWrite`. -/
def ttBhNocWrite32Locks (d : ℕ) : LockProgram :=
  .call (.all [wdfWaitLockAcquire (.kernelTlb d), wdfWaitLockRelease (.kernelTlb d)])

/-- `TtBhCsmRead32`: an address out of range is not read. -/
def ttBhCsmRead32Locks (d : ℕ) : LockProgram :=
  .call (.all [.maybe (.leave 0), ttBhNocRead32Locks d])

/-- `TtBhCsmWrite32`. -/
def ttBhCsmWrite32Locks (d : ℕ) : LockProgram :=
  .call (.all [.maybe (.leave 0), ttBhNocWrite32Locks d])

/-- The loop of a push or pop that polls a pointer: it fails, finds room or an entry, or times
out. -/
def pollLocks (d : ℕ) : LockProgram :=
  .block (.loop (.all [ttBhCsmRead32Locks d, .maybe (.leave 1), .maybe (.leave 0),
    .maybe (.leave 1)]))

/-- `TtBhArcMsgPush`. -/
def ttBhArcMsgPushLocks (d : ℕ) : LockProgram :=
  .call (.all [ttBhCsmRead32Locks d, .maybe (.leave 0), pollLocks d,
    .loop (.all [ttBhCsmWrite32Locks d, .maybe (.leave 0)]), ttBhCsmWrite32Locks d])

/-- `TtBhArcMsgPop`. -/
def ttBhArcMsgPopLocks (d : ℕ) : LockProgram :=
  .call (.all [ttBhCsmRead32Locks d, .maybe (.leave 0), pollLocks d, ttBhCsmRead32Locks d,
    .maybe (.leave 0), .loop (.all [ttBhCsmRead32Locks d, .maybe (.leave 0)]),
    ttBhCsmWrite32Locks d])

/-- `TtBhSendArcMessage`; the outer block ends at `out`. -/
def ttBhSendArcMessageLocks (d : ℕ) : LockProgram :=
  .call (.all [wdfWaitLockAcquire (.arcMsg d),
    .block (.all [
      .block (.loop (.all [ttBhNocRead32Locks d, .maybe (.leave 1), .maybe (.leave 0)])),
      .maybe (.leave 0), ttBhNocRead32Locks d,
      ttBhCsmRead32Locks d, .maybe (.leave 0), ttBhCsmRead32Locks d, .maybe (.leave 0),
      ttBhArcMsgPushLocks d, .maybe (.leave 0), ttBhNocWrite32Locks d,
      ttBhArcMsgPopLocks d, .maybe (.leave 0)]),
    wdfWaitLockRelease (.arcMsg d)])

/-- `TtBhTelemetryProbe`. -/
def ttBhTelemetryProbeLocks (d : ℕ) : LockProgram :=
  .call (.all [ttBhNocRead32Locks d, ttBhNocRead32Locks d, .maybe (.leave 0),
    ttBhNocRead32Locks d, .maybe (.leave 0), ttBhNocRead32Locks d, .loop (ttBhNocRead32Locks d)])

/-- `TtBhReadTelemetryTag` and `TtBhTagPresent`. -/
def ttBhReadTelemetryTagLocks (d : ℕ) : LockProgram :=
  .call (.all [.maybe (.leave 0), ttBhCsmRead32Locks d])

/-- `TtBhSaveResetState`. -/
def ttBhSaveResetStateLocks (d : ℕ) : LockProgram :=
  .call (.all [.maybe (.leave 0), ttBhNocRead32Locks d])

/-- `TtBhRestoreResetState`. -/
def ttBhRestoreResetStateLocks (d : ℕ) : LockProgram :=
  .call (.all [.maybe (.leave 0), ttBhNocRead32Locks d, .maybe (.leave 0), ttBhNocWrite32Locks d])

/-- `TtBhReset`: `ASIC_DMC_RESET` sends two messages, `ASIC_RESET` none. -/
def ttBhResetLocks (d : ℕ) : LockProgram :=
  .call (.maybe (.all [ttBhSendArcMessageLocks d, .maybe (.leave 0), ttBhSendArcMessageLocks d]))

/-- `TtBhInitHardware`. -/
def ttBhInitHardwareLocks (d : ℕ) : LockProgram :=
  .call (.all [ttBhSendArcMessageLocks d, ttBhSendArcMessageLocks d])

/-- `TtIoctlQueryTelemetry`: four values with a limit, seven alone, two of two halves. -/
def ttIoctlQueryTelemetryLocks (d : ℕ) : LockProgram :=
  let tag := ttBhReadTelemetryTagLocks d
  let pair : LockProgram := .all [tag, .maybe tag]
  .call (.all [.maybe (.leave 0), pair, pair, pair, pair, tag, tag, tag, tag, tag, tag, tag,
    pair, pair])

/-- `TtIoctlDebugReadTelemetry`. -/
def ttIoctlDebugReadTelemetryLocks (d : ℕ) : LockProgram :=
  .call (.all [.maybe (.leave 0), ttBhReadTelemetryTagLocks d])

/-- `TtIoctlDebugArcMsg`. -/
def ttIoctlDebugArcMsgLocks (d : ℕ) : LockProgram :=
  .call (.all [.maybe (.leave 0), ttBhSendArcMessageLocks d])

variable (d : ℕ)

/-- `TtBhNocRead32` takes the last lock of the order. -/
theorem neutral_ttBhNocRead32 : (ttBhNocRead32Locks d).Neutral DriverLock.rank 6 := by
  intro labels post h hh
  simp (disch := (simp <;> omega)) [ttBhNocRead32Locks]

/-- `TtBhNocWrite32` takes the last lock of the order. -/
theorem neutral_ttBhNocWrite32 : (ttBhNocWrite32Locks d).Neutral DriverLock.rank 6 :=
  neutral_ttBhNocRead32 d

/-- `TtBhCsmRead32` takes the lock of the read. -/
theorem neutral_ttBhCsmRead32 : (ttBhCsmRead32Locks d).Neutral DriverLock.rank 6 := by
  intro labels post h hh
  simp [ttBhCsmRead32Locks, (neutral_ttBhNocRead32 d).wp hh]

/-- `TtBhCsmWrite32` takes the lock of the write. -/
theorem neutral_ttBhCsmWrite32 : (ttBhCsmWrite32Locks d).Neutral DriverLock.rank 6 :=
  neutral_ttBhCsmRead32 d

/-- `TtBhArcMsgPush` takes the locks of its accesses. -/
theorem neutral_ttBhArcMsgPush : (ttBhArcMsgPushLocks d).Neutral DriverLock.rank 6 := by
  intro labels post h hh
  simp [ttBhArcMsgPushLocks, pollLocks, (neutral_ttBhCsmRead32 d).wp hh,
    (neutral_ttBhCsmWrite32 d).wp hh]

/-- `TtBhArcMsgPop` takes the locks of its accesses. -/
theorem neutral_ttBhArcMsgPop : (ttBhArcMsgPopLocks d).Neutral DriverLock.rank 6 := by
  intro labels post h hh
  simp [ttBhArcMsgPopLocks, pollLocks, (neutral_ttBhCsmRead32 d).wp hh,
    (neutral_ttBhCsmWrite32 d).wp hh]

/-- `TtBhSendArcMessage` takes `ArcMsgLock`, and the lock of the accesses inside. -/
theorem neutral_ttBhSendArcMessage : (ttBhSendArcMessageLocks d).Neutral DriverLock.rank 5 := by
  intro labels post h hh
  have hheld : height DriverLock.rank ((.arcMsg d, .exclusive) :: h) ≤ 6 := by
    simp
    omega
  simp (disch := (simp <;> omega)) [ttBhSendArcMessageLocks, (neutral_ttBhNocRead32 d).wp hheld,
    (neutral_ttBhNocWrite32 d).wp hheld, (neutral_ttBhCsmRead32 d).wp hheld,
    (neutral_ttBhArcMsgPush d).wp hheld, (neutral_ttBhArcMsgPop d).wp hheld]

/-- `TtBhTelemetryProbe` takes the lock of its reads. -/
theorem neutral_ttBhTelemetryProbe : (ttBhTelemetryProbeLocks d).Neutral DriverLock.rank 6 := by
  intro labels post h hh
  simp [ttBhTelemetryProbeLocks, (neutral_ttBhNocRead32 d).wp hh]

/-- `TtBhReadTelemetryTag` takes the lock of its read. -/
theorem neutral_ttBhReadTelemetryTag : (ttBhReadTelemetryTagLocks d).Neutral DriverLock.rank 6 := by
  intro labels post h hh
  simp [ttBhReadTelemetryTagLocks, (neutral_ttBhCsmRead32 d).wp hh]

/-- `TtBhSaveResetState` takes the lock of its read. -/
theorem neutral_ttBhSaveResetState : (ttBhSaveResetStateLocks d).Neutral DriverLock.rank 6 := by
  intro labels post h hh
  simp [ttBhSaveResetStateLocks, (neutral_ttBhNocRead32 d).wp hh]

/-- `TtBhRestoreResetState` takes the locks of its accesses. -/
theorem neutral_ttBhRestoreResetState :
    (ttBhRestoreResetStateLocks d).Neutral DriverLock.rank 6 := by
  intro labels post h hh
  simp [ttBhRestoreResetStateLocks, (neutral_ttBhNocRead32 d).wp hh,
    (neutral_ttBhNocWrite32 d).wp hh]

/-- `TtBhReset` takes the locks of its messages. -/
theorem neutral_ttBhReset : (ttBhResetLocks d).Neutral DriverLock.rank 5 := by
  intro labels post h hh
  simp [ttBhResetLocks, (neutral_ttBhSendArcMessage d).wp hh]

/-- `TtBhInitHardware` takes the locks of its messages. -/
theorem neutral_ttBhInitHardware : (ttBhInitHardwareLocks d).Neutral DriverLock.rank 5 := by
  intro labels post h hh
  simp [ttBhInitHardwareLocks, (neutral_ttBhSendArcMessage d).wp hh]

/-- `TtIoctlQueryTelemetry` takes the lock of its reads. -/
theorem neutral_ttIoctlQueryTelemetry :
    (ttIoctlQueryTelemetryLocks d).Neutral DriverLock.rank 6 := by
  intro labels post h hh
  simp [ttIoctlQueryTelemetryLocks, (neutral_ttBhReadTelemetryTag d).wp hh]

/-- `TtIoctlDebugReadTelemetry` takes the lock of its read. -/
theorem neutral_ttIoctlDebugReadTelemetry :
    (ttIoctlDebugReadTelemetryLocks d).Neutral DriverLock.rank 6 := by
  intro labels post h hh
  simp [ttIoctlDebugReadTelemetryLocks, (neutral_ttBhReadTelemetryTag d).wp hh]

/-- `TtIoctlDebugArcMsg` takes the locks of its message. -/
theorem neutral_ttIoctlDebugArcMsg : (ttIoctlDebugArcMsgLocks d).Neutral DriverLock.rank 5 := by
  intro labels post h hh
  simp [ttIoctlDebugArcMsgLocks, (neutral_ttBhSendArcMessage d).wp hh]

end Hardware

section Power

/-- `TtPowerAggregate`. -/
def ttPowerAggregateLocks (d : ℕ) : LockProgram :=
  .call (.all [wdfWaitLockAcquire (.power d), wdfWaitLockAcquire (.fileList d),
    wdfWaitLockRelease (.fileList d), wdfWaitLockRelease (.power d),
    .maybe (ttBhSendArcMessageLocks d)])

/-- `TtIoctlSetPowerState`. -/
def ttIoctlSetPowerStateLocks (d F : ℕ) : LockProgram :=
  .call (.all [.maybe (.leave 0), wdfWaitLockAcquire (.file d F), wdfWaitLockRelease (.file d F),
    ttPowerAggregateLocks d])

/-- `TtIoctlSetNocCleanup`. -/
def ttIoctlSetNocCleanupLocks (d F : ℕ) : LockProgram :=
  .call (.all [.maybe (.leave 0), wdfWaitLockAcquire (.file d F), wdfWaitLockRelease (.file d F)])

/-- `TtIoctlDebugGetAggPower`. -/
def ttIoctlDebugGetAggPowerLocks (d : ℕ) : LockProgram :=
  .call (.all [wdfWaitLockAcquire (.power d), wdfWaitLockRelease (.power d)])

variable (d F : ℕ)

/-- `TtPowerAggregate` takes `PowerLock` and inside `FileListLock`, and has released both when it
sends. -/
theorem neutral_ttPowerAggregate : (ttPowerAggregateLocks d).Neutral DriverLock.rank 2 := by
  intro labels post h hh
  simp (disch := (simp <;> omega)) [ttPowerAggregateLocks,
    (neutral_ttBhSendArcMessage d).wp (hh.trans (by decide))]

/-- `TtIoctlSetPowerState` has released the lock of the handle when it aggregates. -/
theorem neutral_ttIoctlSetPowerState :
    (ttIoctlSetPowerStateLocks d F).Neutral DriverLock.rank 2 := by
  intro labels post h hh
  simp (disch := (simp <;> omega)) [ttIoctlSetPowerStateLocks, (neutral_ttPowerAggregate d).wp hh]

/-- `TtIoctlSetNocCleanup` takes the lock of the handle. -/
theorem neutral_ttIoctlSetNocCleanup :
    (ttIoctlSetNocCleanupLocks d F).Neutral DriverLock.rank 4 := by
  intro labels post h hh
  simp (disch := (simp <;> omega)) [ttIoctlSetNocCleanupLocks]

/-- `TtIoctlDebugGetAggPower` takes `PowerLock`. -/
theorem neutral_ttIoctlDebugGetAggPower :
    (ttIoctlDebugGetAggPowerLocks d).Neutral DriverLock.rank 2 := by
  intro labels post h hh
  simp (disch := (simp <;> omega)) [ttIoctlDebugGetAggPowerLocks]

end Power

section Reset

/-- `TtLocksReleaseAll`; `TtLocksWakeWaiters` takes no lock, its callers hold `LockLock`. -/
def ttLocksReleaseAllLocks (d : ℕ) : LockProgram :=
  .call (.all [wdfWaitLockAcquire (.lockLock d), wdfWaitLockRelease (.lockLock d)])

/-- `TtIoctlLockCtl`: the paths that release inside of the switch are a wait that cannot be
pended, a wait that is, and flags out of range. -/
def ttIoctlLockCtlLocks (d : ℕ) : LockProgram :=
  .call (.all [.maybe (.leave 0), wdfWaitLockAcquire (.lockLock d),
    .cases .skip [
      .all [wdfWaitLockRelease (.lockLock d), .leave 0],
      .all [wdfWaitLockRelease (.lockLock d), .leave 0],
      .all [wdfWaitLockRelease (.lockLock d), .leave 0]],
    wdfWaitLockRelease (.lockLock d)])

/-- `TtResetZapMappings`. -/
def ttResetZapMappingsLocks (d : ℕ) : LockProgram :=
  .call (.all [wdfWaitLockAcquire (.fileList d),
    .loop (.pick fun F =>
      .all [wdfWaitLockAcquire (.file d F), wdfWaitLockRelease (.file d F)]),
    wdfWaitLockRelease (.fileList d)])

/-- `TtBumpResetGen`. -/
def ttBumpResetGenLocks (d : ℕ) : LockProgram :=
  .call (.all [wdfWaitLockAcquire (.lockLock d), wdfWaitLockRelease (.lockLock d)])

/-- `TtIoctlResetDevice`: the seven flavors, and flags out of range. -/
def ttIoctlResetDeviceLocks (d : ℕ) : LockProgram :=
  .call (.all [.maybe (.leave 0),
    .cases (.maybe (.all [ttBhRestoreResetStateLocks d, ttBhInitHardwareLocks d])) [
      ttResetZapMappingsLocks d,
      .maybe (.all [ttBumpResetGenLocks d, ttResetZapMappingsLocks d]),
      .all [ttBumpResetGenLocks d, ttResetZapMappingsLocks d],
      .maybe (.all [ttBumpResetGenLocks d, ttResetZapMappingsLocks d, .maybe (ttBhResetLocks d)]),
      .maybe (.all [ttBhRestoreResetStateLocks d, ttBhInitHardwareLocks d,
        .maybe (ttBhTelemetryProbeLocks d)]),
      .leave 0]])

variable (d : ℕ)

/-- `TtLocksReleaseAll` takes `LockLock`. -/
theorem neutral_ttLocksReleaseAll : (ttLocksReleaseAllLocks d).Neutral DriverLock.rank 5 := by
  intro labels post h hh
  simp (disch := (simp <;> omega)) [ttLocksReleaseAllLocks]

/-- `TtIoctlLockCtl` releases `LockLock` on each of its paths. -/
theorem neutral_ttIoctlLockCtl : (ttIoctlLockCtlLocks d).Neutral DriverLock.rank 5 := by
  intro labels post h hh
  simp (disch := (simp <;> omega)) [ttIoctlLockCtlLocks]

/-- `TtResetZapMappings` takes `FileListLock`, and inside the locks of the handles one after the
other. -/
theorem neutral_ttResetZapMappings : (ttResetZapMappingsLocks d).Neutral DriverLock.rank 3 := by
  intro labels post h hh
  simp (disch := (simp <;> omega)) [ttResetZapMappingsLocks]

/-- `TtBumpResetGen` takes `LockLock`. -/
theorem neutral_ttBumpResetGen : (ttBumpResetGenLocks d).Neutral DriverLock.rank 5 :=
  neutral_ttLocksReleaseAll d

/-- `TtIoctlResetDevice` takes the locks of the functions it calls, one after the other. -/
theorem neutral_ttIoctlResetDevice : (ttIoctlResetDeviceLocks d).Neutral DriverLock.rank 3 := by
  intro labels post h hh
  have h5 : height DriverLock.rank h ≤ 5 := hh.trans (by decide)
  have h6 : height DriverLock.rank h ≤ 6 := hh.trans (by decide)
  simp [ttIoctlResetDeviceLocks, (neutral_ttBhRestoreResetState d).wp h6,
    (neutral_ttBhInitHardware d).wp h5, (neutral_ttResetZapMappings d).wp hh,
    (neutral_ttBumpResetGen d).wp h5, (neutral_ttBhReset d).wp h5,
    (neutral_ttBhTelemetryProbe d).wp h6]

end Reset

section Memory

/-- `TtIoctlAllocateTlb`: the window is given back when the output fails. -/
def ttIoctlAllocateTlbLocks (d : ℕ) : LockProgram :=
  .call (.all [.maybe (.leave 0), wdfWaitLockAcquire (.tlb d), wdfWaitLockRelease (.tlb d),
    .maybe (.leave 0),
    .maybe (.all [wdfWaitLockAcquire (.tlb d), wdfWaitLockRelease (.tlb d)])])

/-- `TtIoctlFreeTlb`; the block ends at `unlock`. -/
def ttIoctlFreeTlbLocks (d F : ℕ) : LockProgram :=
  .call (.all [.maybe (.leave 0), wdfWaitLockAcquire (.file d F), wdfWaitLockAcquire (.tlb d),
    .block (.all [.maybe (.leave 0), .loop (.maybe (.leave 0))]),
    wdfWaitLockRelease (.tlb d), wdfWaitLockRelease (.file d F)])

/-- `TtIoctlConfigureTlb`: a window of another handle is refused inside of the lock. -/
def ttIoctlConfigureTlbLocks (d : ℕ) : LockProgram :=
  .call (.all [.maybe (.leave 0), wdfWaitLockAcquire (.tlb d),
    .maybe (.all [wdfWaitLockRelease (.tlb d), .leave 0]), wdfWaitLockRelease (.tlb d)])

/-- `TtSetupNocDma`: no region, or one that cannot be programmed, is refused inside of the
lock. -/
def ttSetupNocDmaLocks (d : ℕ) : LockProgram :=
  .call (.all [.maybe (.leave 0), wdfWaitLockAcquire (.iatu d),
    .maybe (.all [wdfWaitLockRelease (.iatu d), .leave 0]),
    .maybe (.all [wdfWaitLockRelease (.iatu d), .leave 0]), wdfWaitLockRelease (.iatu d)])

/-- `TtTeardownNocDma`. -/
def ttTeardownNocDmaLocks (d : ℕ) : LockProgram :=
  .call (.all [.maybe (.leave 0), wdfWaitLockAcquire (.iatu d), wdfWaitLockRelease (.iatu d)])

/-- `TtDmaBufDestroy`. -/
def ttDmaBufDestroyLocks (d : ℕ) : LockProgram := .call (ttTeardownNocDmaLocks d)

/-- `TtIoctlAllocateDmaBuf`; the outer block ends at `unlock`, the inner one at `fail`. -/
def ttIoctlAllocateDmaBufLocks (d F : ℕ) : LockProgram :=
  .call (.all [.maybe (.leave 0), wdfWaitLockAcquire (.file d F),
    .block (.all [.maybe (.leave 0),
      .block (.all [.maybe (.leave 0), .maybe (.all [ttSetupNocDmaLocks d, .maybe (.leave 0)]),
        .maybe (.leave 0), wdfWaitLockRelease (.file d F), .leave 2]),
      ttTeardownNocDmaLocks d]),
    wdfWaitLockRelease (.file d F)])

/-- `TtIoctlFreeDmaBufEx`; the block ends at `unlock`. -/
def ttIoctlFreeDmaBufExLocks (d F : ℕ) : LockProgram :=
  .call (.all [.maybe (.leave 0), wdfWaitLockAcquire (.file d F),
    .block (.all [.maybe (.leave 0), .loop (.maybe (.leave 0)), .loop (.maybe (.leave 0)),
      ttDmaBufDestroyLocks d]),
    wdfWaitLockRelease (.file d F)])

/-- `TtResolveMapTarget`: only a window takes a lock. -/
def ttResolveMapTargetLocks (d : ℕ) : LockProgram :=
  .call (.maybe (.all [wdfWaitLockAcquire (.tlb d),
    .maybe (.all [wdfWaitLockRelease (.tlb d), .leave 0]), wdfWaitLockRelease (.tlb d)]))

/-- `TtIoctlMap`; the outer block ends at `unlock`, the inner one at `fail`. -/
def ttIoctlMapLocks (d F : ℕ) : LockProgram :=
  .call (.all [.maybe (.leave 0), wdfWaitLockAcquire (.file d F),
    .block (.all [ttResolveMapTargetLocks d, .maybe (.leave 0),
      .block (.all [.maybe (.leave 0), wdfWaitLockRelease (.file d F), .leave 2])]),
    wdfWaitLockRelease (.file d F)])

/-- `TtIoctlUnmap`. -/
def ttIoctlUnmapLocks (d F : ℕ) : LockProgram :=
  .call (.all [.maybe (.leave 0), wdfWaitLockAcquire (.file d F), wdfWaitLockRelease (.file d F)])

/-- `TtIoctlPinPages`; the outer block ends at `unlock`, the inner one at `fail`. -/
def ttIoctlPinPagesLocks (d F : ℕ) : LockProgram :=
  .call (.all [.maybe (.leave 0), wdfWaitLockAcquire (.file d F),
    .block (.all [.loop (.maybe (.leave 0)), .maybe (.leave 0),
      .block (.all [.maybe (.leave 0), .maybe (.all [ttSetupNocDmaLocks d, .maybe (.leave 0)]),
        .maybe (.leave 0), wdfWaitLockRelease (.file d F), .leave 2]),
      ttTeardownNocDmaLocks d]),
    wdfWaitLockRelease (.file d F)])

/-- `TtDestroyPinning`. -/
def ttDestroyPinningLocks (d : ℕ) : LockProgram := .call (ttTeardownNocDmaLocks d)

/-- `TtMemoryProcessExit`. -/
def ttMemoryProcessExitLocks (d F : ℕ) : LockProgram :=
  .call (.all [.maybe (.leave 0), wdfWaitLockAcquire (.file d F),
    .loop (ttDestroyPinningLocks d), wdfWaitLockRelease (.file d F)])

/-- `TtIoctlUnpinPages`: the region is torn down after the lock. -/
def ttIoctlUnpinPagesLocks (d F : ℕ) : LockProgram :=
  .call (.all [.maybe (.leave 0), wdfWaitLockAcquire (.file d F), wdfWaitLockRelease (.file d F),
    .maybe (.leave 0), ttDestroyPinningLocks d])

/-- `TtMemoryFileCleanup`. -/
def ttMemoryFileCleanupLocks (d F : ℕ) : LockProgram :=
  .call (.all [.maybe (.leave 0), wdfWaitLockAcquire (.file d F),
    .loop (ttDestroyPinningLocks d), .loop (.maybe (ttDmaBufDestroyLocks d)),
    wdfWaitLockRelease (.file d F), wdfWaitLockAcquire (.tlb d), wdfWaitLockRelease (.tlb d)])

variable (d F : ℕ)

/-- `TtIoctlAllocateTlb` takes `TlbLock`, once or twice. -/
theorem neutral_ttIoctlAllocateTlb : (ttIoctlAllocateTlbLocks d).Neutral DriverLock.rank 5 := by
  intro labels post h hh
  simp (disch := (simp <;> omega)) [ttIoctlAllocateTlbLocks]

/-- `TtIoctlFreeTlb` takes the lock of the handle, and inside `TlbLock`. -/
theorem neutral_ttIoctlFreeTlb : (ttIoctlFreeTlbLocks d F).Neutral DriverLock.rank 4 := by
  intro labels post h hh
  simp (disch := (simp <;> omega)) [ttIoctlFreeTlbLocks]

/-- `TtIoctlConfigureTlb` takes `TlbLock`. -/
theorem neutral_ttIoctlConfigureTlb : (ttIoctlConfigureTlbLocks d).Neutral DriverLock.rank 5 := by
  intro labels post h hh
  simp (disch := (simp <;> omega)) [ttIoctlConfigureTlbLocks]

/-- `TtSetupNocDma` releases `IatuLock` on each of its paths. -/
theorem neutral_ttSetupNocDma : (ttSetupNocDmaLocks d).Neutral DriverLock.rank 5 := by
  intro labels post h hh
  simp (disch := (simp <;> omega)) [ttSetupNocDmaLocks]

/-- `TtTeardownNocDma` takes `IatuLock`. -/
theorem neutral_ttTeardownNocDma : (ttTeardownNocDmaLocks d).Neutral DriverLock.rank 5 := by
  intro labels post h hh
  simp (disch := (simp <;> omega)) [ttTeardownNocDmaLocks]

/-- `TtDmaBufDestroy` takes the lock of the teardown. -/
theorem neutral_ttDmaBufDestroy : (ttDmaBufDestroyLocks d).Neutral DriverLock.rank 5 := by
  intro labels post h hh
  simp [ttDmaBufDestroyLocks, (neutral_ttTeardownNocDma d).wp hh]

/-- `TtDestroyPinning` takes the lock of the teardown. -/
theorem neutral_ttDestroyPinning : (ttDestroyPinningLocks d).Neutral DriverLock.rank 5 :=
  neutral_ttDmaBufDestroy d

/-- `TtIoctlAllocateDmaBuf` takes the lock of the handle and inside `IatuLock`, and releases the
lock of the handle once on each of its paths. -/
theorem neutral_ttIoctlAllocateDmaBuf :
    (ttIoctlAllocateDmaBufLocks d F).Neutral DriverLock.rank 4 := by
  intro labels post h hh
  have hheld : height DriverLock.rank ((.file d F, .exclusive) :: h) ≤ 5 := by
    simp
    omega
  simp (disch := (simp <;> omega)) [ttIoctlAllocateDmaBufLocks,
    (neutral_ttSetupNocDma d).wp hheld, (neutral_ttTeardownNocDma d).wp hheld]

/-- `TtIoctlFreeDmaBufEx` takes the lock of the handle, and inside `IatuLock`. -/
theorem neutral_ttIoctlFreeDmaBufEx :
    (ttIoctlFreeDmaBufExLocks d F).Neutral DriverLock.rank 4 := by
  intro labels post h hh
  have hheld : height DriverLock.rank ((.file d F, .exclusive) :: h) ≤ 5 := by
    simp
    omega
  simp (disch := (simp <;> omega)) [ttIoctlFreeDmaBufExLocks, (neutral_ttDmaBufDestroy d).wp hheld]

/-- `TtResolveMapTarget` takes `TlbLock`. -/
theorem neutral_ttResolveMapTarget : (ttResolveMapTargetLocks d).Neutral DriverLock.rank 5 := by
  intro labels post h hh
  simp (disch := (simp <;> omega)) [ttResolveMapTargetLocks]

/-- `TtIoctlMap` takes the lock of the handle and inside `TlbLock`, and releases the lock of the
handle once on each of its paths. -/
theorem neutral_ttIoctlMap : (ttIoctlMapLocks d F).Neutral DriverLock.rank 4 := by
  intro labels post h hh
  have hheld : height DriverLock.rank ((.file d F, .exclusive) :: h) ≤ 5 := by
    simp
    omega
  simp (disch := (simp <;> omega)) [ttIoctlMapLocks, (neutral_ttResolveMapTarget d).wp hheld]

/-- `TtIoctlUnmap` takes the lock of the handle. -/
theorem neutral_ttIoctlUnmap : (ttIoctlUnmapLocks d F).Neutral DriverLock.rank 4 :=
  neutral_ttIoctlSetNocCleanup d F

/-- `TtIoctlPinPages` takes the lock of the handle and inside `IatuLock`, and releases the lock
of the handle once on each of its paths. -/
theorem neutral_ttIoctlPinPages : (ttIoctlPinPagesLocks d F).Neutral DriverLock.rank 4 := by
  intro labels post h hh
  have hheld : height DriverLock.rank ((.file d F, .exclusive) :: h) ≤ 5 := by
    simp
    omega
  simp (disch := (simp <;> omega)) [ttIoctlPinPagesLocks, (neutral_ttSetupNocDma d).wp hheld,
    (neutral_ttTeardownNocDma d).wp hheld]

/-- `TtMemoryProcessExit` takes the lock of the handle, and inside `IatuLock`. -/
theorem neutral_ttMemoryProcessExit :
    (ttMemoryProcessExitLocks d F).Neutral DriverLock.rank 4 := by
  intro labels post h hh
  have hheld : height DriverLock.rank ((.file d F, .exclusive) :: h) ≤ 5 := by
    simp
    omega
  simp (disch := (simp <;> omega)) [ttMemoryProcessExitLocks, (neutral_ttDestroyPinning d).wp hheld]

/-- `TtIoctlUnpinPages` takes the lock of the handle and after it `IatuLock`. -/
theorem neutral_ttIoctlUnpinPages : (ttIoctlUnpinPagesLocks d F).Neutral DriverLock.rank 4 := by
  intro labels post h hh
  simp (disch := (simp <;> omega)) [ttIoctlUnpinPagesLocks,
    (neutral_ttDestroyPinning d).wp (hh.trans (by decide))]

/-- `TtMemoryFileCleanup` takes the lock of the handle and inside `IatuLock`, and after it
`TlbLock`. -/
theorem neutral_ttMemoryFileCleanup :
    (ttMemoryFileCleanupLocks d F).Neutral DriverLock.rank 4 := by
  intro labels post h hh
  have hheld : height DriverLock.rank ((.file d F, .exclusive) :: h) ≤ 5 := by
    simp
    omega
  simp (disch := (simp <;> omega)) [ttMemoryFileCleanupLocks,
    (neutral_ttDestroyPinning d).wp hheld, (neutral_ttDmaBufDestroy d).wp hheld]

end Memory

section EntryPoints

/-- The handlers of `TtEvtIoDeviceControl` by the number of the request. A private number is
served for one control code; another code with the number, and every other number, is refused.
A request that is pended leaves the function here. -/
def dispatchLocks (d F : ℕ) : ℕ → LockProgram
  | 3 => ttIoctlAllocateDmaBufLocks d F
  | 6 => ttIoctlResetDeviceLocks d
  | 8 => .all [ttIoctlLockCtlLocks d, .maybe (.all [ttResetRelease d, .leave 1])]
  | 11 => ttIoctlAllocateTlbLocks d
  | 12 => ttIoctlFreeTlbLocks d F
  | 13 => ttIoctlConfigureTlbLocks d
  | 14 => ttIoctlSetNocCleanupLocks d F
  | 15 => ttIoctlSetPowerStateLocks d F
  | 0x102 => .maybe (ttIoctlQueryTelemetryLocks d)
  | 0x104 => .maybe (ttIoctlFreeDmaBufExLocks d F)
  | 0x200 => .maybe (ttIoctlDebugReadTelemetryLocks d)
  | 0x201 => .maybe (ttIoctlDebugArcMsgLocks d)
  | 0x202 => .maybe (ttIoctlDebugGetAggPowerLocks d)
  | _ => .skip

/-- `TtEvtIoDeviceControl`; the block ends at `release`. -/
def ttEvtIoDeviceControlLocks (d F nr : ℕ) : LockProgram :=
  .call (.all [if nr = 6 then ttResetAcquireExclusive d else ttResetAcquireShared d,
    .block (.all [.maybe (.leave 0), dispatchLocks d F nr]), ttResetRelease d])

/-- The requests of the caller's context. -/
inductive CallerRequest
  /-- `MAP`. -/
  | map
  /-- `UNMAP`. -/
  | unmap
  /-- `PIN_PAGES`. -/
  | pinPages
  /-- `UNPIN_PAGES`. -/
  | unpinPages

/-- The handler of a request of the caller's context. -/
def CallerRequest.locks (d F : ℕ) : CallerRequest → LockProgram
  | .map => ttIoctlMapLocks d F
  | .unmap => ttIoctlUnmapLocks d F
  | .pinPages => ttIoctlPinPagesLocks d F
  | .unpinPages => ttIoctlUnpinPagesLocks d F

/-- `TtEvtIoInCallerContext`: other requests are forwarded to the queue. -/
def ttEvtIoInCallerContextLocks (d F : ℕ) (r : CallerRequest) : LockProgram :=
  .call (.all [.maybe (.leave 0), ttResetAcquireShared d, .maybe (r.locks d F), ttResetRelease d])

/-- `TtEvtDeviceFileCreate`. -/
def ttEvtDeviceFileCreateLocks (d : ℕ) : LockProgram :=
  .call (.maybe (.all [wdfWaitLockAcquire (.fileList d), wdfWaitLockRelease (.fileList d),
    ttPowerAggregateLocks d]))

/-- `TtEvtFileCleanup`. -/
def ttEvtFileCleanupLocks (d F : ℕ) : LockProgram :=
  .call (.all [ttResetAcquireShared d, .maybe (ttBhNocWrite32Locks d), ttLocksReleaseAllLocks d,
    .maybe (.all [wdfWaitLockAcquire (.fileList d), wdfWaitLockRelease (.fileList d)]),
    ttMemoryFileCleanupLocks d F, ttResetRelease d, .maybe (ttPowerAggregateLocks d)])

/-- A round of `TtProcessNotify`: the handles of a device one after the other. -/
def processNotifyRoundLocks (d : ℕ) : LockProgram :=
  .all [ttResetAcquireShared d, wdfWaitLockAcquire (.fileList d),
    .loop (.pick fun F => .maybe (ttMemoryProcessExitLocks d F)),
    wdfWaitLockRelease (.fileList d), ttResetRelease d]

/-- `TtProcessNotify`: the devices one after the other. -/
def ttProcessNotifyLocks : LockProgram :=
  .call (.all [.maybe (.leave 0), wdfWaitLockAcquire .deviceList,
    .loop (.pick processNotifyRoundLocks), wdfWaitLockRelease .deviceList])

/-- `TtDeviceListRegister` and `TtDeviceListUnregister`, of `TtEvtDeviceAdd` and of
`TtEvtDeviceContextCleanup`. -/
def ttDeviceListRegisterLocks : LockProgram :=
  .call (.all [wdfWaitLockAcquire .deviceList, wdfWaitLockRelease .deviceList])

/-- `TtEvtDevicePrepareHardware`: a Blackhole whose BARs are mapped. -/
def ttEvtDevicePrepareHardwareLocks (d : ℕ) : LockProgram :=
  .call (.maybe (.all [.maybe (.leave 0), ttBhInitHardwareLocks d, ttBhSaveResetStateLocks d,
    ttBhTelemetryProbeLocks d, ttPowerAggregateLocks d]))

/-- `TtEvtDeviceD0Entry`. -/
def ttEvtDeviceD0EntryLocks (d : ℕ) : LockProgram := .call (.maybe (ttBhInitHardwareLocks d))

/-- `TtEvtDeviceD0Exit`. -/
def ttEvtDeviceD0ExitLocks (d : ℕ) : LockProgram := .call (.maybe (ttBhSendArcMessageLocks d))

/-- `TtEvtDeviceSurpriseRemoval`. -/
def ttEvtDeviceSurpriseRemovalLocks (d : ℕ) : LockProgram :=
  .call (.all [ttResetAcquireExclusive d, ttResetZapMappingsLocks d, ttResetRelease d,
    wdfWaitLockAcquire (.lockLock d), wdfWaitLockRelease (.lockLock d)])

/-- The entry points that take a lock. -/
inductive EntryPoint
  /-- `TtEvtIoDeviceControl`. -/
  | ioDeviceControl (d F nr : ℕ)
  /-- `TtEvtIoInCallerContext`. -/
  | ioInCallerContext (d F : ℕ) (r : CallerRequest)
  /-- `TtEvtDeviceFileCreate`. -/
  | fileCreate (d : ℕ)
  /-- `TtEvtFileCleanup`. -/
  | fileCleanup (d F : ℕ)
  /-- `TtProcessNotify`. -/
  | processNotify
  /-- `TtEvtDeviceAdd`. -/
  | deviceAdd
  /-- `TtEvtDeviceContextCleanup`. -/
  | contextCleanup
  /-- `TtEvtDevicePrepareHardware`. -/
  | prepareHardware (d : ℕ)
  /-- `TtEvtDeviceD0Entry`. -/
  | d0Entry (d : ℕ)
  /-- `TtEvtDeviceD0Exit`. -/
  | d0Exit (d : ℕ)
  /-- `TtEvtDeviceSurpriseRemoval`. -/
  | surpriseRemoval (d : ℕ)

/-- What an entry point does to the locks. -/
def EntryPoint.locks : EntryPoint → LockProgram
  | .ioDeviceControl d F nr => ttEvtIoDeviceControlLocks d F nr
  | .ioInCallerContext d F r => ttEvtIoInCallerContextLocks d F r
  | .fileCreate d => ttEvtDeviceFileCreateLocks d
  | .fileCleanup d F => ttEvtFileCleanupLocks d F
  | .processNotify => ttProcessNotifyLocks
  | .deviceAdd => ttDeviceListRegisterLocks
  | .contextCleanup => ttDeviceListRegisterLocks
  | .prepareHardware d => ttEvtDevicePrepareHardwareLocks d
  | .d0Entry d => ttEvtDeviceD0EntryLocks d
  | .d0Exit d => ttEvtDeviceD0ExitLocks d
  | .surpriseRemoval d => ttEvtDeviceSurpriseRemovalLocks d

variable (d F nr : ℕ)

/-- The handler of a request releases what it takes; a pended request leaves the dispatcher
without `ResetResource`. -/
theorem wp_dispatch {labels : ℕ → Held DriverLock → Prop} {post ret : Held DriverLock → Prop}
    {h : Held DriverLock} {mode : LockMode}
    (hheld : height DriverLock.rank ((.resetResource d, mode) :: h) ≤ 2)
    (hpost : post ((.resetResource d, mode) :: h)) (hret : ret h) :
    (dispatchLocks d F nr).wp DriverLock.rank (pushLabel post (pushLabel ret labels)) post
      ((.resetResource d, mode) :: h) := by
  have h3 := hheld.trans (by decide : 2 ≤ 3)
  have h4 := hheld.trans (by decide : 2 ≤ 4)
  have h5 := hheld.trans (by decide : 2 ≤ 5)
  have h6 := hheld.trans (by decide : 2 ≤ 6)
  unfold dispatchLocks
  split
  · exact ((neutral_ttIoctlAllocateDmaBuf d F).wp h4).mpr hpost
  · exact ((neutral_ttIoctlResetDevice d).wp h3).mpr hpost
  · simp only [LockCmd.wp_all_cons, (neutral_ttIoctlLockCtl d).wp h5]
    exact ⟨by simpa using hret, hpost⟩
  · exact ((neutral_ttIoctlAllocateTlb d).wp h5).mpr hpost
  · exact ((neutral_ttIoctlFreeTlb d F).wp h4).mpr hpost
  · exact ((neutral_ttIoctlConfigureTlb d).wp h5).mpr hpost
  · exact ((neutral_ttIoctlSetNocCleanup d F).wp h4).mpr hpost
  · exact ((neutral_ttIoctlSetPowerState d F).wp hheld).mpr hpost
  · exact ⟨((neutral_ttIoctlQueryTelemetry d).wp h6).mpr hpost, hpost⟩
  · exact ⟨((neutral_ttIoctlFreeDmaBufEx d F).wp h4).mpr hpost, hpost⟩
  · exact ⟨((neutral_ttIoctlDebugReadTelemetry d).wp h6).mpr hpost, hpost⟩
  · exact ⟨((neutral_ttIoctlDebugArcMsg d).wp h5).mpr hpost, hpost⟩
  · exact ⟨((neutral_ttIoctlDebugGetAggPower d).wp hheld).mpr hpost, hpost⟩
  · exact hpost

/-- `TtEvtIoDeviceControl` releases `ResetResource` on each of its paths. -/
theorem wp_ttEvtIoDeviceControl :
    (ttEvtIoDeviceControlLocks d F nr).wp DriverLock.rank (fun _ _ => False) (fun h => h = [])
      [] := by
  have hbody : ∀ mode,
      (LockCmd.call (.all [.acquire (.resetResource d) mode,
        .block (.all [.maybe (.leave 0), dispatchLocks d F nr]), ttResetRelease d])).wp
        DriverLock.rank (fun _ _ => False) (fun h => h = []) [] := by
    intro mode
    rw [LockCmd.wp_call, LockCmd.wp_all_cons, LockCmd.wp_acquire (by simp), LockCmd.wp_all_cons,
      LockCmd.wp_block, LockCmd.wp_all_cons, LockCmd.wp_maybe, LockCmd.wp_leave_zero,
      LockCmd.wp_all_cons]
    have hrelease : (LockCmd.all [ttResetRelease d]).wp DriverLock.rank
        (pushLabel (fun h => h = [] ∧ h = []) fun _ _ => False) (fun h => h = [] ∧ h = [])
        [(.resetResource d, mode)] := by simp
    exact ⟨hrelease, wp_dispatch d F nr (by simp) hrelease ⟨rfl, rfl⟩⟩
  unfold ttEvtIoDeviceControlLocks
  split
  · exact hbody .exclusive
  · exact hbody .shared

/-- The handlers of the caller's context release what they take. -/
theorem CallerRequest.neutral (r : CallerRequest) :
    (r.locks d F).Neutral DriverLock.rank 4 := by
  cases r with
  | map => exact neutral_ttIoctlMap d F
  | unmap => exact neutral_ttIoctlUnmap d F
  | pinPages => exact neutral_ttIoctlPinPages d F
  | unpinPages => exact neutral_ttIoctlUnpinPages d F

/-- `TtEvtIoInCallerContext` takes `ResetResource`, and inside the locks of the handler. -/
theorem neutral_ttEvtIoInCallerContext (r : CallerRequest) :
    (ttEvtIoInCallerContextLocks d F r).Neutral DriverLock.rank 1 := by
  intro labels post h hh
  have hheld : height DriverLock.rank ((.resetResource d, .shared) :: h) ≤ 4 := by
    simp
    omega
  simp (disch := (simp <;> omega)) [ttEvtIoInCallerContextLocks, (r.neutral d F).wp hheld]

/-- `TtEvtDeviceFileCreate` has released `FileListLock` when it aggregates. -/
theorem neutral_ttEvtDeviceFileCreate :
    (ttEvtDeviceFileCreateLocks d).Neutral DriverLock.rank 2 := by
  intro labels post h hh
  simp (disch := (simp <;> omega)) [ttEvtDeviceFileCreateLocks, (neutral_ttPowerAggregate d).wp hh]

/-- `TtEvtFileCleanup` takes `ResetResource`, and inside its other locks one after the other; it
has released it when it aggregates. -/
theorem neutral_ttEvtFileCleanup : (ttEvtFileCleanupLocks d F).Neutral DriverLock.rank 1 := by
  intro labels post h hh
  have h2 : height DriverLock.rank ((.resetResource d, .shared) :: h) ≤ 2 := by
    simp
    omega
  simp (disch := (simp <;> omega)) [ttEvtFileCleanupLocks,
    (neutral_ttBhNocWrite32 d).wp (h2.trans (by decide)),
    (neutral_ttLocksReleaseAll d).wp (h2.trans (by decide)),
    (neutral_ttMemoryFileCleanup d F).wp (h2.trans (by decide)),
    (neutral_ttPowerAggregate d).wp (hh.trans (by decide))]

/-- A round of `TtProcessNotify` takes the locks of one device, and of one handle at a time. -/
theorem neutral_processNotifyRound : (processNotifyRoundLocks d).Neutral DriverLock.rank 1 := by
  intro labels post h hh
  have hexit : ∀ F labels post, (ttMemoryProcessExitLocks d F).wp DriverLock.rank labels post
      ((.fileList d, .exclusive) :: (.resetResource d, .shared) :: h) ↔
        post ((.fileList d, .exclusive) :: (.resetResource d, .shared) :: h) := by
    intro F labels post
    refine (neutral_ttMemoryProcessExit d F).wp ?_
    simp
    omega
  simp (disch := (simp <;> omega)) [processNotifyRoundLocks, hexit]

/-- `TtProcessNotify` takes the locks of one device at a time. -/
theorem neutral_ttProcessNotify : ttProcessNotifyLocks.Neutral DriverLock.rank 0 := by
  intro labels post h hh
  have hround : ∀ d labels post, (processNotifyRoundLocks d).wp DriverLock.rank labels post
      ((.deviceList, .exclusive) :: h) ↔ post ((.deviceList, .exclusive) :: h) := by
    intro d labels post
    refine (neutral_processNotifyRound d).wp ?_
    simp
    omega
  simp (disch := (simp <;> omega)) [ttProcessNotifyLocks, hround]

/-- The list of the devices has a lock of its own. -/
theorem neutral_ttDeviceListRegister : ttDeviceListRegisterLocks.Neutral DriverLock.rank 0 := by
  intro labels post h hh
  simp (disch := (simp <;> omega)) [ttDeviceListRegisterLocks]

/-- `TtEvtDevicePrepareHardware` takes the locks of the functions it calls. -/
theorem neutral_ttEvtDevicePrepareHardware :
    (ttEvtDevicePrepareHardwareLocks d).Neutral DriverLock.rank 2 := by
  intro labels post h hh
  simp [ttEvtDevicePrepareHardwareLocks,
    (neutral_ttBhInitHardware d).wp (hh.trans (by decide)),
    (neutral_ttBhSaveResetState d).wp (hh.trans (by decide)),
    (neutral_ttBhTelemetryProbe d).wp (hh.trans (by decide)), (neutral_ttPowerAggregate d).wp hh]

/-- `TtEvtDeviceD0Entry` takes the locks of its messages. -/
theorem neutral_ttEvtDeviceD0Entry : (ttEvtDeviceD0EntryLocks d).Neutral DriverLock.rank 5 := by
  intro labels post h hh
  simp [ttEvtDeviceD0EntryLocks, (neutral_ttBhInitHardware d).wp hh]

/-- `TtEvtDeviceD0Exit` takes the locks of its message. -/
theorem neutral_ttEvtDeviceD0Exit : (ttEvtDeviceD0ExitLocks d).Neutral DriverLock.rank 5 := by
  intro labels post h hh
  simp [ttEvtDeviceD0ExitLocks, (neutral_ttBhSendArcMessage d).wp hh]

/-- `TtEvtDeviceSurpriseRemoval` takes `ResetResource` for the zap, and after it `LockLock`. -/
theorem neutral_ttEvtDeviceSurpriseRemoval :
    (ttEvtDeviceSurpriseRemovalLocks d).Neutral DriverLock.rank 1 := by
  intro labels post h hh
  have hheld : height DriverLock.rank ((.resetResource d, .exclusive) :: h) ≤ 3 := by
    simp
    omega
  simp (disch := (simp <;> omega)) [ttEvtDeviceSurpriseRemovalLocks,
    (neutral_ttResetZapMappings d).wp hheld]

/-- Every entry point keeps the order of the locks, and returns without a lock. -/
theorem EntryPoint.wp_locks (e : EntryPoint) :
    e.locks.wp DriverLock.rank (fun _ _ => False) (fun h => h = []) [] := by
  cases e with
  | ioDeviceControl d F nr => exact wp_ttEvtIoDeviceControl d F nr
  | ioInCallerContext d F r =>
    exact ((neutral_ttEvtIoInCallerContext d F r).wp (by simp)).mpr rfl
  | fileCreate d => exact ((neutral_ttEvtDeviceFileCreate d).wp (by simp)).mpr rfl
  | fileCleanup d F => exact ((neutral_ttEvtFileCleanup d F).wp (by simp)).mpr rfl
  | processNotify => exact (neutral_ttProcessNotify.wp (by simp)).mpr rfl
  | deviceAdd => exact (neutral_ttDeviceListRegister.wp (by simp)).mpr rfl
  | contextCleanup => exact (neutral_ttDeviceListRegister.wp (by simp)).mpr rfl
  | prepareHardware d => exact ((neutral_ttEvtDevicePrepareHardware d).wp (by simp)).mpr rfl
  | d0Entry d => exact ((neutral_ttEvtDeviceD0Entry d).wp (by simp)).mpr rfl
  | d0Exit d => exact ((neutral_ttEvtDeviceD0Exit d).wp (by simp)).mpr rfl
  | surpriseRemoval d => exact ((neutral_ttEvtDeviceSurpriseRemoval d).wp (by simp)).mpr rfl

end EntryPoints

/-- In every interleaving of entry points, of any number of threads, devices and handles: the
wait-for graph of the threads has no cycle, and neither has that of the locks; a thread that is
before a lock does not hold it, in either mode; a thread holds what it is about to release, every
function returns with the locks it was called with, and a thread that is in no entry point holds
none. Where threads wait, one of them waits only for threads that do not. -/
theorem driver_locks_ordered {T : Type*} [DecidableEq T] {w : LockWorld T DriverLock}
    (hreach : Reachable (partialGraph (LockWorld.next EntryPoint.locks)) .idle w) :
    (∀ t, ¬ Relation.TransGen w.Waits t t) ∧
      (∀ l, ¬ Relation.TransGen w.Nests l l) ∧
      (∀ t l mode k, w.stack t = .run (.acquire l mode) :: k → ∀ mode', (l, mode') ∉ w.held t) ∧
      (∀ t l k, w.stack t = .run (.release l) :: k → ∃ mode, (l, mode) ∈ w.held t) ∧
      (∀ t saved k, w.stack t = .ret saved :: k → w.held t = saved) ∧
      (∀ t, w.stack t = [] → w.held t = []) ∧
      (w.waiters ≠ [] → ∃ t l mode, (t, l, mode) ∈ w.waiters ∧
        ∀ u, w.Waits t u → ∀ l' mode', (u, l', mode') ∉ w.waiters) := by
  have h := LockWorld.Ordered.of_reachable EntryPoint.wp_locks hreach
  exact ⟨h.acyclic, h.acyclic_locks, fun _ _ _ _ => h.not_held, fun _ _ _ => h.held_release,
    fun _ _ _ => h.held_ret, fun _ => h.held_idle, h.exists_front⟩

/-- A surprise removal waits for the owner of `ResetResource`, and a close of another handle
behind it. -/
def removalBehindClose : List (LockEvent (Fin 3) EntryPoint) :=
  [.enter 0 (.fileCleanup 0 0), .advance 0 0, .advance 0 0, .wait 0, .grant 0,
   .enter 1 (.surpriseRemoval 0), .advance 1 0, .advance 1 0, .wait 1,
   .enter 2 (.fileCleanup 0 1), .advance 2 0, .advance 2 0, .wait 2]

/-- The removal waits for the close and the other close for the removal, and there is no cycle. -/
theorem driver_locks_ordered_removalBehindClose :
    ∃ w : LockWorld (Fin 3) DriverLock,
      Reachable (partialGraph (LockWorld.next EntryPoint.locks)) .idle w ∧
      w.Waits 1 0 ∧ w.Waits 2 1 ∧ ∀ t, ¬ Relation.TransGen w.Waits t t := by
  obtain ⟨w, hrun, howners, hwaiters⟩ : ∃ w : LockWorld (Fin 3) DriverLock,
      runList (LockWorld.next EntryPoint.locks) .idle removalBehindClose = some w ∧
        w.owners = [(0, .resetResource 0, .shared)] ∧
        w.waiters = [(1, .resetResource 0, .exclusive), (2, .resetResource 0, .shared)] :=
    ⟨_, rfl, rfl, rfl⟩
  have hreach : Reachable (partialGraph (LockWorld.next EntryPoint.locks)) .idle w :=
    ⟨_, run_of_runList hrun⟩
  refine ⟨w, hreach, ⟨.resetResource 0, .exclusive, ?_, .inl ⟨.shared, ?_, rfl⟩⟩,
    ⟨.resetResource 0, .shared, ?_, .inr ⟨.exclusive, ?_, ?_⟩⟩, (driver_locks_ordered hreach).1⟩
  · simp [hwaiters]
  · simp [howners]
  · simp [hwaiters]
  · simp [hwaiters]
  · rw [hwaiters]
    decide

end TtKmd
