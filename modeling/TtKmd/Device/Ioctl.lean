import TtKmd.Device.Window
import TtKmd.Tlb.Registers
import TtKmd.Lib.Bytes

/-!
# Requests as bytes

`DeviceIoControl` hands the driver a buffer with the caller's input, behind which the
system buffer holds whatever was there before, and the length of the output buffer. Here
every handler is a function on these bytes: it takes its structure out of the input, runs
as it does in the models of its state, and writes its output structure to the area behind
the input. The layouts are those of `ttkmd_ioctl.h`.
-/

namespace TtKmd

open Lib

/-- The PCI identity `EvtDevicePrepareHardware` read. -/
structure PciIdentity where
  /-- `VendorId`. -/
  vendorId : ℕ
  /-- `DeviceId`. -/
  deviceId : ℕ
  /-- `BusDevFn`. -/
  busDevFn : ℕ
  /-- `PciDomain`. -/
  pciDomain : ℕ

/-- The driver of one device: everything the requests read and change. -/
structure Driver extends HwWorld where
  /-- The PCI identity. -/
  identity : PciIdentity
  /-- `TelemetryValid`. -/
  telemetryValid : Bool
  /-- The words of `TlbRegs`, by byte offset. -/
  tlbRegs : ℕ → ℕ

/-- What the operating system and the hardware answer to a request. -/
structure DriverEnv where
  /-- The process that makes the request. -/
  caller : Process
  /-- The answers to `ALLOCATE_DMA_BUF`. -/
  dmaBuf : DmaBufEnv
  /-- The answers to `MAP`. -/
  map : MapEnv
  /-- The answers to `PIN_PAGES`. -/
  pin : PinEnv
  /-- The answers to `LOCK_CTL`. -/
  lock : LockEnv
  /-- The answers to `RESET_DEVICE`. -/
  reset : ResetEnv
  /-- `TtBhTagPresent`: the values of the telemetry tags that can be read. -/
  tag : ℕ → Option ℕ

/-- The requests, and the completion of a pended `LOCK_CTL` by the wake loop. -/
inductive IoctlCode
  | getDeviceInfo
  | queryMappings
  | allocateDmaBuf
  | getDriverInfo
  | resetDevice
  | pinPages
  | lockCtl
  | unpinPages
  | allocateTlb
  | freeTlb
  | configureTlb
  | setNocCleanup
  | setPowerState
  | map
  | queryTelemetry
  | lockCtlWoken
  deriving DecidableEq

/-- The buffers of a request. Their lengths are `ULONG`s. -/
structure SystemBuffer where
  /-- The input of the caller. -/
  input : List Byte
  /-- The length of the output buffer. -/
  outputLength : ℕ
  /-- The length of the input is a `ULONG`. -/
  input_le : input.length ≤ maxUlong
  /-- The length of the output buffer is a `ULONG`. -/
  output_le : outputLength ≤ maxUlong

/-- The lengths of the buffers. -/
def SystemBuffer.io (b : SystemBuffer) : Io := ⟨b.input.length, b.outputLength⟩

/-- The system buffer: the input, and then what was there before. -/
def SystemBuffer.bytes (b : SystemBuffer) (prior : Memory) : Memory :=
  fun i => b.input[i]?.getD (prior i)

section Inputs

variable (input : List Byte)

/-- `tenstorrent_allocate_dma_buf_in`. -/
def allocateDmaBufIn : AllocateDmaBufIn :=
  ⟨leField input 0 4, leField input 4 1, (leField input 5 1).testBit 1⟩

/-- `tenstorrent_reset_device_in`. -/
def resetIn : ResetIn := ⟨leField input 0 4, leField input 4 4⟩

/-- `tenstorrent_pin_pages_in`. -/
def pinPagesIn : PinPagesIn :=
  ⟨leField input 0 4, leField input 4 4, leField input 8 8, leField input 16 8⟩

/-- `tenstorrent_lock_ctl_in`. -/
def lockCtlIn : LockCtlIn := ⟨leField input 4 4, leField input 8 1⟩

/-- `tenstorrent_unpin_pages_in`. -/
def unpinPagesIn : UnpinPagesIn := ⟨leField input 0 8, leField input 8 8, leField input 16 8⟩

/-- `tenstorrent_configure_tlb_in`. -/
def configureTlbIn : ConfigureTlbIn where
  id := leField input 0 4
  config :=
    { addr := leField input 8 8
      xEnd := leField input 16 2
      yEnd := leField input 18 2
      xStart := leField input 20 2
      yStart := leField input 22 2
      noc := leField input 24 1
      mcast := leField input 25 1
      ordering := leField input 26 1
      linked := leField input 27 1
      staticVc := leField input 28 1 }

/-- `tenstorrent_set_noc_cleanup`. -/
def nocCleanupIn : NocCleanupIn where
  argsz := leField input 0 4
  flags := leField input 4 4
  enabled := leField input 8 1
  write :=
    { x := leField input 9 1
      y := leField input 10 1
      noc := leField input 11 1
      addr := leField input 16 8
      data := leField input 24 8 }

/-- `tenstorrent_power_state`. -/
def powerStateIn : PowerStateIn where
  argsz := leField input 0 4
  flags := leField input 4 4
  reserved0 := leField input 8 1
  validity := leField input 9 1
  powerFlags := BitVec.ofNat 16 (leField input 10 2)
  powerSettings := fun i => leField input (12 + 2 * i) 2

/-- `tenstorrent_map_in`. -/
def mapIn : MapIn := ⟨leField input 0 8, leField input 8 8⟩

end Inputs

section Outputs

/-- `tenstorrent_get_device_info_out`. -/
def deviceInfoOut (w : Driver) : Memory → List Byte :=
  clearedStruct 20
    [(0, leBytes 4 20), (4, leBytes 2 w.identity.vendorId), (6, leBytes 2 w.identity.deviceId),
      (8, leBytes 2 w.device.subsysVendorId), (10, leBytes 2 w.device.subsysId),
      (12, leBytes 2 w.identity.busDevFn), (14, leBytes 2 28),
      (16, leBytes 2 w.identity.pciDomain)]

/-- `tenstorrent_get_driver_info_out`, with the version of `ttkmd-version.props`. -/
def driverInfoOut : Memory → List Byte :=
  clearedStruct 12
    [(0, leBytes 4 12), (4, leBytes 4 2), (8, leBytes 1 2), (9, leBytes 1 11), (10, leBytes 1 0)]

/-- The entries of `TtIoctlQueryMappings`: the BARs that are there, uncached and combined. -/
def mappingEntries (barLength : ℕ → ℕ) : List (ℕ × ℕ) :=
  ([(0, 1), (2, 3), (4, 5)].filter fun row => barLength row.1 ≠ 0).flatMap
    fun row => [(row.2, barLength row.1), (row.2 + 1, barLength row.1)]

/-- The valid part of the array of `tenstorrent_mapping`. -/
def mappingsOut (barLength : ℕ → ℕ) (stack : Memory) : List Byte :=
  let entries := mappingEntries barLength
  (clearedStruct 144 (entries.zipIdx.flatMap fun e =>
    [(24 * e.2, leBytes 4 e.1.1), (24 * e.2 + 8, leBytes 8 ((e.1.1 - 1) * 2 ^ 36)),
      (24 * e.2 + 16, leBytes 8 e.1.2)]) stack).take (24 * entries.length)

/-- `tenstorrent_allocate_dma_buf_out`. -/
def allocateDmaBufOutBytes (out : AllocateDmaBufOut) : Memory → List Byte :=
  clearedStruct 40
    [(0, leBytes 8 out.physicalAddress), (8, leBytes 8 out.mappingOffset),
      (16, leBytes 4 out.size), (24, leBytes 8 out.nocAddress)]

/-- `tenstorrent_reset_device_out`. -/
def resetOut (ok : Bool) : Memory → List Byte :=
  clearedStruct 8 [(0, leBytes 4 8), (4, leBytes 4 (if ok then 0 else 1))]

/-- `tenstorrent_pin_pages_out_extended`. -/
def pinPagesOutBytes (out : PinPagesOut) : Memory → List Byte :=
  clearedStruct 16 [(0, leBytes 8 out.physicalAddress), (8, leBytes 8 out.nocAddress)]

/-- `tenstorrent_lock_ctl_out`. -/
def lockCtlOut (value : ℕ) : Memory → List Byte := clearedStruct 4 [(0, leBytes 1 value)]

/-- `tenstorrent_allocate_tlb_out`. -/
def allocateTlbOutBytes (out : AllocateTlbOut) : Memory → List Byte :=
  clearedStruct 32
    [(0, leBytes 4 out.id), (8, leBytes 8 out.mmapOffsetUc), (16, leBytes 8 out.mmapOffsetWc)]

/-- `tenstorrent_configure_tlb_out`. -/
def configureTlbOut : Memory → List Byte := clearedStruct 8 []

/-- `tenstorrent_map_out`. -/
def mapOut (userVa : ℕ) : Memory → List Byte := clearedStruct 8 [(0, leBytes 8 userVa)]

/-- A value of `TtIoctlQueryTelemetry` and the limit that is read with it. -/
def telemetryPair (tag : ℕ → Option ℕ) (off valueTag limitTag : ℕ) (value limit : ℕ → ℕ) :
    List (ℕ × List Byte) :=
  match tag valueTag with
  | none => []
  | some raw =>
      (off, leBytes 4 (value raw)) ::
        ((tag limitTag).map fun raw => (off + 4, leBytes 4 (limit raw))).toList

/-- A value of `TtIoctlQueryTelemetry` that two tags make up. -/
def telemetryWide (tag : ℕ → Option ℕ) (off high low : ℕ) : List (ℕ × List Byte) :=
  match tag high, tag low with
  | some hi, some lo => [(off, leBytes 8 (hi * 2 ^ 32 + lo))]
  | _, _ => []

/-- The values of `TtIoctlQueryTelemetry` that are one tag each: offset, tag and bit. -/
def telemetrySingles : List (ℕ × ℕ × ℕ) :=
  [(36, 41, 4), (40, 14, 5), (44, 15, 6), (48, 16, 7), (52, 32, 8), (56, 60, 9), (60, 28, 12)]

/-- `present`. -/
def telemetryPresent (tag : ℕ → Option ℕ) : ℕ :=
  ((([(11, 0), (6, 1), (8, 2), (7, 3)] : List (ℕ × ℕ)) ++ telemetrySingles.map (·.2)).map fun bit =>
      if (tag bit.1).isSome then 2 ^ bit.2 else 0).sum +
    (if (tag 61).isSome && (tag 62).isSome then 2 ^ 10 else 0) +
    if (tag 1).isSome && (tag 2).isSome then 2 ^ 11 else 0

/-- `tenstorrent_query_telemetry_out`. -/
def telemetryOut (tag : ℕ → Option ℕ) : Memory → List Byte :=
  clearedStruct 80
    ((0, leBytes 4 (telemetryPresent tag)) ::
      telemetryPair tag 4 11 56 (· * 1000 / 2 ^ 16) (· * 1000) ++
      telemetryPair tag 12 6 9 id (· / 2 ^ 16) ++
      telemetryPair tag 20 8 55 (· * 1000) (· * 1000) ++
      telemetryPair tag 28 7 64 (· * 1000000) (· * 1000000) ++
      telemetrySingles.filterMap (fun row =>
        (tag row.2.1).map fun raw => (row.1, leBytes 4 raw)) ++
      telemetryWide tag 64 61 62 ++ telemetryWide tag 72 1 2)

end Outputs

/-- The size of the input structure of a request. -/
def IoctlCode.inSize : IoctlCode → ℕ
  | .getDeviceInfo => 4
  | .queryMappings => 8
  | .allocateDmaBuf => 24
  | .getDriverInfo => 4
  | .resetDevice => 8
  | .pinPages => 24
  | .lockCtl => 12
  | .unpinPages => 24
  | .allocateTlb => 16
  | .freeTlb => 4
  | .configureTlb => 40
  | .setNocCleanup => 32
  | .setPowerState => 40
  | .map => 16
  | .queryTelemetry => 0
  | .lockCtlWoken => 12

/-- Where the output area of a request begins; a request without one returns no bytes. -/
def IoctlCode.outOffset : IoctlCode → ℕ
  | .unpinPages => 0
  | .freeTlb => 0
  | .setNocCleanup => 0
  | .setPowerState => 0
  | code => code.inSize

/-- The size of the output area of a request: fixed, or declared in the input. -/
def IoctlCode.declared (input : List Byte) : IoctlCode → ℕ
  | .getDeviceInfo => leField input 0 4
  | .queryMappings => leField input 0 4 * 24
  | .allocateDmaBuf => 40
  | .getDriverInfo => leField input 0 4
  | .resetDevice => leField input 0 4
  | .pinPages => leField input 0 4
  | .lockCtl => 4
  | .unpinPages => 0
  | .allocateTlb => 32
  | .freeTlb => 0
  | .configureTlb => 8
  | .setNocCleanup => 0
  | .setPowerState => 0
  | .map => 8
  | .queryTelemetry => 80
  | .lockCtlWoken => 4

/-- What a handler does but for the bytes of the system buffer. -/
structure Handled where
  /-- The status; meaningless when the request is pended. -/
  status : NtStatus
  /-- The request stays pending. -/
  pended : Bool
  /-- The output structure, over what the stack held. -/
  out : Memory → List Byte
  /-- The driver afterwards. -/
  driver : Driver

namespace Driver

/-- The driver with another device. -/
def setDevice (w : Driver) (device : DeviceContext) : Driver := { w with device }

/-- A request with an output that changes nothing of the driver. -/
def report (w : Driver) (status : NtStatus) (out : Memory → List Byte) : Handled :=
  ⟨status, false, out, w⟩

/-- A memory request. -/
def memory {α : Type} (w : Driver) (reply : Reply α) (out : α → Memory → List Byte) : Handled :=
  ⟨reply.status, false, fun stack => reply.out.elim [] (out · stack),
    w.setDevice { w.device with mem := reply.mem }⟩

/-- `TtIoctlGetDeviceInfo` and `TtIoctlGetDriverInfo`, with the declared size of the output. -/
def infoStatus (io : Io) (declared : ℕ) : NtStatus :=
  if ttCopyInBuffer io 4 ≠ .success then .accessViolation
  else ttCompleteSizedOutBuffer io 4 declared

/-- `TtIoctlQueryMappings`, with the number of entries asked for. -/
def queryMappingsStatus (io : Io) (count : ℕ) : NtStatus :=
  if ttCopyInBuffer io 8 ≠ .success then .accessViolation
  else if count * 24 > maxUlong then .accessViolation
  else ttCompleteSizedOutBuffer io 8 (count * 24)

/-- `TtIoctlQueryTelemetry`. -/
def queryTelemetryStatus (w : Driver) (io : Io) : NtStatus :=
  if !w.device.config.isBlackhole || !w.telemetryValid then .notSupported
  else ttCompleteSizedOutBuffer io 0 80

/-- `TtIoctlSetNocCleanup`. -/
def setNocCleanup (w : Driver) (F : Handle) (io : Io) (i : NocCleanupIn) : Handled :=
  let status := setNocCleanupCheck w.device.config.isBlackhole io i
  ⟨status, false, fun _ => [],
    if status = .success then { w with nocCleanup := w.storedCleanup F i } else w⟩

/-- `TtIoctlSetPowerState`, but for the message it sends. -/
def setPowerState (w : Driver) (F : Handle) (io : Io) (i : PowerStateIn) : Handled :=
  let status := setPowerStateCheck io i
  ⟨status, false, fun _ => [],
    if status = .success then { w with power := w.storedPower F i } else w⟩

/-- `TtIoctlLockCtl`. -/
def lockCtl (w : Driver) (F : Handle) (io : Io) (i : LockCtlIn) (env : LockEnv) : Handled :=
  let reply := ttIoctlLockCtl w.device.removed w.device.locks F io i env
  ⟨reply.status, reply.pended, lockCtlOut reply.value,
    w.setDevice { w.device with locks := reply.locks }⟩

/-- The round of the wake loop for a pended request: it stays pending, or it is the last one
that was completed. -/
def lockCtlWoken (w : Driver) (F : Handle) (io : Io) (i : LockCtlIn) : Handled :=
  let locks := wakeWaiter w.device.removed w.device.locks ⟨F, i.index, io.output⟩
  let completed := (locks.completed.drop w.device.locks.completed.length).head?
  ⟨completed.elim .success (·.2), completed.isNone, lockCtlOut 1,
    w.setDevice { w.device with locks }⟩

/-- `TtIoctlResetDevice`. -/
def resetDevice (w : Driver) (F : Handle) (io : Io) (i : ResetIn) (env : ResetEnv) : Handled :=
  let reply := ttIoctlResetDevice w.device F io i env
  ⟨reply.status, false,
    fun stack => (resetFlavor w.device F env i.flags).elim [] (fun res => resetOut res.1 stack),
    w.setDevice reply.device⟩

/-- `TtIoctlConfigureTlb`. -/
def configureTlb (w : Driver) (F : Handle) (io : Io) (i : ConfigureTlbIn) : Handled :=
  let reply := ttIoctlConfigureTlb w.device.mem w.tlbRegs F io i
  ⟨reply.1, false, configureTlbOut, { w with tlbRegs := reply.2 }⟩

/-- The handlers, on the input of a request. -/
def handled (w : Driver) (F : Handle) (env : DriverEnv) (io : Io) (input : List Byte) :
    IoctlCode → Handled
  | .getDeviceInfo => w.report (infoStatus io (leField input 0 4)) (deviceInfoOut w)
  | .queryMappings =>
      w.report (queryMappingsStatus io (leField input 0 4)) (mappingsOut w.device.config.barLength)
  | .allocateDmaBuf =>
      w.memory (ttIoctlAllocateDmaBuf w.device.config w.device.detached w.device.mem F io
        (allocateDmaBufIn input) env.dmaBuf) allocateDmaBufOutBytes
  | .getDriverInfo => w.report (infoStatus io (leField input 0 4)) driverInfoOut
  | .resetDevice => w.resetDevice F io (resetIn input) env.reset
  | .pinPages =>
      w.memory (ttIoctlPinPages w.device.config w.device.detached w.device.mem F io
        (pinPagesIn input) env.pin) pinPagesOutBytes
  | .lockCtl => w.lockCtl F io (lockCtlIn input) env.lock
  | .unpinPages =>
      w.memory (ttIoctlUnpinPages w.device.detached w.device.mem F io (unpinPagesIn input))
        fun _ _ => []
  | .allocateTlb =>
      w.memory (ttIoctlAllocateTlb w.device.config w.device.mem F io (leField input 0 8))
        allocateTlbOutBytes
  | .freeTlb =>
      w.memory (ttIoctlFreeTlb w.device.mem F io (leField input 0 4)) fun _ _ => []
  | .configureTlb => w.configureTlb F io (configureTlbIn input)
  | .setNocCleanup => w.setNocCleanup F io (nocCleanupIn input)
  | .setPowerState => w.setPowerState F io (powerStateIn input)
  | .map =>
      w.memory (ttIoctlMap w.device.config w.device.mem F io (mapIn input)
        { env.map with process := env.caller }) mapOut
  | .queryTelemetry => w.report (w.queryTelemetryStatus io) (telemetryOut env.tag)
  | .lockCtlWoken => w.lockCtlWoken F io (lockCtlIn input)

end Driver

/-- How a request ends. -/
structure IoctlReply where
  /-- The status; meaningless when the request is pended. -/
  status : NtStatus
  /-- The request stays pending. -/
  pended : Bool
  /-- `Information`. -/
  information : ℕ
  /-- The system buffer. -/
  buffer : Memory
  /-- The driver afterwards. -/
  driver : Driver

/-- The bytes the caller gets back. -/
def IoctlReply.returned (r : IoctlReply) : List Byte :=
  if r.status = .success ∧ r.pended = false then readMemory r.buffer 0 r.information else []

/-- The completion of a request: the output area is cleared and filled when the request
succeeds. The handlers of fixed size that do not clear it fill all of it. -/
def Handled.complete (h : Handled) (code : IoctlCode) (b : SystemBuffer) (prior stack : Memory) :
    IoctlReply :=
  if h.status = .success ∧ h.pended = false then
    ⟨h.status, h.pended, code.outOffset + code.declared b.input,
      fillArea (b.bytes prior) code.outOffset (code.declared b.input) (h.out stack), h.driver⟩
  else ⟨h.status, h.pended, 0, b.bytes prior, h.driver⟩

/-- A handler on the system buffer, over what the buffer and the stack held before. -/
def Driver.serve (w : Driver) (F : Handle) (env : DriverEnv) (code : IoctlCode) (b : SystemBuffer)
    (prior stack : Memory) : IoctlReply :=
  (w.handled F env b.io b.input code).complete code b prior stack

end TtKmd
