import TtKmd.Device.Buffers

/-!
# The compatibility shim

`tt_ioctl` has one pointer where `DeviceIoControl` has two buffers with their lengths, and
takes the length from a table. The driver takes the size of the output area from the
argument itself. This file compares the two: a request through the shim is the request with
the whole buffer of the caller exactly when the entry of the table covers the area that the
argument declares, or the driver refuses the argument in every state.
-/

namespace TtKmd

open Lib

/-- The requests of `tt_ioctl`, by their numbers. -/
def IoctlCode.nr : IoctlCode → Option ℕ
  | .getDeviceInfo => some 0
  | .queryMappings => some 2
  | .allocateDmaBuf => some 3
  | .getDriverInfo => some 5
  | .resetDevice => some 6
  | .pinPages => some 7
  | .lockCtl => some 8
  | .unpinPages => some 10
  | .allocateTlb => some 11
  | .freeTlb => some 12
  | .configureTlb => some 13
  | .setNocCleanup => some 14
  | .setPowerState => some 15
  | .map => none
  | .queryTelemetry => none
  | .lockCtlWoken => none

/-- `tt_ioctl_size`, of an argument that is not null. -/
def ttIoctlSize (arg : Memory) : ℕ → ℕ
  | 0 => 24
  | 2 => u32 (8 + u32 (leValue (readMemory arg 0 4) * 24))
  | 3 => 64
  | 5 => 16
  | 6 => 16
  | 7 => 32
  | 8 => 16
  | 10 => 24
  | 11 => 48
  | 12 => 4
  | 13 => 48
  | 14 => 32
  | 15 => 40
  | _ => 0

/-- The entries of the table are `DWORD`s. -/
theorem ttIoctlSize_le (arg : Memory) (nr : ℕ) : ttIoctlSize arg nr ≤ maxUlong := by
  unfold ttIoctlSize maxUlong u32
  split <;> omega

/-- How a call ends. -/
structure CallResult where
  /-- The status of the request. -/
  status : NtStatus
  /-- The call waits. -/
  pended : Bool
  /-- The argument afterwards. -/
  arg : Memory
  /-- The driver afterwards. -/
  driver : Driver

/-- The argument with the returned bytes at its front. -/
def writeBack (arg : Memory) (returned : List Byte) : Memory := copyMemory arg 0 returned

/-- The refusals of a request in front of its handler: the gate, and for the requests that are
served in the context of the caller the test of the process. -/
def Driver.refusal (w : Driver) (F : Handle) (caller : Process) (code : IoctlCode) : NtStatus :=
  if ttCheckIoGates w.device F (code.nr.getD maxUlong) ≠ .success then
    ttCheckIoGates w.device F (code.nr.getD maxUlong)
  else if (code = .pinPages ∨ code = .unpinPages) ∧ w.device.creatorProcess F ≠ caller then
    .accessDenied
  else .success

/-- The argument as the input and as the output of a request. -/
def argBuffer (arg : Memory) (size : ℕ) (h : size ≤ maxUlong) : SystemBuffer where
  input := readMemory arg 0 size
  outputLength := size
  input_le := by rwa [length_readMemory]
  output_le := h

/-- `DeviceIoControl` with one buffer as input and output. -/
def Driver.deviceIoControl (w : Driver) (F : Handle) (env : DriverEnv) (code : IoctlCode)
    (arg : Memory) (size : ℕ) (h : size ≤ maxUlong) (prior stack : Memory) : CallResult :=
  if w.refusal F env.caller code ≠ .success then
    ⟨w.refusal F env.caller code, false, arg, w⟩
  else
    let reply := w.serve F env code (argBuffer arg size h) prior stack
    ⟨reply.status, reply.pended, writeBack arg reply.returned, reply.driver⟩

/-- `tt_ioctl` with the number of a request of the driver. -/
def Driver.ttIoctl (w : Driver) (F : Handle) (env : DriverEnv) (code : IoctlCode) (arg : Memory)
    (prior stack : Memory) : CallResult :=
  w.deviceIoControl F env code arg (ttIoctlSize arg (code.nr.getD 0)) (ttIoctlSize_le _ _) prior
    stack

/-- A waiting request as the driver treats it: what counts is whether its output fits. -/
def LockRequest.seen (q : LockRequest) : LockRequest := { q with output := min q.output 16 }

/-- The locks with the waiting requests as the driver treats them. -/
def LockState.seen (s : LockState) : LockState :=
  { s with lockWaitQueue := s.lockWaitQueue.map LockRequest.seen }

/-- The driver with its waiting requests as it treats them. -/
def Driver.seen (w : Driver) : Driver :=
  w.setDevice { w.device with locks := w.device.locks.seen }

/-- Two calls end alike, and leave the driver alike. -/
structure SameCall (a b : CallResult) : Prop where
  /-- The status. -/
  status : a.status = b.status
  /-- The call waits. -/
  pended : a.pended = b.pended
  /-- The bytes that are returned. -/
  arg : a.arg = b.arg
  /-- The driver. -/
  driver : a.driver.seen = b.driver.seen

/-- A call through the shim is the call with the whole buffer. -/
def PassesThrough (code : IoctlCode) (arg : Memory) (length : ℕ) (h : length ≤ maxUlong) : Prop :=
  ∀ (w : Driver) (F : Handle) (env : DriverEnv) (prior stack prior' stack' : Memory),
    SameCall (w.ttIoctl F env code arg prior stack)
      (w.deviceIoControl F env code arg length h prior' stack')

/-- The argument as a list of bytes. -/
def argBytes (arg : Memory) : List Byte := readMemory arg 0 40

/-- The declared output is one the table has room for. -/
def TableCovers (code : IoctlCode) (arg : Memory) : Prop :=
  (code = .getDeviceInfo → leField (argBytes arg) 0 4 ≤ 20) ∧
    (code = .getDriverInfo → leField (argBytes arg) 0 4 ≤ 12) ∧
    (code = .resetDevice → leField (argBytes arg) 0 4 ≤ 8) ∧
    (code = .pinPages → leField (argBytes arg) 0 4 ≤ 8)

/-- The argument is refused in every state: a flavor that does not exist, or the flags, the
address or the size of a pinning. -/
def RefusedAnyway (code : IoctlCode) (arg : Memory) : Prop :=
  (code = .resetDevice ∧ 6 < (resetIn (argBytes arg)).flags) ∨
    (code = .pinPages ∧ pinPagesCheck ⟨24, 0⟩ (pinPagesIn (argBytes arg)) ≠ .success)

section Handlers

variable {w : Driver} {F : Handle} {env : DriverEnv} {code : IoctlCode} {input input' : List Byte}

/-- A handler reads its input structure only. -/
theorem handled_input (io : Io)
    (h : ∀ off size, off + size ≤ code.inSize → leField input off size = leField input' off size) :
    w.handled F env io input code = w.handled F env io input' code := by
  cases code with
  | getDeviceInfo =>
    unfold Driver.handled
    rw [h 0 4 (by decide)]
  | queryMappings =>
    unfold Driver.handled
    rw [h 0 4 (by decide)]
  | allocateDmaBuf =>
    have hin : allocateDmaBufIn input = allocateDmaBufIn input' := by
      unfold allocateDmaBufIn
      rw [h 0 4 (by decide), h 4 1 (by decide), h 5 1 (by decide)]
    unfold Driver.handled
    rw [hin]
  | getDriverInfo =>
    unfold Driver.handled
    rw [h 0 4 (by decide)]
  | resetDevice =>
    have hin : resetIn input = resetIn input' := by
      unfold resetIn
      rw [h 0 4 (by decide), h 4 4 (by decide)]
    unfold Driver.handled
    rw [hin]
  | pinPages =>
    have hin : pinPagesIn input = pinPagesIn input' := by
      unfold pinPagesIn
      rw [h 0 4 (by decide), h 4 4 (by decide), h 8 8 (by decide), h 16 8 (by decide)]
    unfold Driver.handled
    rw [hin]
  | lockCtl =>
    have hin : lockCtlIn input = lockCtlIn input' := by
      unfold lockCtlIn
      rw [h 4 4 (by decide), h 8 1 (by decide)]
    unfold Driver.handled
    rw [hin]
  | unpinPages =>
    have hin : unpinPagesIn input = unpinPagesIn input' := by
      unfold unpinPagesIn
      rw [h 0 8 (by decide), h 8 8 (by decide), h 16 8 (by decide)]
    unfold Driver.handled
    rw [hin]
  | allocateTlb =>
    unfold Driver.handled
    rw [h 0 8 (by decide)]
  | freeTlb =>
    unfold Driver.handled
    rw [h 0 4 (by decide)]
  | configureTlb =>
    have hin : configureTlbIn input = configureTlbIn input' := by
      unfold configureTlbIn
      rw [h 0 4 (by decide), h 8 8 (by decide), h 16 2 (by decide), h 18 2 (by decide),
        h 20 2 (by decide), h 22 2 (by decide), h 24 1 (by decide), h 25 1 (by decide),
        h 26 1 (by decide), h 27 1 (by decide), h 28 1 (by decide)]
    unfold Driver.handled
    rw [hin]
  | setNocCleanup =>
    have hin : nocCleanupIn input = nocCleanupIn input' := by
      unfold nocCleanupIn
      rw [h 0 4 (by decide), h 4 4 (by decide), h 8 1 (by decide), h 9 1 (by decide),
        h 10 1 (by decide), h 11 1 (by decide), h 16 8 (by decide), h 24 8 (by decide)]
    unfold Driver.handled
    rw [hin]
  | setPowerState =>
    have hsettings : ∀ i : Fin 14, leField input (12 + 2 * i) 2 = leField input' (12 + 2 * i) 2 :=
      fun i => h _ _ (show 12 + 2 * (i : ℕ) + 2 ≤ 40 by omega)
    have hin : powerStateIn input = powerStateIn input' := by
      unfold powerStateIn
      rw [h 0 4 (by decide), h 4 4 (by decide), h 8 1 (by decide), h 9 1 (by decide),
        h 10 2 (by decide), funext hsettings]
    unfold Driver.handled
    rw [hin]
  | map =>
    have hin : mapIn input = mapIn input' := by
      unfold mapIn
      rw [h 0 8 (by decide), h 8 8 (by decide)]
    unfold Driver.handled
    rw [hin]
  | queryTelemetry => rfl
  | lockCtlWoken =>
    have hin : lockCtlIn input = lockCtlIn input' := by
      unfold lockCtlIn
      rw [h 4 4 (by decide), h 8 1 (by decide)]
    unfold Driver.handled
    rw [hin]

/-- Buffers that fit are as good as any. -/
theorem handled_fits {io : Io} (hcode : code ≠ .lockCtl ∧ code ≠ .lockCtlWoken)
    (hin : code.inSize ≤ io.input) (hout : code.room input ≤ io.output) :
    w.handled F env io input code =
      w.handled F env ⟨code.inSize, code.room input⟩ input code := by
  have hcopy : ttCopyInBuffer io code.inSize =
      ttCopyInBuffer ⟨code.inSize, code.room input⟩ code.inSize :=
    (ttCopyInBuffer_iff.mpr hin).trans (ttCopyInBuffer_iff.mpr (le_refl code.inSize)).symm
  have hroom : ttCompleteSizedOutBuffer io code.outOffset (code.declared input) =
      ttCompleteSizedOutBuffer ⟨code.inSize, code.room input⟩ code.outOffset
        (code.declared input) :=
    (ttCompleteSizedOutBuffer_iff.mpr hout).trans
      (ttCompleteSizedOutBuffer_iff.mpr (le_refl (code.room input))).symm
  cases code with
  | getDeviceInfo =>
    refine congrArg (w.report · (deviceInfoOut w)) ?_
    unfold Driver.infoStatus
    exact congrArg₂ (fun copied done =>
      if copied ≠ NtStatus.success then .accessViolation else done) hcopy hroom
  | queryMappings =>
    refine congrArg (w.report · (mappingsOut w.device.config.barLength)) ?_
    unfold Driver.queryMappingsStatus
    exact congrArg₂ (fun copied done => if copied ≠ NtStatus.success then .accessViolation
      else if leField input 0 4 * 24 > maxUlong then .accessViolation else done) hcopy hroom
  | allocateDmaBuf =>
    refine congrArg (w.memory · allocateDmaBufOutBytes) ?_
    unfold ttIoctlAllocateDmaBuf allocateDmaBufReserved
    simp only [IoctlCode.inSize, IoctlCode.outOffset, IoctlCode.declared] at hcopy hroom
    rw [hcopy]
    simp only [hroom]
    rfl
  | getDriverInfo =>
    refine congrArg (w.report · driverInfoOut) ?_
    unfold Driver.infoStatus
    exact congrArg₂ (fun copied done =>
      if copied ≠ NtStatus.success then .accessViolation else done) hcopy hroom
  | resetDevice =>
    simp only [IoctlCode.inSize, IoctlCode.outOffset, IoctlCode.declared] at hcopy hroom
    unfold Driver.handled Driver.resetDevice ttIoctlResetDevice
    simp only [resetIn, hcopy, hroom]
    rfl
  | pinPages =>
    refine congrArg (w.memory · pinPagesOutBytes) ?_
    simp only [IoctlCode.inSize, IoctlCode.outOffset, IoctlCode.declared] at hcopy hroom
    unfold ttIoctlPinPages pinPagesCheck pinPagesLocked
    simp only [pinPagesIn, hcopy, hroom]
    rfl
  | unpinPages =>
    refine congrArg (w.memory · fun _ _ => []) ?_
    unfold ttIoctlUnpinPages unpinPagesCheck
    simp only [IoctlCode.inSize] at hcopy
    rw [hcopy]
    rfl
  | allocateTlb =>
    refine congrArg (w.memory · allocateTlbOutBytes) ?_
    simp only [IoctlCode.inSize, IoctlCode.outOffset, IoctlCode.declared] at hcopy hroom
    unfold ttIoctlAllocateTlb allocateTlbCheck
    simp only [hcopy, hroom]
    rfl
  | freeTlb =>
    refine congrArg (w.memory · fun _ _ => []) ?_
    unfold ttIoctlFreeTlb
    simp only [IoctlCode.inSize] at hcopy
    rw [hcopy]
    rfl
  | configureTlb =>
    simp only [IoctlCode.inSize, IoctlCode.outOffset, IoctlCode.declared] at hcopy hroom
    unfold Driver.handled Driver.configureTlb ttIoctlConfigureTlb configureTlbCheck
    simp only [hcopy, hroom]
    rfl
  | setNocCleanup =>
    simp only [IoctlCode.inSize] at hcopy
    unfold Driver.handled Driver.setNocCleanup setNocCleanupCheck
    simp only [hcopy]
    rfl
  | setPowerState =>
    simp only [IoctlCode.inSize] at hcopy
    unfold Driver.handled Driver.setPowerState setPowerStateCheck
    simp only [hcopy]
    rfl
  | map =>
    refine congrArg (w.memory · mapOut) ?_
    simp only [IoctlCode.inSize, IoctlCode.outOffset, IoctlCode.declared] at hcopy hroom
    unfold ttIoctlMap
    simp only [hcopy, hroom]
    rfl
  | queryTelemetry =>
    refine congrArg (w.report · (telemetryOut env.tag)) ?_
    unfold Driver.queryTelemetryStatus
    exact congrArg (fun done => if (!w.device.config.isBlackhole || !w.telemetryValid) = true then
      NtStatus.notSupported else done) hroom
  | lockCtl => exact absurd rfl hcode.1
  | lockCtlWoken => exact absurd rfl hcode.2

/-- `LOCK_CTL` with other buffers that fit does the same, or it waits with the length of its
output buffer. -/
theorem lockCtl_fits (removed : Handle → Bool) (s : LockState) (F : Handle) (i : LockCtlIn)
    (env : LockEnv) {io io' : Io} (hin : 12 ≤ io.input ∧ 12 ≤ io'.input)
    (hout : 16 ≤ io.output ∧ 16 ≤ io'.output) :
    ttIoctlLockCtl removed s F io i env = ttIoctlLockCtl removed s F io' i env ∨
      (ttIoctlLockCtl removed s F io i env = ⟨.success, true, 0, { s with
          lockWaitQueue := s.lockWaitQueue ++ [⟨F, i.index, io.output⟩] }⟩ ∧
        ttIoctlLockCtl removed s F io' i env = ⟨.success, true, 0, { s with
          lockWaitQueue := s.lockWaitQueue ++ [⟨F, i.index, io'.output⟩] }⟩) := by
  have hcomplete : ∀ s value, LockReply.complete io s value = LockReply.complete io' s value := by
    intro s value
    have hroom : ttCompleteSizedOutBuffer io 12 4 = ttCompleteSizedOutBuffer io' 12 4 :=
      (ttCompleteSizedOutBuffer_iff.mpr hout.1).trans (ttCompleteSizedOutBuffer_iff.mpr hout.2).symm
    unfold LockReply.complete
    rw [hroom]
  unfold ttIoctlLockCtl
  simp only [ttCopyInBuffer_iff.mpr hin.1, ttCopyInBuffer_iff.mpr hin.2, ne_eq, not_true, if_false]
  split
  · exact .inl rfl
  split
  · left
    unfold lockCtlAcquire
    simp only [hcomplete]
  · left
    unfold lockCtlRelease
    simp only [hcomplete]
  · left
    unfold lockCtlTest
    simp only [hcomplete]
  · unfold lockCtlAcquireBlocking
    cases ttLockTryAcquire s F i.index with
    | some s => exact .inl (hcomplete s 1)
    | none =>
      dsimp only
      split
      · exact .inl rfl
      split
      · exact .inl rfl
      · exact .inr ⟨rfl, rfl⟩
  · exact .inl rfl

/-- What two runs of a handler have in common when the driver treats their effects alike. -/
structure SameHandled (a b : Handled) : Prop where
  /-- The status. -/
  status : a.status = b.status
  /-- The request waits. -/
  pended : a.pended = b.pended
  /-- The output structure. -/
  out : a.out = b.out
  /-- The driver. -/
  driver : a.driver.seen = b.driver.seen

/-- Two runs of a handler with buffers that fit do the same. -/
theorem sameHandled_of_fits {io io' : Io} (hcode : code ≠ .lockCtlWoken)
    (hfields : ∀ off size, off + size ≤ code.inSize →
      leField input off size = leField input' off size)
    (hdeclared : code.declared input = code.declared input')
    (hin : code.inSize ≤ io.input ∧ code.inSize ≤ io'.input)
    (hout : code.room input ≤ io.output ∧ code.room input ≤ io'.output) :
    SameHandled (w.handled F env io input code) (w.handled F env io' input' code) := by
  rw [handled_input io hfields]
  by_cases hlock : code = .lockCtl
  · subst hlock
    show SameHandled (w.lockCtl F io (lockCtlIn input') env.lock)
      (w.lockCtl F io' (lockCtlIn input') env.lock)
    unfold Driver.lockCtl
    rcases lockCtl_fits w.device.removed w.device.locks F (lockCtlIn input') env.lock hin hout
      with heq | ⟨hfirst, hsecond⟩
    · rw [heq]
      exact ⟨rfl, rfl, rfl, rfl⟩
    · rw [hfirst, hsecond]
      refine ⟨rfl, rfl, rfl, ?_⟩
      have h16 : min io.output 16 = min io'.output 16 :=
        (min_eq_right hout.1).trans (min_eq_right hout.2).symm
      simp [Driver.seen, Driver.setDevice, LockState.seen, LockRequest.seen, h16]
  · have hroom : code.room input = code.room input' := by
      unfold IoctlCode.room
      rw [hdeclared]
    rw [hroom] at hout
    rw [handled_fits ⟨hlock, hcode⟩ hin.1 hout.1, handled_fits ⟨hlock, hcode⟩ hin.2 hout.2]
    exact ⟨rfl, rfl, rfl, rfl⟩

end Handlers

section Calls

variable {w : Driver} {F : Handle} {env : DriverEnv} {code : IoctlCode} {arg : Memory}
  {size size' : ℕ}

/-- A request of the shim or of another caller. -/
def callRequest (w : Driver) (F : Handle) (env : DriverEnv) (code : IoctlCode)
    (hcode : code ≠ .lockCtlWoken) (b : SystemBuffer) : OutputRequest :=
  ⟨w, F, env, code, b, fun h => absurd h hcode⟩

/-- A field of the argument. -/
theorem leField_arg {off count : ℕ} (h : size ≤ maxUlong) (hfield : off + count ≤ size)
    (hsmall : off + count ≤ 40) :
    leField (argBuffer arg size h).input off count = leField (argBytes arg) off count :=
  (leField_readMemory hfield).trans (leField_readMemory hsmall).symm

/-- No input structure is larger than forty bytes. -/
theorem inSize_le (code : IoctlCode) : code.inSize ≤ 40 := by
  cases code <;> simp [IoctlCode.inSize]

/-- The declared size is a field of the input structure. -/
theorem declared_of_fields {input input' : List Byte}
    (h : ∀ off count, off + count ≤ code.inSize →
      leField input off count = leField input' off count) :
    code.declared input = code.declared input' := by
  cases code <;> first | rfl | exact h 0 4 (by decide) | exact congrArg (· * 24) (h 0 4 (by decide))

/-- The declared size of an argument. -/
theorem declared_arg (h : size ≤ maxUlong) (hin : code.inSize ≤ size) :
    code.declared (argBuffer arg size h).input = code.declared (argBytes arg) :=
  declared_of_fields fun _ _ hfield =>
    leField_arg h (hfield.trans hin) (hfield.trans (inSize_le code))

/-- Calls whose handlers do the same end alike. -/
theorem sameCall_of_sameHandled (hcode : code ≠ .lockCtlWoken) (h : size ≤ maxUlong)
    (h' : size' ≤ maxUlong) (hin : code.inSize ≤ size ∧ code.inSize ≤ size')
    (hsame : SameHandled
      (w.handled F env (argBuffer arg size h).io (argBuffer arg size h).input code)
      (w.handled F env (argBuffer arg size' h').io (argBuffer arg size' h').input code))
    (prior stack prior' stack' : Memory) :
    SameCall (w.deviceIoControl F env code arg size h prior stack)
      (w.deviceIoControl F env code arg size' h' prior' stack') := by
  unfold Driver.deviceIoControl
  by_cases hrefusal : w.refusal F env.caller code ≠ .success
  · rw [if_pos hrefusal, if_pos hrefusal]
    exact ⟨rfl, rfl, rfl, rfl⟩
  rw [if_neg hrefusal, if_neg hrefusal]
  let r := callRequest w F env code hcode (argBuffer arg size h)
  let r' := callRequest w F env code hcode (argBuffer arg size' h')
  show SameCall ⟨(r.reply prior stack).status, (r.reply prior stack).pended,
      writeBack arg (r.reply prior stack).returned, (r.reply prior stack).driver⟩
    ⟨(r'.reply prior' stack').status, (r'.reply prior' stack').pended,
      writeBack arg (r'.reply prior' stack').returned, (r'.reply prior' stack').driver⟩
  by_cases hok : r.Succeeds
  · have hok' : r'.Succeeds := ⟨hsame.status.symm.trans hok.1, hsame.pended.symm.trans hok.2⟩
    have hpayload : r.payload = r'.payload := congrArg (· fun _ => 0) hsame.out
    have hdeclared : r.declared = r'.declared :=
      (declared_arg h hin.1).trans (declared_arg h' hin.2).symm
    have htake : (argBuffer arg size h).input.take code.outOffset =
        (argBuffer arg size' h').input.take code.outOffset :=
      (take_readMemory ((outOffset_le code).trans hin.1)).trans
        (take_readMemory ((outOffset_le code).trans hin.2)).symm
    have hreturned : (r.reply prior stack).returned = (r'.reply prior' stack').returned := by
      rw [OutputRequest.returned_of_succeeds hok, OutputRequest.returned_of_succeeds hok', hpayload,
        hdeclared]
      exact congrArg (· ++ _) htake
    rw [hreturned]
    rw [OutputRequest.reply_of_succeeds hok, OutputRequest.reply_of_succeeds hok']
    exact ⟨rfl, rfl, rfl, hsame.driver⟩
  · have hok' : ¬ r'.Succeeds := fun hsucceeds =>
      hok ⟨hsame.status.trans hsucceeds.1, hsame.pended.trans hsucceeds.2⟩
    have hnone : (r.reply prior stack).returned = [] := OutputRequest.returned_of_fails hok _ _
    have hnone' : (r'.reply prior' stack').returned = [] :=
      OutputRequest.returned_of_fails hok' _ _
    rw [hnone, hnone', OutputRequest.reply_of_fails hok, OutputRequest.reply_of_fails hok']
    exact ⟨hsame.status, hsame.pended, rfl, hsame.driver⟩

/-- Calls with two lengths that fit end alike. -/
theorem sameCall_of_fits (hcode : code ≠ .lockCtlWoken) (h : size ≤ maxUlong)
    (h' : size' ≤ maxUlong) (hin : code.inSize ≤ size ∧ code.inSize ≤ size')
    (hout : code.room (argBytes arg) ≤ size ∧ code.room (argBytes arg) ≤ size')
    (prior stack prior' stack' : Memory) :
    SameCall (w.deviceIoControl F env code arg size h prior stack)
      (w.deviceIoControl F env code arg size' h' prior' stack') := by
  have hdeclared : code.declared (argBuffer arg size h).input =
      code.declared (argBuffer arg size' h').input :=
    (declared_arg h hin.1).trans (declared_arg h' hin.2).symm
  have hroom : code.room (argBuffer arg size h).input = code.room (argBytes arg) :=
    congrArg (code.outOffset + ·) (declared_arg h hin.1)
  have hinput : code.inSize ≤ (argBuffer arg size h).io.input ∧
      code.inSize ≤ (argBuffer arg size' h').io.input :=
    ⟨hin.1.trans_eq length_readMemory.symm, hin.2.trans_eq length_readMemory.symm⟩
  refine sameCall_of_sameHandled hcode h h' hin ?_ prior stack prior' stack'
  have hfields : ∀ off count, off + count ≤ code.inSize →
      leField (argBuffer arg size h).input off count =
        leField (argBuffer arg size' h').input off count := fun off count hfield =>
    (leField_arg h (hfield.trans hin.1) (hfield.trans (inSize_le code))).trans
      (leField_arg h' (hfield.trans hin.2) (hfield.trans (inSize_le code))).symm
  exact sameHandled_of_fits hcode hfields hdeclared hinput (hroom ▸ hout)

/-- The input structure of `RESET_DEVICE` in an argument. -/
theorem resetIn_arg (h : size ≤ maxUlong) (hin : 8 ≤ size) :
    resetIn (argBuffer arg size h).input = resetIn (argBytes arg) := by
  unfold resetIn
  rw [leField_arg h (by omega) (by omega), leField_arg h (by omega) (by omega)]

/-- The input structure of `PIN_PAGES` in an argument. -/
theorem pinPagesIn_arg (h : size ≤ maxUlong) (hin : 24 ≤ size) :
    pinPagesIn (argBuffer arg size h).input = pinPagesIn (argBytes arg) := by
  unfold pinPagesIn
  rw [leField_arg h (by omega) (by omega), leField_arg h (by omega) (by omega),
    leField_arg h (by omega) (by omega), leField_arg h (by omega) (by omega)]

/-- The checks of `PIN_PAGES` on buffers that hold its input. -/
theorem pinPagesCheck_of_input {io io' : Io} (i : PinPagesIn) (hin : 24 ≤ io.input)
    (hin' : 24 ≤ io'.input) : pinPagesCheck io i = pinPagesCheck io' i := by
  unfold pinPagesCheck
  rw [ttCopyInBuffer_iff.mpr hin, ttCopyInBuffer_iff.mpr hin']

/-- A flavor that does not exist does nothing. -/
theorem resetFlavor_unknown {d : DeviceContext} {renv : ResetEnv} {flags : ℕ} (h : 6 < flags) :
    resetFlavor d F renv flags = none := by
  obtain ⟨k, rfl⟩ := Nat.exists_eq_add_of_lt h
  rw [show 6 + k + 1 = k + 7 by omega]
  rfl

/-- What is left of the handler of an argument that is refused anyway. -/
theorem handled_of_refusedAnyway (hanyway : RefusedAnyway code arg) (h : size ≤ maxUlong)
    (hin : code.inSize ≤ size) :
    w.handled F env (argBuffer arg size h).io (argBuffer arg size h).input code =
      ⟨if code = .resetDevice then .invalidParameter
        else pinPagesCheck ⟨24, 0⟩ (pinPagesIn (argBytes arg)), false, fun _ => [], w⟩ := by
  have hlength : (argBuffer arg size h).io.input = size := length_readMemory
  rcases hanyway with ⟨rfl, hflags⟩ | ⟨rfl, hcheck⟩
  · have hin8 : 8 ≤ (argBuffer arg size h).io.input := hin.trans_eq hlength.symm
    unfold Driver.handled Driver.resetDevice ttIoctlResetDevice
    simp only [ttCopyInBuffer_iff.mpr hin8, ne_eq, not_true, if_false, if_true,
      resetIn_arg h hin, resetFlavor_unknown hflags]
    rfl
  · have hin24 : 24 ≤ (argBuffer arg size h).io.input := hin.trans_eq hlength.symm
    have hrefused : pinPagesCheck (argBuffer arg size h).io (pinPagesIn (argBytes arg)) =
        pinPagesCheck ⟨24, 0⟩ (pinPagesIn (argBytes arg)) :=
      pinPagesCheck_of_input _ hin24 (le_refl 24)
    unfold Driver.handled ttIoctlPinPages
    rw [pinPagesIn_arg h hin, hrefused, if_pos hcheck]
    rfl

/-- Calls with an argument that is refused anyway end alike. -/
theorem sameCall_of_refusedAnyway (hanyway : RefusedAnyway code arg) (h : size ≤ maxUlong)
    (h' : size' ≤ maxUlong) (hin : code.inSize ≤ size ∧ code.inSize ≤ size')
    (prior stack prior' stack' : Memory) :
    SameCall (w.deviceIoControl F env code arg size h prior stack)
      (w.deviceIoControl F env code arg size' h' prior' stack') := by
  have hcode : code ≠ .lockCtlWoken := by
    rcases hanyway with ⟨rfl, -⟩ | ⟨rfl, -⟩ <;> decide
  refine sameCall_of_sameHandled hcode h h' hin ?_ prior stack prior' stack'
  rw [handled_of_refusedAnyway hanyway h hin.1, handled_of_refusedAnyway hanyway h' hin.2]
  exact ⟨rfl, rfl, rfl, rfl⟩

/-- The status of a call that is not refused in front of its handler. -/
theorem deviceIoControl_status (h : size ≤ maxUlong) (prior stack : Memory)
    (hrefusal : w.refusal F env.caller code = .success) :
    (w.deviceIoControl F env code arg size h prior stack).status =
      (w.handled F env (argBuffer arg size h).io (argBuffer arg size h).input code).status := by
  unfold Driver.deviceIoControl Driver.serve Handled.complete
  rw [if_neg (not_not.mpr hrefusal)]
  split <;> rfl

end Calls

section Table

variable {arg : Memory} {code : IoctlCode} {nr length : ℕ}

/-- The first word of an argument. -/
theorem leValue_arg (arg : Memory) : leValue (readMemory arg 0 4) = leField (argBytes arg) 0 4 :=
  (leField_readMemory (show 0 + 4 ≤ 40 by decide)).symm

/-- A buffer that has room for the mappings has a length the table can say. -/
theorem ttIoctlSize_mappings (hroom : 8 + leField (argBytes arg) 0 4 * 24 ≤ maxUlong) :
    ttIoctlSize arg 2 = 8 + leField (argBytes arg) 0 4 * 24 := by
  show u32 (8 + u32 (leValue (readMemory arg 0 4) * 24)) = _
  rw [leValue_arg]
  unfold maxUlong at hroom
  unfold u32
  omega

/-- The table has room for the input structure. -/
theorem inSize_le_ttIoctlSize (hnr : code.nr = some nr)
    (hroom : code.room (argBytes arg) ≤ maxUlong) : code.inSize ≤ ttIoctlSize arg nr := by
  cases code with
  | queryMappings =>
    cases hnr
    rw [ttIoctlSize_mappings hroom]
    exact Nat.le_add_right _ _
  | map => cases hnr
  | queryTelemetry => cases hnr
  | lockCtlWoken => cases hnr
  | _ =>
    cases hnr
    simp [IoctlCode.inSize, ttIoctlSize]

/-- The table has room for the declared output exactly when it covers it. -/
theorem room_le_ttIoctlSize_iff (hnr : code.nr = some nr)
    (hroom : code.room (argBytes arg) ≤ maxUlong) :
    code.room (argBytes arg) ≤ ttIoctlSize arg nr ↔ TableCovers code arg := by
  unfold TableCovers
  cases code with
  | queryMappings =>
    cases hnr
    rw [ttIoctlSize_mappings hroom]
    simp [IoctlCode.room, IoctlCode.outOffset, IoctlCode.inSize, IoctlCode.declared]
  | map => cases hnr
  | queryTelemetry => cases hnr
  | lockCtlWoken => cases hnr
  | _ =>
    cases hnr
    simp [IoctlCode.room, IoctlCode.outOffset, IoctlCode.inSize, IoctlCode.declared, ttIoctlSize]
    try omega

end Table

/-- A driver with one handle, which process 7 has opened. -/
def openedDriver : Driver where
  device := ttEvtDeviceFileCreate startedBlackhole 7
  power := fun _ => ⟨false, 0, 0, fun _ => 0⟩
  nocCleanup := fun _ => none
  identity := ⟨0x1E52, 0xB140, 0, 0⟩
  telemetryValid := true
  tlbRegs := fun _ => 0

/-- The operating system and the hardware do what process 7 asks for. -/
def willingEnv (pages : ℕ) : DriverEnv where
  caller := 7
  dmaBuf := ⟨some (0, 0), true⟩
  map := ⟨true, true, some pageSize, 7⟩
  pin := ⟨true, true, some (List.range' 1 pages)⟩
  lock := ⟨.success, .success⟩
  reset := ⟨true, true, true, true, true, true⟩
  tag := fun _ => none

/-- Frames that are counted up are contiguous. -/
theorem contiguous_range' (start count : ℕ) : contiguous (List.range' start count) = true := by
  induction count generalizing start with
  | zero => rfl
  | succ count ih =>
    cases count with
    | zero => rfl
    | succ count =>
      have hrest := ih (start + 1)
      rw [List.range'_succ] at hrest
      rw [List.range'_succ, List.range'_succ]
      simp [contiguous, hrest]

/-- A new pinning of user memory gets as far as the lock. -/
theorem ttIoctlPinPages_of_target {c : MemoryConfig} {detached : Bool} {m : MemoryState}
    {F : Handle} {io : Io} {i : PinPagesIn} {env : PinEnv} {target : ℕ} {mdl : Option ℕ}
    (hcheck : pinPagesCheck io i = .success)
    (hnew : ((m.file F).pinnings.any fun p =>
      p.virtualAddress == i.virtualAddress && p.size == i.size) = false)
    (hview : ttFindDmaBufView (m.file F) i.virtualAddress i.size = none)
    (hknown : c.dmaIdentityKnown = true) (hmapped : c.dmaIdentityMapped = true)
    (hpool : env.pool = true) (htarget : pinPagesTarget (m.file F) env none = .ok (target, mdl)) :
    ttIoctlPinPages c detached m F io i env =
      pinPagesLocked detached m F io i none target mdl := by
  unfold ttIoctlPinPages
  rw [if_neg (not_not.mpr hcheck)]
  simp [hnew, hview, hknown, hmapped, hpool, htarget]

/-- A pinning that passes the checks is made. -/
theorem openedDriver_pins {i : PinPagesIn} (pages : ℕ)
    (hcheck : pinPagesCheck ⟨24, 0⟩ i = .success) :
    (ttIoctlPinPages openedDriver.device.config openedDriver.device.detached
      openedDriver.device.mem 0 ⟨24, 24 + i.outputSizeBytes⟩ i (willingEnv pages).pin).status =
      .success := by
  obtain ⟨hpos, hsize, -⟩ := apertureSize_of_pinPagesCheck hcheck
  have hcheck' : pinPagesCheck ⟨24, 24 + i.outputSizeBytes⟩ i = .success :=
    (pinPagesCheck_of_input i (le_refl 24) (le_refl 24)).trans hcheck
  have htarget : pinPagesTarget .init (willingEnv pages).pin none =
      .ok ((List.range' 1 pages).headD 0 * pageSize, some ((List.range' 1 pages).headD 0)) := by
    simp [pinPagesTarget, willingEnv, contiguous_range']
  have haperture : ∀ target,
      (pinAperture openedDriver.device.mem.iatu 0 i target).status = .success := by
    intro target
    unfold pinAperture
    split
    · exact ttSetupNocDma_empty _ _ _ (by omega) hsize _
    · rfl
  rw [ttIoctlPinPages_of_target hcheck' rfl rfl rfl rfl rfl htarget]
  unfold pinPagesLocked
  simp [haperture, (exact_fits 24 24 i.outputSizeBytes).2]

/-- The requests that declare the size of their output, but for the mappings, with an input
that this driver does not refuse. -/
def Declares (input : List Byte) (code : IoctlCode) : Prop :=
  code = .getDeviceInfo ∨ code = .getDriverInfo ∨
    (code = .resetDevice ∧ (resetIn input).flags ≤ 6) ∨
    (code = .pinPages ∧ pinPagesCheck ⟨24, 0⟩ (pinPagesIn input) = .success)

/-- Such a request succeeds on this driver with room for its output. -/
theorem openedDriver_own {input : List Byte} {code : IoctlCode} (pages : ℕ)
    (hcode : Declares input code) :
    openedDriver.ownStatus 0 (willingEnv pages) input code = .success := by
  rcases hcode with rfl | rfl | ⟨rfl, hflags⟩ | ⟨rfl, hcheck⟩
  · obtain ⟨hin, hout⟩ := exact_fits 4 4 (leField input 0 4)
    show Driver.infoStatus ⟨4, 4 + leField input 0 4⟩ (leField input 0 4) = _
    simp [Driver.infoStatus, hin, hout]
  · obtain ⟨hin, hout⟩ := exact_fits 4 4 (leField input 0 4)
    show Driver.infoStatus ⟨4, 4 + leField input 0 4⟩ (leField input 0 4) = _
    simp [Driver.infoStatus, hin, hout]
  · obtain ⟨hin, hout⟩ := exact_fits 8 8 (leField input 0 4)
    show (ttIoctlResetDevice openedDriver.device 0 ⟨8, 8 + leField input 0 4⟩ (resetIn input)
      (willingEnv pages).reset).status = _
    unfold ttIoctlResetDevice
    rw [if_neg (not_not.mpr hin)]
    have hsome : ∃ res, resetFlavor openedDriver.device 0 (willingEnv pages).reset
        (resetIn input).flags = some res := by
      interval_cases (resetIn input).flags <;> exact ⟨_, rfl⟩
    obtain ⟨res, hres⟩ := hsome
    rw [hres]
    exact hout
  · exact openedDriver_pins pages hcheck

/-- On this driver such a call ends by the length of its buffer alone. -/
theorem openedDriver_status {code : IoctlCode} {arg : Memory} {size : ℕ} (pages : ℕ)
    (h : size ≤ maxUlong) (hin : code.inSize ≤ size) (hcode : Declares (argBytes arg) code)
    (prior stack : Memory) :
    (openedDriver.deviceIoControl 0 (willingEnv pages) code arg size h prior stack).status =
      if size < code.room (argBytes arg) then .accessViolation else .success := by
  have hlength : (argBuffer arg size h).input.length = size := length_readMemory
  have hroom : code.room (argBuffer arg size h).input = code.room (argBytes arg) :=
    congrArg (code.outOffset + ·) (declared_arg h hin)
  have hinput : Declares (argBuffer arg size h).input code := by
    rcases hcode with rfl | rfl | ⟨rfl, hflags⟩ | ⟨rfl, hcheck⟩
    · exact .inl rfl
    · exact .inr (.inl rfl)
    · exact .inr (.inr (.inl ⟨rfl, (resetIn_arg h hin).symm ▸ hflags⟩))
    · exact .inr (.inr (.inr ⟨rfl, (pinPagesIn_arg h hin).symm ▸ hcheck⟩))
  have hown := openedDriver_own pages hinput
  have hsame : openedDriver.refusal 0 (willingEnv pages).caller code = .success ∧
      code.early openedDriver = false ∧ code ≠ .lockCtlWoken ∧
      (openedDriver.handled 0 (willingEnv pages) (argBuffer arg size h).io
        (argBuffer arg size h).input code).pended = false := by
    rcases hcode with rfl | rfl | ⟨rfl, -⟩ | ⟨rfl, -⟩ <;>
      exact ⟨rfl, rfl, by decide, rfl⟩
  obtain ⟨hrefusal, hearly, hwoken, hpended⟩ := hsame
  rw [deviceIoControl_status h prior stack hrefusal,
    handled_status hearly (fun hwaited => absurd hwaited hwoken) hpended,
    if_neg (not_lt.mpr (hin.trans_eq hlength.symm)), if_neg (not_not.mpr hown), hroom]
  rfl

/-- An argument that the table does not cover and that is not refused anyway declares the size
of its output. -/
theorem declares_of_not_covered {code : IoctlCode} {arg : Memory} (hcover : ¬ TableCovers code arg)
    (hanyway : ¬ RefusedAnyway code arg) : Declares (argBytes arg) code := by
  unfold RefusedAnyway at hanyway
  rw [not_or] at hanyway
  unfold Declares
  cases code with
  | getDeviceInfo => exact .inl rfl
  | getDriverInfo => exact .inr (.inl rfl)
  | resetDevice => exact .inr (.inr (.inl ⟨rfl, not_lt.mp fun h => hanyway.1 ⟨rfl, h⟩⟩))
  | pinPages =>
    exact .inr (.inr (.inr ⟨rfl, by_contra fun h => hanyway.2 ⟨rfl, h⟩⟩))
  | _ => simp [TableCovers] at hcover

/-- An argument the table does not cover and the driver does not refuse is answered on this
driver with the whole buffer, and not through the shim. -/
theorem openedDriver_differs {code : IoctlCode} {arg : Memory} {nr length : ℕ}
    (hnr : code.nr = some nr) (hin : code.inSize ≤ length)
    (hroom : code.room (argBytes arg) ≤ length) (hlength : length ≤ maxUlong)
    (hcover : ¬ TableCovers code arg) (hanyway : ¬ RefusedAnyway code arg) :
    ¬ PassesThrough code arg length hlength := by
  intro hpasses
  have hdeclares := declares_of_not_covered hcover hanyway
  have hsize : ttIoctlSize arg nr < code.room (argBytes arg) :=
    not_le.mp (mt (room_le_ttIoctlSize_iff hnr (hroom.trans hlength)).mp hcover)
  have hstatus := (hpasses openedDriver 0 (willingEnv ((pinPagesIn (argBytes arg)).size / pageSize))
    (fun _ => 0) (fun _ => 0) (fun _ => 0) fun _ => 0).status
  unfold Driver.ttIoctl at hstatus
  rw [openedDriver_status _ hlength hin hdeclares, if_neg (not_lt.mpr hroom),
    openedDriver_status _ (ttIoctlSize_le _ _)
      (by rw [hnr]; exact inSize_le_ttIoctlSize hnr (hroom.trans hlength)) hdeclares, hnr,
    Option.getD_some, if_pos hsize] at hstatus
  cases hstatus

/-- For every request of the shim and every argument in a buffer with room for the output that
it declares, the entry of the table covers the output exactly when the declared size is one of
the base structure; and the call through the shim is the call with the whole buffer, in every
state, exactly when that is so or the driver refuses the argument in every state. -/
theorem shim_passes_through_iff {code : IoctlCode} {arg : Memory} {nr length : ℕ}
    (hnr : code.nr = some nr) (hin : code.inSize ≤ length)
    (hroom : code.room (argBytes arg) ≤ length) (hlength : length ≤ maxUlong) :
    (code.room (argBytes arg) ≤ ttIoctlSize arg nr ↔ TableCovers code arg) ∧
      (PassesThrough code arg length hlength ↔ TableCovers code arg ∨ RefusedAnyway code arg) := by
  have hbound := hroom.trans hlength
  have hsize := inSize_le_ttIoctlSize hnr hbound
  refine ⟨room_le_ttIoctlSize_iff hnr hbound, ?_, ?_⟩
  · intro hpasses
    by_contra hnone
    rw [not_or] at hnone
    exact openedDriver_differs hnr hin hroom hlength hnone.1 hnone.2 hpasses
  · intro hcovered w F env prior stack prior' stack'
    have hcode : code ≠ .lockCtlWoken := by
      rintro rfl
      cases hnr
    have hentry : ttIoctlSize arg (code.nr.getD 0) = ttIoctlSize arg nr := by
      rw [hnr, Option.getD_some]
    rcases hcovered with hcover | hanyway
    · exact sameCall_of_fits hcode _ hlength ⟨hentry.symm ▸ hsize, hin⟩
        ⟨hentry.symm ▸ (room_le_ttIoctlSize_iff hnr hbound).mpr hcover, hroom⟩ _ _ _ _
    · exact sameCall_of_refusedAnyway hanyway _ hlength ⟨hentry.symm ▸ hsize, hin⟩ _ _ _ _

/-- An argument of `PIN_PAGES` that asks for the extended output: one page at address
`0x10000`, without an aperture. -/
def extendedPin : Memory :=
  fun i => if i = 0 then 16 else if i = 10 then 1 else if i = 17 then 16 else 0

/-- The equivalence at the extended output in a buffer of forty bytes, which it fills. -/
theorem shim_passes_through_iff_extended :
    (IoctlCode.pinPages.room (argBytes extendedPin) ≤ ttIoctlSize extendedPin 7 ↔
        TableCovers .pinPages extendedPin) ∧
      (PassesThrough .pinPages extendedPin 40 (by decide) ↔
        TableCovers .pinPages extendedPin ∨ RefusedAnyway .pinPages extendedPin) :=
  shim_passes_through_iff rfl (by decide) (by decide) (by decide)

/-- The extended output fits a buffer of forty bytes. The driver pins the page when it gets the
whole buffer; through the shim it refuses the request with an access violation. -/
theorem extended_pin_differs :
    IoctlCode.pinPages.room (argBytes extendedPin) = 40 ∧
      ttIoctlSize extendedPin 7 = 32 ∧
      (openedDriver.deviceIoControl 0 (willingEnv 1) .pinPages extendedPin 40 (by decide)
        (fun _ => 0) fun _ => 0).status = .success ∧
      (openedDriver.ttIoctl 0 (willingEnv 1) .pinPages extendedPin (fun _ => 0)
        fun _ => 0).status = .accessViolation ∧
      ¬ PassesThrough .pinPages extendedPin 40 (by decide) := by
  have hdeclares : Declares (argBytes extendedPin) .pinPages :=
    .inr (.inr (.inr ⟨rfl, by decide⟩))
  have hwhole := openedDriver_status 1 (by decide : 40 ≤ maxUlong) (by decide) hdeclares
    (fun _ => 0) fun _ => 0
  have hshim := openedDriver_status 1 (ttIoctlSize_le extendedPin 7) (by decide) hdeclares
    (fun _ => 0) fun _ => 0
  refine ⟨by decide, rfl, hwhole.trans (if_neg (by decide)), hshim.trans (if_pos (by decide)),
    fun hpasses => ?_⟩
  have hstatus := (hpasses openedDriver 0 (willingEnv 1) (fun _ => 0) (fun _ => 0) (fun _ => 0)
    fun _ => 0).status
  unfold Driver.ttIoctl at hstatus
  exact absurd (hstatus.symm.trans (hshim.trans (if_pos (by decide)))) (by rw [hwhole]; decide)

end TtKmd
