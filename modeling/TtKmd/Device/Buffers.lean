import TtKmd.Device.Ioctl
import TtKmd.Device.ControlFailures

/-!
# What the output buffer shows

The system buffer is kernel memory, and only the input of the caller is written to it
before a handler runs. This file shows that no request returns anything else than the
input structure and its own output: the bytes behind the input and the memory of the local
structures never get out, whatever sizes the caller declares.
-/

namespace TtKmd

open Lib

/-- A handler that takes its input, and ends with the test of its output area. -/
structure SizedStatus (f : Io → NtStatus) (inSize room : ℕ) : Prop where
  /-- The input is tested first. -/
  short : ∀ io, io.input < inSize → f io = .accessViolation
  /-- Buffers that fit are as good as any. -/
  fits : ∀ io, inSize ≤ io.input → room ≤ io.output → f io = f ⟨inSize, room⟩
  /-- The output area is tested last. -/
  small : ∀ io, inSize ≤ io.input → io.output < room →
    f io = if f ⟨inSize, room⟩ = .success then .accessViolation else f ⟨inSize, room⟩

section Status

variable {f : Io → NtStatus} {inSize room : ℕ}

/-- The status of a handler, from the one it ends with when its buffers fit. -/
theorem SizedStatus.eq (h : SizedStatus f inSize room) (io : Io) :
    f io = if io.input < inSize then .accessViolation
      else if f ⟨inSize, room⟩ ≠ .success then f ⟨inSize, room⟩
      else if io.output < room then .accessViolation else .success := by
  by_cases hshort : io.input < inSize
  · rw [h.short io hshort, if_pos hshort]
  rw [if_neg hshort]
  by_cases hsmall : io.output < room
  · rw [h.small io (not_lt.mp hshort) hsmall]
    by_cases hown : f ⟨inSize, room⟩ = .success
    · simp [hown, hsmall]
    · simp [hown]
  · rw [h.fits io (not_lt.mp hshort) (not_lt.mp hsmall)]
    by_cases hown : f ⟨inSize, room⟩ = .success
    · simp [hown, hsmall]
    · simp [hown]

/-- A handler is as its input test, a check of its own and its output test. -/
theorem sizedStatus_of_check (own : NtStatus) (off declared : ℕ)
    (h : ∀ io, f io = if ttCopyInBuffer io inSize ≠ .success then .accessViolation
      else if own ≠ .success then own else ttCompleteSizedOutBuffer io off declared) :
    SizedStatus f inSize (off + declared) := by
  have hown : f ⟨inSize, off + declared⟩ = own := by
    rw [h, ttCopyInBuffer_iff.mpr (le_refl inSize), if_neg (by simp)]
    have hexact : ttCompleteSizedOutBuffer ⟨inSize, off + declared⟩ off declared = .success :=
      ttCompleteSizedOutBuffer_iff.mpr (le_refl (off + declared))
    rw [hexact]
    by_cases hok : own = .success
    · simp [hok]
    · simp [hok]
  constructor
  · intro io hshort
    have hin : ttCopyInBuffer io inSize ≠ .success :=
      mt ttCopyInBuffer_iff.mp (not_le.mpr hshort)
    rw [h, if_pos hin]
  · intro io hin hout
    rw [hown, h, ttCopyInBuffer_iff.mpr hin, if_neg (by simp),
      ttCompleteSizedOutBuffer_iff.mpr hout]
    by_cases hok : own = .success
    · simp [hok]
    · simp [hok]
  · intro io hin hsmall
    have hout : ttCompleteSizedOutBuffer io off declared = .accessViolation := by
      unfold ttCompleteSizedOutBuffer
      rw [if_pos (by omega)]
    rw [hown, h, ttCopyInBuffer_iff.mpr hin, if_neg (by simp), hout]
    by_cases hok : own = .success
    · simp [hok]
    · simp [hok]

end Status

section Handlers

variable {c : MemoryConfig} {detached : Bool} {m : MemoryState} {F : Handle}

/-- Buffers that fit exactly pass both tests. -/
theorem exact_fits (inSize off declared : ℕ) :
    ttCopyInBuffer ⟨inSize, off + declared⟩ inSize = .success ∧
      ttCompleteSizedOutBuffer ⟨inSize, off + declared⟩ off declared = .success :=
  ⟨ttCopyInBuffer_iff.mpr (le_refl _), ttCompleteSizedOutBuffer_iff.mpr (le_refl _)⟩

/-- An output area that does not fit is an access violation. -/
theorem ttCompleteSizedOutBuffer_of_ne {io : Io} {off declared : ℕ}
    (h : ttCompleteSizedOutBuffer io off declared ≠ .success) :
    ttCompleteSizedOutBuffer io off declared = .accessViolation := by
  unfold ttCompleteSizedOutBuffer at h ⊢
  split
  · rfl
  · simp_all

/-- A token that is not resolved is an error. -/
theorem ttResolveMapTarget_error {mmapOffset length : ℕ} {status : NtStatus}
    (h : ttResolveMapTarget c m F mmapOffset length = .error status) : status ≠ .success := by
  have hcases : status = .invalidParameter ∨ status = .accessDenied := by
    unfold ttResolveMapTarget resolveDmaBuf resolveBar resolveTlb at h
    dsimp only at h
    repeat' split at h
    all_goals cases h
    all_goals simp
  rcases hcases with rfl | rfl <;> simp

/-- `MAP`. -/
theorem sizedStatus_map (i : MapIn) (env : MapEnv) :
    SizedStatus (fun io => (ttIoctlMap c m F io i env).status) 16 24 := by
  refine sizedStatus_of_check (ttIoctlMap c m F ⟨16, 16 + 8⟩ i env).status 16 8 fun io => ?_
  obtain ⟨hin, hout⟩ := exact_fits 16 16 8
  unfold ttIoctlMap
  rw [hin, hout]
  by_cases hcopy : ttCopyInBuffer io 16 = .success
  swap
  · simp [hcopy, Reply.fail]
  simp only [hcopy, ne_eq, not_true, if_false]
  split
  · simp [Reply.fail]
  split
  · rename_i status hresolve
    simp [Reply.fail, ttResolveMapTarget_error hresolve]
  split
  · simp [Reply.fail]
  split
  · simp [Reply.fail]
  · by_cases hroom : ttCompleteSizedOutBuffer io 16 8 = .success
    · simp [hroom]
    · simp [Reply.fail, ttCompleteSizedOutBuffer_of_ne hroom]

/-- `ALLOCATE_TLB` on a Blackhole. -/
theorem sizedStatus_allocateTlb (size : ℕ) (hc : c.isBlackhole = true) :
    SizedStatus (fun io => (ttIoctlAllocateTlb c m F io size).status) 16 48 := by
  refine sizedStatus_of_check (ttIoctlAllocateTlb c m F ⟨16, 16 + 32⟩ size).status 16 32
    fun io => ?_
  obtain ⟨hin, hout⟩ := exact_fits 16 16 32
  generalize hown : (ttIoctlAllocateTlb c m F ⟨16, 16 + 32⟩ size).status = own
  unfold ttIoctlAllocateTlb allocateTlbCheck at hown ⊢
  rw [hin, hout, hc] at hown
  rw [hc]
  by_cases hcopy : ttCopyInBuffer io 16 = .success
  swap
  · simp [hcopy, Reply.fail]
  simp only [hcopy, Bool.not_true, Bool.false_eq_true, ne_eq, not_true, if_false, if_true]
    at hown ⊢
  cases hpool : tlbPool c size with
  | none =>
    rw [hpool] at hown
    cases hown
    simp [Reply.fail]
  | some pool =>
    rw [hpool] at hown
    dsimp only at hown ⊢
    rcases hclaim : claimTlb m F pool with ⟨_ | id, m'⟩
    · rw [hclaim] at hown
      cases hown
      simp [Reply.fail]
    · rw [hclaim] at hown
      cases hown
      by_cases hroom : ttCompleteSizedOutBuffer io 16 32 = .success
      · simp [hroom]
      · simp [Reply.fail, ttCompleteSizedOutBuffer_of_ne hroom]

/-- A failed allocation returns the status that it is given. -/
theorem allocateDmaBufFail_status (region : Option (Fin 16)) (size : ℕ) (status : NtStatus) :
    (allocateDmaBufFail detached m region size status).status = status := rfl

/-- `ALLOCATE_DMA_BUF` after the reservation: the output area is tested last. -/
theorem allocateDmaBufReserved_status (io : Io) (i : AllocateDmaBufIn) (env : DmaBufEnv) :
    (allocateDmaBufReserved detached m F io i env).status =
      if (allocateDmaBufReserved detached m F ⟨24, 24 + 40⟩ i env).status ≠ .success then
        (allocateDmaBufReserved detached m F ⟨24, 24 + 40⟩ i env).status
      else ttCompleteSizedOutBuffer io 24 40 := by
  obtain ⟨-, hout⟩ := exact_fits 24 24 40
  unfold allocateDmaBufReserved
  cases env.commonBuffer with
  | none => simp [allocateDmaBufFail_status]
  | some addr =>
    dsimp only
    by_cases hreach : u64Sub (u64 (addr.1 + i.requestedSize)) 1 > nocDmaLimit
    · simp [hreach, allocateDmaBufFail_status]
    by_cases hnoc : (dmaBufAperture m.iatu F i addr.1).status = .success
    swap
    · simp [hreach, hnoc, allocateDmaBufFail_status]
    cases hpool : env.pool with
    | false => simp [hreach, hnoc, allocateDmaBufFail_status]
    | true =>
      by_cases hroom : ttCompleteSizedOutBuffer io 24 40 = .success
      · simp [hreach, hnoc, hout, hroom]
      · simp [hreach, hnoc, hout, ttCompleteSizedOutBuffer_of_ne hroom, allocateDmaBufFail_status]

/-- `ALLOCATE_DMA_BUF`. -/
theorem sizedStatus_allocateDmaBuf (i : AllocateDmaBufIn) (env : DmaBufEnv) :
    SizedStatus (fun io => (ttIoctlAllocateDmaBuf c detached m F io i env).status) 24 64 := by
  refine sizedStatus_of_check (ttIoctlAllocateDmaBuf c detached m F ⟨24, 24 + 40⟩ i env).status
    24 40 fun io => ?_
  obtain ⟨hin, -⟩ := exact_fits 24 24 40
  unfold ttIoctlAllocateDmaBuf
  rw [hin]
  by_cases hcopy : ttCopyInBuffer io 24 = .success
  swap
  · simp [hcopy, Reply.fail]
  simp only [hcopy, ne_eq, not_true, if_false]
  split
  · simp [Reply.fail]
  split
  · simp [Reply.fail]
  split
  · simp [Reply.fail]
  split
  · simp [Reply.fail]
  split
  · simp [Reply.fail]
  · exact allocateDmaBufReserved_status io i env

/-- The target of a pinning is not found for a reason that is an error. -/
theorem pinPagesTarget_error {f : FileMemory} {env : PinEnv} {backing : Option (ℕ × ℕ)}
    {status : NtStatus} (h : pinPagesTarget f env backing = .error status) :
    status ≠ .success := by
  have hcases : status = .insufficientResources ∨ status = .accessViolation ∨
      status = .invalidParameter := by
    unfold pinPagesTarget at h
    repeat' split at h
    all_goals cases h
    all_goals simp
  rcases hcases with rfl | rfl | rfl <;> simp

/-- `PIN_PAGES` under the lock: the output area is tested last. -/
theorem pinPagesLocked_status (io : Io) (i : PinPagesIn) (backing : Option ℕ) (target : ℕ)
    (mdl : Option ℕ) :
    (pinPagesLocked detached m F io i backing target mdl).status =
      if (pinPagesLocked detached m F ⟨24, 24 + i.outputSizeBytes⟩ i backing target mdl).status ≠
          .success then
        (pinPagesLocked detached m F ⟨24, 24 + i.outputSizeBytes⟩ i backing target mdl).status
      else ttCompleteSizedOutBuffer io 24 i.outputSizeBytes := by
  obtain ⟨-, hout⟩ := exact_fits 24 24 i.outputSizeBytes
  unfold pinPagesLocked
  by_cases hnoc : (pinAperture m.iatu F i target).status = .success
  swap
  · simp [Reply.fail, hnoc]
  by_cases hroom : ttCompleteSizedOutBuffer io 24 i.outputSizeBytes = .success
  · simp [hnoc, hout, hroom]
  · simp [Reply.fail, hnoc, hout, ttCompleteSizedOutBuffer_of_ne hroom]

/-- `PIN_PAGES`. -/
theorem sizedStatus_pinPages (i : PinPagesIn) (env : PinEnv) :
    SizedStatus (fun io => (ttIoctlPinPages c detached m F io i env).status) 24
      (24 + i.outputSizeBytes) := by
  refine sizedStatus_of_check
    (ttIoctlPinPages c detached m F ⟨24, 24 + i.outputSizeBytes⟩ i env).status 24
    i.outputSizeBytes fun io => ?_
  obtain ⟨hin, -⟩ := exact_fits 24 24 i.outputSizeBytes
  unfold ttIoctlPinPages
  by_cases hcopy : ttCopyInBuffer io 24 = .success
  swap
  · have hcheck : pinPagesCheck io i = .accessViolation := by
      unfold pinPagesCheck
      rw [if_pos hcopy]
    simp [hcopy, hcheck, Reply.fail]
  have hsame : pinPagesCheck io i = pinPagesCheck ⟨24, 24 + i.outputSizeBytes⟩ i := by
    unfold pinPagesCheck
    rw [hin, hcopy]
  rw [hsame]
  simp only [hcopy, ne_eq, not_true, if_false]
  split
  · rename_i hcheck
    simp [Reply.fail, hcheck]
  split
  · simp [Reply.fail]
  split
  · simp [Reply.fail]
  split
  · simp [Reply.fail]
  split
  · rename_i status htarget
    simp [Reply.fail, pinPagesTarget_error htarget]
  · exact pinPagesLocked_status io i _ _ _

/-- `CONFIGURE_TLB`. -/
theorem sizedStatus_configureTlb (regs : ℕ → ℕ) (i : ConfigureTlbIn) :
    SizedStatus (fun io => (ttIoctlConfigureTlb m regs F io i).1) 40 48 := by
  refine sizedStatus_of_check (ttIoctlConfigureTlb m regs F ⟨40, 40 + 8⟩ i).1 40 8 fun io => ?_
  obtain ⟨hin, hout⟩ := exact_fits 40 40 8
  unfold ttIoctlConfigureTlb
  by_cases hcopy : ttCopyInBuffer io 40 = .success
  swap
  · have hcheck : configureTlbCheck m F io i = .accessViolation := by
      unfold configureTlbCheck
      rw [if_pos hcopy]
    simp [hcopy, hcheck]
  have hsame : configureTlbCheck m F io i = configureTlbCheck m F ⟨40, 40 + 8⟩ i := by
    unfold configureTlbCheck
    rw [hin, hcopy]
  rw [hsame]
  simp only [hcopy, hout, ne_eq, not_true, if_false]
  split
  · simp
  · cases hwrites : ttBhConfigureUserTlb i.id i.config with
    | error status =>
      have hstatus : status = .invalidParameter := by
        unfold ttBhConfigureUserTlb at hwrites
        split at hwrites
        · cases hwrites
          rfl
        · cases hwrites
      simp [hstatus]
    | ok writes => simp

/-- `RESET_DEVICE`. -/
theorem sizedStatus_resetDevice (d : DeviceContext) (i : ResetIn) (env : ResetEnv) :
    SizedStatus (fun io => (ttIoctlResetDevice d F io i env).status) 8
      (8 + i.outputSizeBytes) := by
  refine sizedStatus_of_check
    (ttIoctlResetDevice d F ⟨8, 8 + i.outputSizeBytes⟩ i env).status 8 i.outputSizeBytes
    fun io => ?_
  obtain ⟨hin, hout⟩ := exact_fits 8 8 i.outputSizeBytes
  unfold ttIoctlResetDevice
  rw [hin]
  by_cases hcopy : ttCopyInBuffer io 8 = .success
  swap
  · simp [hcopy]
  simp only [hcopy, hout, ne_eq, not_true, if_false]
  cases resetFlavor d F env i.flags with
  | none => simp
  | some res => simp

/-- `GET_DEVICE_INFO` and `GET_DRIVER_INFO`. -/
theorem sizedStatus_info (declared : ℕ) :
    SizedStatus (fun io => Driver.infoStatus io declared) 4 (4 + declared) := by
  refine sizedStatus_of_check .success 4 declared fun io => ?_
  unfold Driver.infoStatus
  simp

/-- `LOCK_CTL` is pended by buffers that fit exactly when it is by others. -/
theorem lockCtl_pended {removed : Handle → Bool} {locks : LockState} {io : Io} (i : LockCtlIn)
    (env : LockEnv) (hin : 12 ≤ io.input) :
    (ttIoctlLockCtl removed locks F io i env).pended =
      (ttIoctlLockCtl removed locks F ⟨12, 16⟩ i env).pended := by
  have hexact : ttCopyInBuffer ⟨12, 16⟩ 12 = .success := rfl
  unfold ttIoctlLockCtl
  simp only [ttCopyInBuffer_iff.mpr hin, hexact, ne_eq, not_true, if_false]
  split
  · rfl
  split
  · unfold lockCtlAcquire
    cases ttLockTryAcquire locks F i.index <;> rfl
  · unfold lockCtlRelease
    split <;> rfl
  · rfl
  · unfold lockCtlAcquireBlocking
    cases ttLockTryAcquire locks F i.index with
    | some s => rfl
    | none =>
      dsimp only
      split
      · rfl
      split <;> rfl
  · rfl

/-- `LOCK_CTL`, when it is not pended. -/
theorem sizedStatus_lockCtl {removed : Handle → Bool} {locks : LockState} (i : LockCtlIn)
    (env : LockEnv) (hpended : (ttIoctlLockCtl removed locks F ⟨12, 16⟩ i env).pended = false) :
    SizedStatus (fun io => (ttIoctlLockCtl removed locks F io i env).status) 12 16 := by
  refine sizedStatus_of_check (ttIoctlLockCtl removed locks F ⟨12, 12 + 4⟩ i env).status 12 4
    fun io => ?_
  have hnone : (ttIoctlLockCtl removed locks F ⟨12, 12 + 4⟩ i env).pended = false := hpended
  obtain ⟨hin, hout⟩ := exact_fits 12 12 4
  unfold ttIoctlLockCtl at hnone ⊢
  rw [hin] at hnone ⊢
  by_cases hcopy : ttCopyInBuffer io 12 = .success
  swap
  · simp [hcopy]
  simp only [hcopy, ne_eq, not_true, if_false] at hnone ⊢
  split
  · simp
  rename_i hindex
  rw [if_neg hindex] at hnone
  split
  · unfold lockCtlAcquire
    cases ttLockTryAcquire locks F i.index <;> simp [LockReply.complete, hout]
  · unfold lockCtlRelease
    split <;> simp [LockReply.complete, hout]
  · simp [lockCtlTest, LockReply.complete, hout]
  · rename_i hflags
    rw [hflags] at hnone
    unfold lockCtlAcquireBlocking at hnone ⊢
    cases htry : ttLockTryAcquire locks F i.index with
    | some s => simp [LockReply.complete, hout]
    | none =>
      rw [htry] at hnone
      by_cases hcontext : env.context = .success
      · by_cases hforward : env.forward = .success
        · simp [hcontext, hforward] at hnone
        · simp [hcontext, hforward]
      · simp [hcontext]
  · simp

/-- A handler without an output. -/
theorem sizedStatus_of_input {f : Io → NtStatus} {inSize : ℕ} (own : NtStatus)
    (h : ∀ io, f io = if ttCopyInBuffer io inSize ≠ .success then .accessViolation else own) :
    SizedStatus f inSize 0 := by
  refine sizedStatus_of_check own 0 0 fun io => ?_
  have hroom : ttCompleteSizedOutBuffer io 0 0 = .success :=
    ttCompleteSizedOutBuffer_iff.mpr (Nat.zero_le _)
  rw [h, hroom]
  by_cases hok : own = .success
  · simp [hok]
  · simp [hok]

/-- `UNPIN_PAGES`. -/
theorem sizedStatus_unpinPages (i : UnpinPagesIn) :
    SizedStatus (fun io => (ttIoctlUnpinPages detached m F io i).status) 24 0 := by
  refine sizedStatus_of_input (ttIoctlUnpinPages detached m F ⟨24, 0⟩ i).status fun io => ?_
  have hexact : ttCopyInBuffer ⟨24, 0⟩ 24 = .success := rfl
  unfold ttIoctlUnpinPages unpinPagesCheck
  rw [hexact]
  by_cases hcopy : ttCopyInBuffer io 24 = .success
  · simp [hcopy]
  · simp [hcopy, Reply.fail]

/-- `FREE_TLB`. -/
theorem sizedStatus_freeTlb (id : ℕ) :
    SizedStatus (fun io => (ttIoctlFreeTlb m F io id).status) 4 0 := by
  refine sizedStatus_of_input (ttIoctlFreeTlb m F ⟨4, 0⟩ id).status fun io => ?_
  have hexact : ttCopyInBuffer ⟨4, 0⟩ 4 = .success := rfl
  unfold ttIoctlFreeTlb
  rw [hexact]
  by_cases hcopy : ttCopyInBuffer io 4 = .success
  · simp [hcopy]
  · simp [hcopy, Reply.fail]

/-- `SET_NOC_CLEANUP` on a Blackhole. -/
theorem sizedStatus_setNocCleanup (i : NocCleanupIn) :
    SizedStatus (fun io => setNocCleanupCheck true io i) 32 0 := by
  refine sizedStatus_of_input (setNocCleanupCheck true ⟨32, 0⟩ i) fun io => ?_
  have hexact : ttCopyInBuffer ⟨32, 0⟩ 32 = .success := rfl
  unfold setNocCleanupCheck
  rw [hexact]
  by_cases hcopy : ttCopyInBuffer io 32 = .success
  · simp [hcopy]
  · simp [hcopy]

/-- `SET_POWER_STATE`. -/
theorem sizedStatus_setPowerState (i : PowerStateIn) :
    SizedStatus (fun io => setPowerStateCheck io i) 40 0 := by
  refine sizedStatus_of_input (setPowerStateCheck ⟨40, 0⟩ i) fun io => ?_
  have hexact : ttCopyInBuffer ⟨40, 0⟩ 40 = .success := rfl
  unfold setPowerStateCheck
  rw [hexact]
  by_cases hcopy : ttCopyInBuffer io 40 = .success
  · simp [hcopy]
  · simp [hcopy]

/-- `QUERY_TELEMETRY` of a device that has telemetry. -/
theorem sizedStatus_queryTelemetry {w : Driver}
    (h : (!w.device.config.isBlackhole || !w.telemetryValid) = false) :
    SizedStatus w.queryTelemetryStatus 0 80 := by
  refine sizedStatus_of_check .success 0 80 fun io => ?_
  unfold Driver.queryTelemetryStatus
  rw [h, ttCopyInBuffer_iff.mpr (Nat.zero_le _)]
  simp

end Handlers

/-- The refusals that come before the input is looked at. -/
def IoctlCode.early (w : Driver) : IoctlCode → Bool
  | .allocateTlb => !w.device.config.isBlackhole
  | .setNocCleanup => !w.device.config.isBlackhole
  | .queryTelemetry => !w.device.config.isBlackhole || !w.telemetryValid
  | _ => false

/-- The size of the input and of the output area together. -/
def IoctlCode.room (code : IoctlCode) (input : List Byte) : ℕ :=
  code.outOffset + code.declared input

/-- The status a handler ends with when its buffers fit: what it refuses for a reason of its
own. `QUERY_MAPPINGS` has none. -/
def Driver.ownStatus (w : Driver) (F : Handle) (env : DriverEnv) (input : List Byte) :
    IoctlCode → NtStatus
  | .queryMappings => .success
  | code => (w.handled F env ⟨code.inSize, code.room input⟩ input code).status

section Requests

variable {w : Driver} {F : Handle} {env : DriverEnv} {input : List Byte} {code : IoctlCode}

/-- The handlers that test their input first and their output last, whatever happens. -/
theorem handled_sized (hearly : code.early w = false)
    (hcode : code ≠ .queryMappings ∧ code ≠ .lockCtl ∧ code ≠ .lockCtlWoken) :
    SizedStatus (fun io => (w.handled F env io input code).status) code.inSize
      (code.room input) := by
  cases code with
  | getDeviceInfo => exact sizedStatus_info _
  | queryMappings => exact absurd rfl hcode.1
  | allocateDmaBuf => exact sizedStatus_allocateDmaBuf _ _
  | getDriverInfo => exact sizedStatus_info _
  | resetDevice => exact sizedStatus_resetDevice _ _ _
  | pinPages => exact sizedStatus_pinPages _ _
  | lockCtl => exact absurd rfl hcode.2.1
  | unpinPages => exact sizedStatus_unpinPages _
  | allocateTlb => exact sizedStatus_allocateTlb _ (by simpa [IoctlCode.early] using hearly)
  | freeTlb => exact sizedStatus_freeTlb _
  | configureTlb => exact sizedStatus_configureTlb _ _
  | setNocCleanup =>
    have hblackhole : w.device.config.isBlackhole = true := by
      simpa [IoctlCode.early] using hearly
    have hsized := sizedStatus_setNocCleanup (nocCleanupIn input)
    rw [← hblackhole] at hsized
    exact hsized
  | setPowerState => exact sizedStatus_setPowerState _
  | map => exact sizedStatus_map _ _
  | queryTelemetry => exact sizedStatus_queryTelemetry hearly
  | lockCtlWoken => exact absurd rfl hcode.2.2

/-- Everything the wake loop can do with a pended request. -/
theorem lockCtlWoken_cases (w : Driver) (F : Handle) (io : Io) (i : LockCtlIn) :
    (w.device.removed F = true ∧ (w.lockCtlWoken F io i).status = .deviceRemoved ∧
        (w.lockCtlWoken F io i).pended = false) ∨
      (w.device.removed F = false ∧ w.device.locks.Held i.index ∧
        (w.lockCtlWoken F io i).status = .success ∧ (w.lockCtlWoken F io i).pended = true) ∨
      (w.device.removed F = false ∧ ¬ w.device.locks.Held i.index ∧
        (w.lockCtlWoken F io i).status = (if io.output < 16 then .accessViolation else .success) ∧
        (w.lockCtlWoken F io i).pended = false) := by
  unfold Driver.lockCtlWoken
  cases hremoved : w.device.removed F with
  | true => simp [wakeWaiter, hremoved]
  | false =>
    by_cases hheld : w.device.locks.Held i.index
    · simp [wakeWaiter, hremoved, ttLockTryAcquire_of_held hheld, hheld]
    · right
      right
      by_cases hsmall : io.output < 16
      · simp [wakeWaiter, hremoved, ttLockTryAcquire_of_free hheld, ttLockCompleteAcquired, hheld,
          hsmall]
      · simp [wakeWaiter, hremoved, ttLockTryAcquire_of_free hheld, ttLockCompleteAcquired, hheld,
          hsmall]

/-- An early refusal is no access violation and no success. -/
theorem handled_early (w : Driver) (F : Handle) (env : DriverEnv) (input : List Byte)
    (h : code.early w = true) (io : Io) :
    (w.handled F env io input code).status = .invalidParameter ∨
      (w.handled F env io input code).status = .notSupported := by
  cases code with
  | allocateTlb =>
    left
    have hblackhole : w.device.config.isBlackhole = false := by
      simpa [IoctlCode.early] using h
    show (ttIoctlAllocateTlb w.device.config w.device.mem F io (leField input 0 8)).status = _
    simp [ttIoctlAllocateTlb, allocateTlbCheck, hblackhole, Reply.fail]
  | setNocCleanup =>
    right
    have hblackhole : w.device.config.isBlackhole = false := by
      simpa [IoctlCode.early] using h
    show setNocCleanupCheck w.device.config.isBlackhole io (nocCleanupIn input) = _
    simp [setNocCleanupCheck, hblackhole]
  | queryTelemetry =>
    right
    show w.queryTelemetryStatus io = _
    unfold Driver.queryTelemetryStatus
    exact if_pos h
  | _ => simp [IoctlCode.early] at h

/-- `QUERY_MAPPINGS` fails exactly when its buffers do not fit: an area the guard refuses is
larger than any buffer. -/
theorem queryMappingsStatus_eq (b : SystemBuffer) (count : ℕ) :
    Driver.queryMappingsStatus b.io count =
      if b.input.length < 8 ∨ b.outputLength < 8 + count * 24 then .accessViolation
      else .success := by
  have hlength := b.output_le
  unfold Driver.queryMappingsStatus ttCopyInBuffer ttCompleteSizedOutBuffer SystemBuffer.io
  dsimp only
  by_cases hshort : b.input.length < 8
  · simp [hshort]
  by_cases hguard : count * 24 > maxUlong
  · have hsmall : b.outputLength < 8 + count * 24 := by omega
    simp [hshort, hguard, hsmall]
  · by_cases hsmall : b.outputLength < 8 + count * 24
    · have hout : b.outputLength < 8 ∨ b.outputLength - 8 < count * 24 := by omega
      simp [hshort, hguard, hsmall, hout]
    · have hout : ¬ (b.outputLength < 8 ∨ b.outputLength - 8 < count * 24) := by omega
      simp [hshort, hguard, hsmall, hout]

/-- The status of a request that is completed: what it refuses early, then its input, what it
refuses for a reason of its own, and its output area. -/
theorem handled_status {b : SystemBuffer} (hearly : code.early w = false)
    (hwaited : code = .lockCtlWoken → 12 ≤ b.input.length)
    (hpended : (w.handled F env b.io b.input code).pended = false) :
    (w.handled F env b.io b.input code).status =
      if b.input.length < code.inSize then .accessViolation
      else if w.ownStatus F env b.input code ≠ .success then w.ownStatus F env b.input code
      else if b.outputLength < code.room b.input then .accessViolation else .success := by
  by_cases hcode : code ≠ .queryMappings ∧ code ≠ .lockCtl ∧ code ≠ .lockCtlWoken
  · have hown : w.ownStatus F env b.input code =
        (w.handled F env ⟨code.inSize, code.room b.input⟩ b.input code).status := by
      cases code <;> first | rfl | exact absurd rfl hcode.1
    rw [hown]
    exact (handled_sized hearly hcode).eq b.io
  have hcases : code = .queryMappings ∨ code = .lockCtl ∨ code = .lockCtlWoken := by
    by_contra hnone
    simp only [not_or] at hnone
    exact hcode hnone
  rcases hcases with rfl | rfl | rfl
  · refine (queryMappingsStatus_eq b _).trans ?_
    show _ = if b.input.length < 8 then NtStatus.accessViolation
      else if NtStatus.success ≠ .success then NtStatus.success
      else if b.outputLength < 8 + leField b.input 0 4 * 24 then .accessViolation else .success
    by_cases hshort : b.input.length < 8
    · simp [hshort]
    · simp [hshort]
  · by_cases hshort : b.input.length < 12
    · rw [if_pos (show b.input.length < IoctlCode.inSize .lockCtl from hshort)]
      have hin : ttCopyInBuffer b.io 12 ≠ .success := mt ttCopyInBuffer_iff.mp (not_le.mpr hshort)
      show (ttIoctlLockCtl _ _ F b.io _ _).status = _
      unfold ttIoctlLockCtl
      rw [if_pos hin]
    · have hexact : (ttIoctlLockCtl w.device.removed w.device.locks F ⟨12, 16⟩ (lockCtlIn b.input)
          env.lock).pended = false :=
        (lockCtl_pended _ _ (not_lt.mp hshort : 12 ≤ b.io.input)).symm.trans hpended
      exact (sizedStatus_lockCtl (lockCtlIn b.input) env.lock hexact).eq b.io
  · have hshort : ¬ b.input.length < IoctlCode.inSize .lockCtlWoken := not_lt.mpr (hwaited rfl)
    rw [if_neg hshort]
    have hown : w.ownStatus F env b.input .lockCtlWoken =
        (w.lockCtlWoken F ⟨12, 16⟩ (lockCtlIn b.input)).status := rfl
    have hexact := lockCtlWoken_cases w F ⟨12, 16⟩ (lockCtlIn b.input)
    rw [hown]
    show (w.lockCtlWoken F b.io (lockCtlIn b.input)).status = _
    have hpended' : (w.lockCtlWoken F b.io (lockCtlIn b.input)).pended = false := hpended
    rcases lockCtlWoken_cases w F b.io (lockCtlIn b.input) with
      ⟨hremoved, hstatus, -⟩ | ⟨-, -, -, hpend⟩ | ⟨hkept, hfree, hstatus, -⟩
    · simp only [hremoved, Bool.true_eq_false, false_and, or_false, true_and] at hexact
      simp [hstatus, hexact.1]
    · rw [hpend] at hpended'
      cases hpended'
    · simp only [hkept, hfree, Bool.false_eq_true, false_and, not_false_eq_true, true_and,
        false_or] at hexact
      rw [hstatus, hexact.1]
      rfl

/-- A request that succeeds has buffers that fit. -/
theorem room_of_success {b : SystemBuffer}
    (hwaited : code = .lockCtlWoken → 12 ≤ b.input.length)
    (hok : (w.handled F env b.io b.input code).status = .success)
    (hpended : (w.handled F env b.io b.input code).pended = false) :
    code.inSize ≤ b.input.length ∧ code.room b.input ≤ b.outputLength := by
  cases hearly : code.early w with
  | true =>
    rcases handled_early w F env b.input hearly b.io with heq | heq
    · rw [heq] at hok
      cases hok
    · rw [heq] at hok
      cases hok
  | false =>
    rw [handled_status hearly hwaited hpended] at hok
    split at hok
    · cases hok
    rename_i hin
    split at hok
    · rename_i hown
      exact absurd hok hown
    split at hok
    · cases hok
    · rename_i hout
      exact ⟨not_lt.mp hin, not_lt.mp hout⟩

/-- A request that is completed fails with an access violation exactly when its buffers do
not fit, its own reasons to fail apart. -/
theorem accessViolation_iff {b : SystemBuffer}
    (hwaited : code = .lockCtlWoken → 12 ≤ b.input.length)
    (hpended : (w.handled F env b.io b.input code).pended = false) :
    (w.handled F env b.io b.input code).status = .accessViolation ↔
      code.early w = false ∧ (b.input.length < code.inSize ∨
        w.ownStatus F env b.input code = .accessViolation ∨
        (w.ownStatus F env b.input code = .success ∧ b.outputLength < code.room b.input)) := by
  cases hearly : code.early w with
  | true =>
    rcases handled_early w F env b.input hearly b.io with heq | heq
    · simp [heq]
    · simp [heq]
  | false =>
    rw [handled_status hearly hwaited hpended]
    by_cases hshort : b.input.length < code.inSize
    · simp [hshort]
    by_cases hown : w.ownStatus F env b.input code = .success
    · simp [hshort, hown]
    · simp [hshort, hown]

/-- The output structure says nothing about the stack. -/
theorem out_stack (io : Io) (stack stack' : Memory) :
    (w.handled F env io input code).out stack = (w.handled F env io input code).out stack' := by
  have hmemory : ∀ {α : Type} (reply : Reply α) (out : α → Memory → List Byte),
      (∀ a, out a stack = out a stack') →
        (w.memory reply out).out stack = (w.memory reply out).out stack' := by
    intro α reply out hout
    unfold Driver.memory
    cases reply.out with
    | none => rfl
    | some a => exact hout a
  cases code with
  | queryMappings => exact congrArg (List.take _) (clearedStruct_stack _ _ _)
  | resetDevice =>
    show (w.resetDevice F io _ _).out stack = (w.resetDevice F io _ _).out stack'
    unfold Driver.resetDevice
    cases resetFlavor w.device F env.reset (resetIn input).flags with
    | none => rfl
    | some res => exact clearedStruct_stack _ _ _
  | allocateDmaBuf => exact hmemory _ _ fun _ => clearedStruct_stack _ _ _
  | pinPages => exact hmemory _ _ fun _ => clearedStruct_stack _ _ _
  | allocateTlb => exact hmemory _ _ fun _ => clearedStruct_stack _ _ _
  | map => exact hmemory _ _ fun _ => clearedStruct_stack _ _ _
  | unpinPages => exact hmemory _ _ fun _ => rfl
  | freeTlb => exact hmemory _ _ fun _ => rfl
  | setNocCleanup => rfl
  | setPowerState => rfl
  | _ => exact clearedStruct_stack _ _ _

end Requests

/-- A request on a handle, or a pended `LOCK_CTL` that the wake loop completes. -/
structure OutputRequest where
  /-- The driver. -/
  driver : Driver
  /-- The handle. -/
  file : Handle
  /-- The answers of the operating system and of the hardware. -/
  env : DriverEnv
  /-- The request. -/
  code : IoctlCode
  /-- The buffers of the caller. -/
  buffer : SystemBuffer
  /-- The wake loop completes a request that `LOCK_CTL` pended earlier, with these buffers. -/
  waited : code = .lockCtlWoken → ∃ (earlier : Driver) (env : DriverEnv),
    (earlier.handled file env buffer.io buffer.input .lockCtl).pended = true

namespace OutputRequest

variable (r : OutputRequest)

/-- What the handler does. -/
def handled : Handled := r.driver.handled r.file r.env r.buffer.io r.buffer.input r.code

/-- How the request ends, over what the system buffer and the stack held before. -/
def reply (prior stack : Memory) : IoctlReply :=
  r.driver.serve r.file r.env r.code r.buffer prior stack

/-- The output structure of the driver. -/
def payload : List Byte := r.handled.out fun _ => 0

/-- The size of the output area. -/
def declared : ℕ := r.code.declared r.buffer.input

/-- The request is completed with success. -/
def Succeeds : Prop := r.handled.status = .success ∧ r.handled.pended = false

/-- A pended request has its input. -/
theorem input_of_waited (h : r.code = .lockCtlWoken) : 12 ≤ r.buffer.input.length := by
  obtain ⟨earlier, env, hpended⟩ := r.waited h
  by_contra hshort
  have hin : ttCopyInBuffer r.buffer.io 12 ≠ .success := mt ttCopyInBuffer_iff.mp hshort
  have hreply : (ttIoctlLockCtl earlier.device.removed earlier.device.locks r.file r.buffer.io
      (lockCtlIn r.buffer.input) env.lock).pended = true := hpended
  unfold ttIoctlLockCtl at hreply
  rw [if_pos hin] at hreply
  cases hreply

variable {r}

/-- What a request returns when it succeeds. -/
theorem reply_of_succeeds (h : r.Succeeds) (prior stack : Memory) :
    r.reply prior stack = ⟨.success, false, r.code.outOffset + r.declared,
      fillArea (r.buffer.bytes prior) r.code.outOffset r.declared r.payload,
      r.handled.driver⟩ := by
  have hout : r.handled.out stack = r.payload := out_stack _ _ _
  obtain ⟨hstatus, hpended⟩ := h
  show r.handled.complete r.code r.buffer prior stack = _
  unfold Handled.complete
  rw [if_pos ⟨hstatus, hpended⟩, hout, hstatus, hpended]
  rfl

/-- What a request that does not succeed returns. -/
theorem reply_of_fails (h : ¬ r.Succeeds) (prior stack : Memory) :
    r.reply prior stack =
      ⟨r.handled.status, r.handled.pended, 0, r.buffer.bytes prior, r.handled.driver⟩ :=
  if_neg h

end OutputRequest

/-- The input at the front of the system buffer. -/
theorem read_input (b : SystemBuffer) (prior : Memory) {count : ℕ} (h : count ≤ b.input.length) :
    readMemory (b.bytes prior) 0 count = b.input.take count := by
  refine List.ext_getElem ?_ fun i hi _ => ?_
  · rw [length_readMemory, List.length_take, min_eq_left h]
  rw [getElem_readMemory, List.getElem_take]
  rw [length_readMemory] at hi
  simp [SystemBuffer.bytes, List.getElem?_eq_getElem (hi.trans_le h)]

/-- Where the output area begins, the input structure ends, or there is no output. -/
theorem outOffset_le (code : IoctlCode) : code.outOffset ≤ code.inSize := by
  cases code <;> simp [IoctlCode.outOffset, IoctlCode.inSize]

/-- The bytes a successful request returns are the input structure, the output structure cut
to the declared size, and zeros. -/
theorem OutputRequest.returned_of_succeeds {r : OutputRequest} (h : r.Succeeds)
    (prior stack : Memory) :
    (r.reply prior stack).returned = r.buffer.input.take r.code.outOffset ++
      (r.payload.take r.declared ++ List.replicate (r.declared - r.payload.length) 0) := by
  have hin : r.code.inSize ≤ r.buffer.input.length :=
    (room_of_success r.input_of_waited h.1 h.2).1
  rw [reply_of_succeeds h]
  unfold IoctlReply.returned
  rw [if_pos ⟨rfl, rfl⟩]
  dsimp only
  rw [readMemory_add, Nat.zero_add, readMemory_fillArea]
  congr 1
  calc readMemory (fillArea (r.buffer.bytes prior) r.code.outOffset r.declared r.payload) 0
        r.code.outOffset = readMemory (r.buffer.bytes prior) 0 r.code.outOffset :=
        readMemory_congr fun i _ hi => fillArea_outside (.inl (by omega))
    _ = r.buffer.input.take r.code.outOffset :=
        read_input _ _ ((outOffset_le _).trans hin)

/-- A request that does not succeed returns no bytes. -/
theorem OutputRequest.returned_of_fails {r : OutputRequest} (h : ¬ r.Succeeds)
    (prior stack : Memory) : (r.reply prior stack).returned = [] := by
  rw [reply_of_fails h]
  exact if_neg h

/-- For every request, whatever sizes it declares and whatever the system buffer and the stack
held before: the outcome is the same for all earlier contents; a success writes the declared
area and nothing else, the output structure first and zeros behind it, and returns it behind
the input structure, inside of the output buffer; a failure writes and returns nothing; and an
access violation is a buffer that does not fit, the handler's own reasons apart. -/
theorem output_shows_only_payload (r : OutputRequest) :
    (∀ prior stack prior' stack', (r.reply prior stack).status = (r.reply prior' stack').status ∧
        (r.reply prior stack).pended = (r.reply prior' stack').pended ∧
        (r.reply prior stack).information = (r.reply prior' stack').information ∧
        (r.reply prior stack).returned = (r.reply prior' stack').returned ∧
        (r.reply prior stack).driver = (r.reply prior' stack').driver) ∧
      (r.Succeeds → ∀ prior stack,
        (r.reply prior stack).returned = r.buffer.input.take r.code.outOffset ++
          (r.payload.take r.declared ++ List.replicate (r.declared - r.payload.length) 0) ∧
        readMemory (r.reply prior stack).buffer r.code.outOffset r.declared =
          r.payload.take r.declared ++ List.replicate (r.declared - r.payload.length) 0 ∧
        (∀ i, i < r.code.outOffset ∨ r.code.outOffset + r.declared ≤ i →
          (r.reply prior stack).buffer i = r.buffer.bytes prior i) ∧
        (r.reply prior stack).information = r.code.outOffset + r.declared ∧
        (r.reply prior stack).information ≤ r.buffer.outputLength) ∧
      (¬ r.Succeeds → ∀ prior stack, (r.reply prior stack).returned = [] ∧
        (r.reply prior stack).information = 0 ∧
        (r.reply prior stack).buffer = r.buffer.bytes prior) ∧
      (r.handled.pended = false → (r.handled.status = .accessViolation ↔
        r.code.early r.driver = false ∧ (r.buffer.input.length < r.code.inSize ∨
          r.driver.ownStatus r.file r.env r.buffer.input r.code = .accessViolation ∨
          (r.driver.ownStatus r.file r.env r.buffer.input r.code = .success ∧
            r.buffer.outputLength < r.code.outOffset + r.declared)))) := by
  refine ⟨fun prior stack prior' stack' => ?_, fun h prior stack => ?_, fun h prior stack => ?_,
    accessViolation_iff r.input_of_waited⟩
  · by_cases h : r.Succeeds
    · have hreturned := OutputRequest.returned_of_succeeds h prior stack
      rw [← OutputRequest.returned_of_succeeds h prior' stack'] at hreturned
      refine ⟨?_, ?_, ?_, hreturned, ?_⟩
      all_goals rw [OutputRequest.reply_of_succeeds h, OutputRequest.reply_of_succeeds h]
    · rw [OutputRequest.returned_of_fails h, OutputRequest.returned_of_fails h,
        OutputRequest.reply_of_fails h, OutputRequest.reply_of_fails h]
      exact ⟨rfl, rfl, rfl, rfl, rfl⟩
  · have hroom := (room_of_success r.input_of_waited h.1 h.2).2
    refine ⟨OutputRequest.returned_of_succeeds h prior stack, ?_, ?_, ?_, ?_⟩
    · rw [OutputRequest.reply_of_succeeds h]
      exact readMemory_fillArea
    · intro i hi
      rw [OutputRequest.reply_of_succeeds h]
      exact fillArea_outside hi
    · rw [OutputRequest.reply_of_succeeds h]
    · rw [OutputRequest.reply_of_succeeds h]
      exact hroom
  · refine ⟨OutputRequest.returned_of_fails h prior stack, ?_, ?_⟩
    · rw [OutputRequest.reply_of_fails h]
    · rw [OutputRequest.reply_of_fails h]

end TtKmd
