import TtKmd.Device.Isolation
import TtKmd.Device.LockTable
import TtKmd.Tlb.Registers

/-!
# Failed control requests

`LOCK_CTL`, `CONFIGURE_TLB` and `RESET_DEVICE` change the state first and look at the
output buffer last, and so does the wake loop when it completes a waiter. A request whose
output buffer is too short is reported as failed, and what it did stays. For each of the
four paths this file says exactly when a failure leaves no trace: the output fits, or the
request does nothing in this state.
-/

namespace TtKmd

open Lib

/-- A device, and the register page of its TLB windows. -/
structure ControlWorld where
  /-- The device. -/
  device : DeviceContext
  /-- The words of `TlbRegs`, by byte offset. -/
  tlbRegs : ℕ → ℕ

/-- The control requests, and the completion of a pended one. -/
inductive ControlRequest
  /-- `LOCK_CTL`. -/
  | lockCtl (F : Handle) (io : Io) (i : LockCtlIn) (env : LockEnv)
  /-- The round of the wake loop for a waiter. -/
  | woken (q : LockRequest)
  /-- `CONFIGURE_TLB`. -/
  | configureTlb (F : Handle) (io : Io) (i : ConfigureTlbIn)
  /-- `RESET_DEVICE`. -/
  | resetDevice (F : Handle) (io : Io) (i : ResetIn) (env : ResetEnv)

/-- What a control request is completed with and what it leaves. -/
structure ControlReply where
  /-- The status; `none` while the request stays pended. -/
  status : Option NtStatus
  /-- The state afterwards. -/
  world : ControlWorld

/-- The state with other locks. -/
def ControlWorld.withLocks (w : ControlWorld) (locks : LockState) : ControlWorld :=
  { w with device := { w.device with locks } }

/-- A request behind the gate. -/
def ControlWorld.gated (w : ControlWorld) (F : Handle) (nr : ℕ) (reply : ControlReply) :
    ControlReply :=
  if ttCheckIoGates w.device F nr ≠ .success then ⟨some (ttCheckIoGates w.device F nr), w⟩
  else reply

/-- The control requests. -/
def ControlWorld.serve (w : ControlWorld) : ControlRequest → ControlReply
  | .lockCtl F io i env =>
      let reply := ttIoctlLockCtl w.device.removed w.device.locks F io i env
      w.gated F 8 ⟨if reply.pended then none else some reply.status, w.withLocks reply.locks⟩
  | .woken q =>
      let locks := wakeWaiter w.device.removed w.device.locks q
      -- the completion of the waiter is the last one, if there is one
      ⟨(locks.completed.drop w.device.locks.completed.length).head?.map (·.2), w.withLocks locks⟩
  | .configureTlb F io i =>
      let reply := ttIoctlConfigureTlb w.device.mem w.tlbRegs F io i
      w.gated F 13 ⟨some reply.1, { w with tlbRegs := reply.2 }⟩
  | .resetDevice F io i env =>
      let reply := ttIoctlResetDevice w.device F io i env
      w.gated F 6 ⟨some reply.status, { w with device := reply.device }⟩

/-- The state as if a request had not been made: a waiter has been completed, and that is
all. -/
def ControlWorld.without (w : ControlWorld) (status : NtStatus) : ControlRequest → ControlWorld
  | .woken q => w.withLocks { w.device.locks with
      completed := w.device.locks.completed ++ [(q, status)] }
  | _ => w

/-- If the request is completed with a failure, then it leaves no trace. -/
def FailsCleanly (w : ControlWorld) (r : ControlRequest) : Prop :=
  ∀ status, (w.serve r).status = some status → status ≠ .success →
    (w.serve r).world = w.without status r

/-- The `LOCK_CTL` requests that take their lock or free it at once. -/
def TakesOrFrees (s : LockState) (F : Handle) (io : Io) (i : LockCtlIn) : Prop :=
  12 ≤ io.input ∧ i.index < resourceLockCount ∧
    ((i.flags = 0 ∨ i.flags = 3) ∧ ¬ s.Held i.index ∨ i.flags = 1 ∧ s.Holds F i.index)

/-- The `RESET_DEVICE` requests that change nothing of the state: `RESTORE_STATE`, a link
reset without views to zap, a flavor that is not permitted, `POST_RESET` outside of a
reset window, an unknown flavor. -/
def ResetIdle (d : DeviceContext) (flags : ℕ) : Prop :=
  (flags = 1 → ∀ F ∈ d.fileList, ∀ v ∈ (d.mem.file F).mappings, v.isDmaBuf = true) ∧
    (2 ≤ flags ∧ flags ≤ 5 → ttResetLegacyFlagPermitted d flags = false) ∧
    (flags = 6 → d.needsHwInit = false)

/-- The failures that leave no trace. -/
def CleanWhen (w : ControlWorld) : ControlRequest → Prop
  | .lockCtl F io i _ =>
      ttCheckIoGates w.device F 8 ≠ .success ∨ 16 ≤ io.output ∨
        ¬ TakesOrFrees w.device.locks F io i
  | .woken q =>
      16 ≤ q.output ∨ w.device.removed q.file = true ∨ w.device.locks.Held q.index ∨
        resourceLockCount ≤ q.index
  | .configureTlb F io i =>
      ttCheckIoGates w.device F 13 ≠ .success ∨ 48 ≤ io.output ∨
        configureTlbCheck w.device.mem F io i ≠ .success ∨
        ∀ writes, ttBhConfigureUserTlb i.id i.config = .ok writes →
          ∀ write ∈ writes, w.tlbRegs write.1 = write.2
  | .resetDevice F io i _ =>
      ttCheckIoGates w.device F 6 ≠ .success ∨ 8 + i.outputSizeBytes ≤ io.output ∨
        io.input < 8 ∨ ResetIdle w.device i.flags

section Output

variable {io : Io} {off declared : ℕ}

/-- The input fits exactly when the buffer has room for it. -/
theorem ttCopyInBuffer_iff : ttCopyInBuffer io off = .success ↔ off ≤ io.input := by
  unfold ttCopyInBuffer
  split
  · simp only [reduceCtorEq, false_iff]
    omega
  · simp only [true_iff]
    omega

end Output

section Locks

variable {removed : Handle → Bool} {s t : LockState} {F : Handle} {q : LockRequest}

/-- A round completes a request or leaves the masks of the handles alone. -/
theorem wakeWaiter_completes (removed : Handle → Bool) (s : LockState) (q : LockRequest) :
    s.completed.length < (wakeWaiter removed s q).completed.length ∨
      ((wakeWaiter removed s q).completed.length = s.completed.length ∧
        (wakeWaiter removed s q).locksHeld = s.locksHeld) := by
  unfold wakeWaiter
  split
  · left
    simp
  rcases ttLockTryAcquire_cases s q.file q.index with ⟨_, hnone⟩ | ⟨t, hsome, _, _, hcompleted⟩
  · rw [hnone]
    exact .inr ⟨rfl, rfl⟩
  · rw [hsome]
    left
    simp [ttLockCompleteAcquired, hcompleted]

/-- A pass completes a request or leaves the masks of the handles alone. -/
theorem wake_completes (removed : Handle → Bool) (s : LockState) :
    s.completed.length < (ttLocksWakeWaiters removed s).completed.length ∨
      ((ttLocksWakeWaiters removed s).completed.length = s.completed.length ∧
        (ttLocksWakeWaiters removed s).locksHeld = s.locksHeld) := by
  have hfold : ∀ (batch : List LockRequest) (s : LockState),
      s.completed.length < (batch.foldl (wakeWaiter removed) s).completed.length ∨
        ((batch.foldl (wakeWaiter removed) s).completed.length = s.completed.length ∧
          (batch.foldl (wakeWaiter removed) s).locksHeld = s.locksHeld) := by
    intro batch
    induction batch with
    | nil => exact fun _ => .inr ⟨rfl, rfl⟩
    | cons q batch ih =>
      intro s
      rw [List.foldl_cons]
      rcases wakeWaiter_completes removed s q with hone | ⟨hone, hheld⟩
      · rcases ih (wakeWaiter removed s q) with hrest | ⟨hrest, _⟩
        · exact .inl (by omega)
        · exact .inl (by omega)
      · rcases ih (wakeWaiter removed s q) with hrest | ⟨hrest, hrestHeld⟩
        · exact .inl (by omega)
        · exact .inr ⟨hrest.trans hone, hrestHeld.trans hheld⟩
  exact hfold (s.lockWaitQueue.take lockWakeBatch)
    { s with lockWaitQueue := s.lockWaitQueue.drop lockWakeBatch }

/-- A release leaves a trace. -/
theorem Dropped.wake_ne {index : ℕ} (h : Dropped s t F (· = index)) :
    ttLocksWakeWaiters removed t ≠ s := by
  intro heq
  rcases wake_completes removed t with hlt | ⟨_, hheld⟩
  · rw [heq, h.completed] at hlt
    exact lt_irrefl _ hlt
  · have hkept : t.Holds F index := by
      unfold LockState.Holds
      rw [← hheld, heq]
      exact h.had index rfl
    exact ((h.holds F index).mp hkept).2 ⟨rfl, rfl⟩

/-- A lock that does not exist has no bit. -/
theorem lockBit_eq_zero {index : ℕ} (h : resourceLockCount ≤ index) : lockBit index = 0 := by
  apply BitVec.eq_of_getLsbD_eq
  intro i hi
  have hne : i ≠ index := by
    unfold resourceLockCount at h
    omega
  rw [getLsbD_lockBit]
  simp [hne]

/-- An acquisition leaves a trace. -/
theorem Acquired.ne {index : ℕ} (h : Acquired s t F index) (hindex : index < 64) : t ≠ s := by
  rintro rfl
  exact h.free ((h.held index).mpr (.inr ⟨rfl, hindex⟩))

end Locks

section Requests

variable {w : ControlWorld} {F : Handle} {io : Io}

/-- Other locks make another state. -/
theorem ControlWorld.withLocks_eq {locks : LockState} :
    w.withLocks locks = w ↔ locks = w.device.locks := by
  constructor
  · intro h
    exact congrArg (fun w : ControlWorld => w.device.locks) h
  · rintro rfl
    rfl

/-- A request that the gate refuses leaves no trace. -/
theorem gated_clean {nr : ℕ} {reply : ControlReply} :
    (∀ status, (w.gated F nr reply).status = some status → status ≠ .success →
        (w.gated F nr reply).world = w) ↔
      ttCheckIoGates w.device F nr ≠ .success ∨
        ∀ status, reply.status = some status → status ≠ .success → reply.world = w := by
  unfold ControlWorld.gated
  by_cases hgate : ttCheckIoGates w.device F nr = .success
  · simp [hgate]
  · rw [if_pos hgate]
    simp [hgate]

/-- `LOCK_CTL`, when it is completed at once. -/
theorem lockCtl_clean_iff (w : ControlWorld) (F : Handle) (io : Io) (i : LockCtlIn)
    (env : LockEnv) :
    FailsCleanly w (.lockCtl F io i env) ↔ CleanWhen w (.lockCtl F io i env) := by
  refine gated_clean.trans (or_congr_right ?_)
  simp only [ControlWorld.withLocks_eq]
  rcases ttIoctlLockCtl_effect w.device.removed w.device.locks F io i env with
    ⟨hno, hlocks, hpended, -⟩ | ⟨hchanges, hflags, hacq, -, hreply⟩ |
      ⟨hchanges, hflags, t, hdrop, hreply⟩ | ⟨-, hflags, hheld, hreply⟩
  · have hnone : ¬ TakesOrFrees w.device.locks F io i := by
      rintro ⟨hread, hindex, ⟨h0 | h3, hfree⟩ | hholds⟩
      · exact hno ⟨hread, hindex, .inl ⟨h0, hfree⟩⟩
      · exact hno ⟨hread, hindex, .inr (.inr ⟨h3, .inl hfree⟩)⟩
      · exact hno ⟨hread, hindex, .inr (.inl hholds)⟩
    exact ⟨fun _ => .inr hnone, fun _ _ _ _ => hlocks⟩
  · have htakes : TakesOrFrees w.device.locks F io i :=
      ⟨hchanges.1, hchanges.2.1, .inl ⟨hflags, hacq.free⟩⟩
    have hne := hacq.ne hchanges.2.1
    rw [hreply]
    simp only [LockReply.complete, htakes, hne, not_true, or_false, Bool.false_eq_true, if_false,
      Option.some.injEq, forall_eq', imp_false, not_not, ttCompleteSizedOutBuffer_iff]
  · have htakes : TakesOrFrees w.device.locks F io i :=
      ⟨hchanges.1, hchanges.2.1, .inr ⟨hflags, hdrop.had _ rfl⟩⟩
    have hne : ttLocksWakeWaiters w.device.removed t ≠ w.device.locks := hdrop.wake_ne
    rw [hreply]
    simp only [LockReply.complete, htakes, hne, not_true, or_false, Bool.false_eq_true, if_false,
      Option.some.injEq, forall_eq', imp_false, not_not, ttCompleteSizedOutBuffer_iff]
  · have hnone : ¬ TakesOrFrees w.device.locks F io i := by
      rintro ⟨-, -, ⟨-, hfree⟩ | ⟨h1, -⟩⟩
      · exact hfree hheld
      · omega
    rw [hreply]
    simp [hnone]

/-- The completion of a waiter by the wake loop. -/
theorem woken_clean_iff (w : ControlWorld) (q : LockRequest) :
    FailsCleanly w (.woken q) ↔ CleanWhen w (.woken q) := by
  unfold FailsCleanly ControlWorld.serve CleanWhen
  dsimp only [ControlWorld.without]
  cases hrem : w.device.removed q.file with
  | true =>
    simp [wakeWaiter, hrem]
  | false =>
    by_cases hheld : w.device.locks.Held q.index
    · simp [wakeWaiter, hrem, ttLockTryAcquire_of_held hheld, hheld]
    · have hwake : wakeWaiter w.device.removed w.device.locks q =
          ttLockCompleteAcquired { w.device.locks with
            resourceLockHeld := w.device.locks.resourceLockHeld ||| lockBit q.index
            locksHeld := Function.update w.device.locks.locksHeld q.file
              (w.device.locks.locksHeld q.file ||| lockBit q.index) } q := by
        simp [wakeWaiter, hrem, ttLockTryAcquire_of_free hheld]
      rw [hwake]
      by_cases hout : q.output < 16
      · have hlong : ¬ 16 ≤ q.output := not_le.mpr hout
        simp only [ttLockCompleteAcquired, hout, hlong, hheld, if_true, Bool.false_eq_true,
          false_or, List.drop_left, List.head?_cons, Option.map_some, Option.some.injEq,
          forall_eq', ne_eq, reduceCtorEq, not_false_eq_true, true_implies]
        constructor
        · intro heq
          by_contra hindex
          have hmask : w.device.locks.resourceLockHeld ||| lockBit q.index =
              w.device.locks.resourceLockHeld :=
            congrArg (fun w : ControlWorld => w.device.locks.resourceLockHeld) heq
          have hbit : (w.device.locks.resourceLockHeld ||| lockBit q.index) &&&
              lockBit q.index ≠ 0 := or_lockBit.mpr (.inr ⟨rfl, not_le.mp hindex⟩)
          rw [hmask] at hbit
          exact hheld hbit
        · intro hindex
          have hzero : ∀ x : BitVec 64, x ||| lockBit q.index = x := by
            intro x
            rw [lockBit_eq_zero hindex]
            simp
          simp only [hzero, Function.update_eq_self]
      · have hlong : 16 ≤ q.output := not_lt.mp hout
        simp [ttLockCompleteAcquired, hout, hlong]

/-- Writing words that are there already changes nothing, and other words are a change. -/
theorem writeRegs_eq_self_iff {regs : ℕ → ℕ} {writes : List (ℕ × ℕ)}
    (hnodup : (writes.map (·.1)).Nodup) :
    writeRegs regs writes = regs ↔ ∀ write ∈ writes, regs write.1 = write.2 := by
  induction writes generalizing regs with
  | nil => simp [writeRegs]
  | cons write writes ih =>
    obtain ⟨hnot, hrest⟩ := List.nodup_cons.mp hnodup
    have hcons : writeRegs regs (write :: writes) =
        writeRegs (Function.update regs write.1 write.2) writes := rfl
    rw [hcons]
    constructor
    · intro heq
      have hfirst : regs write.1 = write.2 := by
        rw [← heq, writeRegs_of_notMem hnot, Function.update_self]
      rw [← hfirst, Function.update_eq_self] at heq
      intro write' hmem
      rcases List.mem_cons.mp hmem with rfl | hmem
      · exact hfirst
      · exact (ih hrest).mp heq write' hmem
    · intro hall
      rw [← hall write (List.mem_cons_self ..), Function.update_eq_self]
      exact (ih hrest).mpr fun write' hmem => hall write' (List.mem_cons_of_mem _ hmem)

/-- The registers of a window are different. -/
theorem windowOffsets_nodup {id : ℕ} (hid : id < tlbTotal) : (windowOffsets id).Nodup := by
  unfold tlbTotal tlb2mCount at hid
  unfold windowOffsets wordOffsets stridedWrites tlb2mCount
  by_cases hstrided : id < 32
  · simp only [hstrided, if_true, List.map_cons, List.map_nil, List.cons_append, List.nil_append,
      List.nodup_cons, List.mem_cons, List.not_mem_nil, or_false, not_or, List.nodup_nil,
      not_false_eq_true, and_true]
    omega
  · simp only [hstrided, if_false, List.map_nil, List.append_nil, List.nodup_cons, List.mem_cons,
      List.not_mem_nil, or_false, not_or, List.nodup_nil, not_false_eq_true, and_true]
    omega

/-- `CONFIGURE_TLB`. -/
theorem configureTlb_clean_iff (w : ControlWorld) (F : Handle) (io : Io) (i : ConfigureTlbIn) :
    FailsCleanly w (.configureTlb F io i) ↔ CleanWhen w (.configureTlb F io i) := by
  refine gated_clean.trans (or_congr_right ?_)
  have hregs : ∀ regs, ({ w with tlbRegs := regs } : ControlWorld) = w ↔ regs = w.tlbRegs := by
    intro regs
    constructor
    · intro h
      exact congrArg ControlWorld.tlbRegs h
    · rintro rfl
      rfl
  simp only [hregs, Option.some.injEq, forall_eq']
  unfold ttIoctlConfigureTlb
  by_cases hcheck : configureTlbCheck w.device.mem F io i = .success
  swap
  · simp [hcheck]
  obtain ⟨hid, -, -⟩ := configureTlbCheck_eq_success hcheck
  simp only [hcheck, ne_eq, not_true, if_false, false_or]
  cases hwrites : ttBhConfigureUserTlb i.id i.config with
  | error status => simp
  | ok writes =>
    have hnodup : (writes.map (·.1)).Nodup := by
      rw [ttBhConfigureUserTlb_offsets hwrites]
      exact windowOffsets_nodup hid
    simp only [Except.ok.injEq, forall_eq', writeRegs_eq_self_iff hnodup,
      ttCompleteSizedOutBuffer_iff]
    exact or_iff_not_imp_left.symm

/-- `TtResetZapMappings` changes nothing exactly when there is no view to zap. -/
theorem zap_eq_self_iff {m : MemoryState} {fileList : List Handle} :
    ttResetZapMappings m fileList = m ↔
      ∀ F ∈ fileList, ∀ v ∈ (m.file F).mappings, v.isDmaBuf = true := by
  constructor
  · intro heq F hF v hv
    have hkept : v ∈ ((ttResetZapMappings m fileList).file F).mappings := by rwa [heq]
    exact (mem_zapAll.mp hkept).2 hF
  · intro hall
    unfold ttResetZapMappings
    induction fileList with
    | nil => rfl
    | cons F rest ih =>
      have hone : zapFile m F = m := by
        unfold zapFile MemoryState.setFile
        have hfilter : (m.file F).mappings.filter (fun v => v.isDmaBuf) = (m.file F).mappings :=
          List.filter_eq_self.mpr (hall F (List.mem_cons_self ..))
        dsimp only
        rw [hfilter, Function.update_eq_self]
      rw [List.foldl_cons, hone]
      exact ih fun G hG => hall G (List.mem_cons_of_mem _ hG)

/-- A bump leaves a trace. -/
theorem bump_ne (d : DeviceContext) (F : Handle) (hw : Bool) :
    ({ (ttBumpResetGen d F).zap with needsHwInit := hw } : DeviceContext) ≠ d := by
  intro heq
  have hgen : d.resetGen + 1 = d.resetGen := congrArg DeviceContext.resetGen heq
  omega

/-- A flavor that may bump the generation leaves no trace exactly when it is refused. -/
theorem bumpingReset_eq_self_iff (d : DeviceContext) (F : Handle) (flags : ℕ) (ok hw : Bool) :
    (bumpingReset d F flags ok hw).2 = d ↔ ttResetLegacyFlagPermitted d flags = false := by
  rcases bumpingReset_cases d F flags ok hw with ⟨hpermit, hres⟩ | ⟨hpermit, hres⟩
  · rw [hres, hpermit]
    exact ⟨fun _ => rfl, fun _ => rfl⟩
  · rw [hres, hpermit]
    simp [bump_ne]

/-- The flavors that change nothing of the state. -/
theorem resetFlavor_idle_iff {d d' : DeviceContext} {F : Handle} {env : ResetEnv} {flags : ℕ}
    {ok : Bool} (h : resetFlavor d F env flags = some (ok, d')) :
    d' = d ↔ ResetIdle d flags := by
  -- the flavors from 2 to 5
  have hbump : ∀ n, 2 ≤ n ∧ n ≤ 5 → ∀ ok' hw,
      some (bumpingReset d F n ok' hw) = some (ok, d') → (d' = d ↔ ResetIdle d n) := by
    intro n hn ok' hw heq
    have hd' : d' = (bumpingReset d F n ok' hw).2 := by rw [Option.some.inj heq]
    rw [hd', bumpingReset_eq_self_iff]
    have h1 : n ≠ 1 := by omega
    have h6 : n ≠ 6 := by omega
    simp [ResetIdle, h1, h6, hn]
  unfold resetFlavor at h
  split at h
  · cases h
    simp [ResetIdle]
  · cases h
    have hzap : d.zap = d ↔ ttResetZapMappings d.mem d.fileList = d.mem := by
      constructor
      · intro heq
        exact congrArg DeviceContext.mem heq
      · intro heq
        unfold DeviceContext.zap
        rw [heq]
    rw [hzap, zap_eq_self_iff]
    simp [ResetIdle]
  · exact hbump 2 (by omega) _ _ h
  · exact hbump 3 (by omega) _ _ h
  · exact hbump 4 (by omega) _ _ h
  · exact hbump 5 (by omega) _ _ h
  · split at h
    · rename_i hneeds
      cases h
      have hne : ({ d with needsHwInit := false } : DeviceContext) ≠ d := by
        intro heq
        have hflag : false = d.needsHwInit := congrArg DeviceContext.needsHwInit heq
        rw [hneeds] at hflag
        cases hflag
      simp [ResetIdle, hne, hneeds]
    · rename_i hneeds
      cases h
      simp [ResetIdle, hneeds]
  · cases h

/-- A flavor that does not exist. -/
theorem resetIdle_of_none {d : DeviceContext} {F : Handle} {env : ResetEnv} {flags : ℕ}
    (h : resetFlavor d F env flags = none) : ResetIdle d flags := by
  have hlarge : 7 ≤ flags := by
    by_contra hlt
    have hcases : flags = 0 ∨ flags = 1 ∨ flags = 2 ∨ flags = 3 ∨ flags = 4 ∨ flags = 5 ∨
      flags = 6 := by omega
    rcases hcases with rfl | rfl | rfl | rfl | rfl | rfl | rfl
    · cases h
    · cases h
    · cases h
    · cases h
    · cases h
    · cases h
    · simp only [resetFlavor] at h
      split at h <;> cases h
  refine ⟨?_, ?_, ?_⟩ <;> intro hflags <;> omega

/-- `RESET_DEVICE`. -/
theorem resetDevice_clean_iff (w : ControlWorld) (F : Handle) (io : Io) (i : ResetIn)
    (env : ResetEnv) :
    FailsCleanly w (.resetDevice F io i env) ↔ CleanWhen w (.resetDevice F io i env) := by
  refine gated_clean.trans (or_congr_right ?_)
  have hdevice : ∀ d, ({ w with device := d } : ControlWorld) = w ↔ d = w.device := by
    intro d
    constructor
    · intro h
      exact congrArg ControlWorld.device h
    · rintro rfl
      rfl
  simp only [hdevice, Option.some.injEq, forall_eq']
  unfold ttIoctlResetDevice
  by_cases hin : ttCopyInBuffer io 8 = .success
  swap
  · have hshort : io.input < 8 := by
      by_contra hlong
      exact hin (ttCopyInBuffer_iff.mpr (not_lt.mp hlong))
    simp [hin, hshort]
  have hlong : ¬ io.input < 8 := not_lt.mpr (ttCopyInBuffer_iff.mp hin)
  simp only [hin, ne_eq, not_true, if_false, hlong, false_or]
  cases hflavor : resetFlavor w.device F env i.flags with
  | none => simp [resetIdle_of_none hflavor]
  | some res =>
    obtain ⟨ok, d'⟩ := res
    simp only [resetFlavor_idle_iff hflavor, ttCompleteSizedOutBuffer_iff]
    exact or_iff_not_imp_left.symm

/-- For every state, input and buffer length, a control request that is completed with a
failure leaves no trace exactly when its output fits or it does nothing in this state. -/
theorem failed_control_iff (w : ControlWorld) (r : ControlRequest) :
    FailsCleanly w r ↔ CleanWhen w r := by
  cases r with
  | lockCtl F io i env => exact lockCtl_clean_iff w F io i env
  | woken q => exact woken_clean_iff w q
  | configureTlb F io i => exact configureTlb_clean_iff w F io i
  | resetDevice F io i env => exact resetDevice_clean_iff w F io i env

end Requests

/-- A started device with one open handle. -/
def oneHandle : ControlWorld := ⟨ttEvtDeviceFileCreate startedBlackhole 7, fun _ => 0⟩

/-- `ACQUIRE` of lock 5 with an output buffer of 12 bytes fails, and it takes the lock. -/
theorem failed_control_leaves_traces :
    ¬ ∀ w r, FailsCleanly w r := by
  intro h
  have hclean := h oneHandle (.lockCtl 0 ⟨12, 12⟩ ⟨0, 5⟩ ⟨.success, .success⟩) .accessViolation
    (by decide +kernel) (by decide)
  have hmask := congrArg (fun w : ControlWorld => w.device.locks.resourceLockHeld) hclean
  revert hmask
  decide +kernel

end TtKmd
