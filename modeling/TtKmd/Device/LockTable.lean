import TtKmd.Device.Waiters
import TtKmd.Locks.Holders

/-!
# The lock table along a run

The sections under `LockLock` as steps: a `LOCK_CTL` request, a pass of its own (a reset
that bumps the generation, a surprise removal), the release of everything a handle holds,
a cancellation, and a loser of a pass that the queue does not take back. A handle may
take a step after its cleanup, since nothing in a section asks whether the handle is open.
The steps of a device are steps of this system.

The reply of `TtIoctlLockCtl` is written after the section. If the output buffer is too
short for it, the request fails and its effect on the table stays.
-/

namespace TtKmd

open Lib

/-- The lock table, and the number of handles opened so far. -/
structure LockWorld where
  /-- The locks. -/
  locks : LockState
  /-- The number of the next file object. -/
  nextFile : ℕ

/-- The sections under `LockLock`. -/
inductive LockEvent
  /-- A handle is opened. -/
  | create
  /-- `TtIoctlLockCtl`. -/
  | lockCtl (F : Handle) (removed : Handle → Bool) (io : Io) (i : LockCtlIn) (env : LockEnv)
  /-- `TtLocksWakeWaiters` alone. -/
  | wake (removed : Handle → Bool)
  /-- `TtLocksReleaseAll`. -/
  | releaseAll (F : Handle) (removed : Handle → Bool)
  /-- The framework cancels a pended request. -/
  | cancel (k : ℕ)
  /-- A pass cannot forward a request back to the queue. -/
  | requeueFails (k : ℕ) (fwd : NtStatus)

/-- A request that a pass put back is completed with the status of the forward instead. -/
def failRequeue (s : LockState) (k : ℕ) (fwd : NtStatus) : LockState :=
  { s with
    lockWaitQueue := s.lockWaitQueue.eraseIdx k,
    completed := s.completed ++ (s.lockWaitQueue.drop k).head?.toList.map (·, fwd) }

/-- One section; `none` is an event that cannot happen. -/
def LockWorld.next (w : LockWorld) : LockEvent → Option LockWorld
  | .create => some { w with nextFile := w.nextFile + 1 }
  | .lockCtl F removed io i env =>
      if F < w.nextFile then
        some { w with locks := (ttIoctlLockCtl removed w.locks F io i env).locks }
      else none
  | .wake removed => some { w with locks := ttLocksWakeWaiters removed w.locks }
  | .releaseAll F removed =>
      if F < w.nextFile then some { w with locks := ttLocksReleaseAll removed w.locks F } else none
  | .cancel k => some { w with locks := cancelWaiter w.locks k }
  | .requeueFails k fwd => some { w with locks := failRequeue w.locks k fwd }

/-- The table before the first open. -/
def LockWorld.init : LockWorld := ⟨.init, 0⟩

section Requests

variable {removed : Handle → Bool} {s : LockState} {n : ℕ} {F : Handle} {io : Io} {i : LockCtlIn}
  {env : LockEnv}

/-- The request takes its lock, frees it or waits for it. -/
def ChangesTable (s : LockState) (F : Handle) (io : Io) (i : LockCtlIn) (env : LockEnv) : Prop :=
  12 ≤ io.input ∧ i.index < resourceLockCount ∧
    (i.flags = 0 ∧ ¬ s.Held i.index ∨ i.flags = 1 ∧ s.Holds F i.index ∨
      i.flags = 3 ∧ (¬ s.Held i.index ∨ env.context = .success ∧ env.forward = .success))

/-- The answer of `TEST`. -/
def testValue (s : LockState) (F : Handle) (index : ℕ) : ℕ :=
  (if s.Held index then 2 else 0) + if s.Holds F index then 1 else 0

/-- What a `LOCK_CTL` request does. -/
inductive LockCtlEffect (removed : Handle → Bool) (s : LockState) (F : Handle) (io : Io)
    (i : LockCtlIn) (env : LockEnv) (r : LockReply) : Prop
  /-- The table stays as it is, and the answer is that of `TEST` or 0. -/
  | kept (hno : ¬ ChangesTable s F io i env) (hlocks : r.locks = s) (hpended : r.pended = false)
      (hvalue : r.status = .success → r.value = if i.flags = 2 then testValue s F i.index else 0)
  /-- The lock is taken. -/
  | taken (hchanges : ChangesTable s F io i env) (hflags : i.flags = 0 ∨ i.flags = 3)
      (hacq : Acquired s r.locks F i.index) (hqueue : r.locks.lockWaitQueue = s.lockWaitQueue)
      (hreply : r = .complete io r.locks 1)
  /-- The lock is freed, and a pass follows. -/
  | freed (hchanges : ChangesTable s F io i env) (hflags : i.flags = 1) (t : LockState)
      (hdrop : Dropped s t F (· = i.index))
      (hreply : r = .complete io (ttLocksWakeWaiters removed t) 1)
  /-- The request waits for its lock. -/
  | waits (hchanges : ChangesTable s F io i env) (hflags : i.flags = 3) (hheld : s.Held i.index)
      (hreply : r = ⟨.success, true, 0, { s with
        lockWaitQueue := s.lockWaitQueue ++ [⟨F, i.index, io.output⟩] }⟩)

/-- A request that fails before its section. -/
theorem LockCtlEffect.refused {status : NtStatus} (hno : ¬ ChangesTable s F io i env)
    (hstatus : status ≠ .success) : LockCtlEffect removed s F io i env ⟨status, false, 0, s⟩ :=
  .kept hno rfl rfl fun h => absurd h hstatus

/-- `ACQUIRE`. -/
theorem lockCtlAcquire_effect (hread : 12 ≤ io.input) (hindex : i.index < resourceLockCount)
    (hflags : i.flags = 0) :
    LockCtlEffect removed s F io i env (lockCtlAcquire s F io i.index) := by
  unfold lockCtlAcquire
  rcases ttLockTryAcquire_cases s F i.index with ⟨hheld, hnone⟩ | ⟨t, hsome, hacq, hqueue, -⟩
  · rw [hnone]
    refine .kept ?_ rfl rfl fun _ => by simp [hflags, LockReply.complete]
    rintro ⟨-, -, hkinds⟩
    simp [hflags, hheld] at hkinds
  · rw [hsome]
    exact .taken ⟨hread, hindex, .inl ⟨hflags, hacq.free⟩⟩ (.inl hflags) hacq hqueue rfl

/-- `RELEASE`. -/
theorem lockCtlRelease_effect (hread : 12 ≤ io.input) (hindex : i.index < resourceLockCount)
    (hflags : i.flags = 1) :
    LockCtlEffect removed s F io i env (lockCtlRelease removed s F io i.index) := by
  unfold lockCtlRelease
  by_cases hholds : s.Holds F i.index
  · have hmask : s.locksHeld F &&& lockBit i.index ≠ 0 := hholds
    rw [if_pos hmask]
    exact .freed ⟨hread, hindex, .inr (.inl ⟨hflags, hholds⟩)⟩ hflags _ (dropped_release hholds) rfl
  · have hmask : ¬ s.locksHeld F &&& lockBit i.index ≠ 0 := hholds
    rw [if_neg hmask]
    refine .kept ?_ rfl rfl fun _ => by simp [hflags, LockReply.complete]
    rintro ⟨-, -, hkinds⟩
    simp [hflags, hholds] at hkinds

/-- `TEST`. -/
theorem lockCtlTest_effect (hflags : i.flags = 2) :
    LockCtlEffect removed s F io i env (lockCtlTest s F io i.index) := by
  refine .kept ?_ rfl rfl ?_
  · rintro ⟨-, -, hkinds⟩
    simp [hflags] at hkinds
  · intro _
    rw [if_pos hflags]
    rfl

/-- `ACQUIRE_BLOCKING`. -/
theorem lockCtlAcquireBlocking_effect (hread : 12 ≤ io.input)
    (hindex : i.index < resourceLockCount) (hflags : i.flags = 3) :
    LockCtlEffect removed s F io i env (lockCtlAcquireBlocking s F io i.index env) := by
  unfold lockCtlAcquireBlocking
  rcases ttLockTryAcquire_cases s F i.index with ⟨hheld, hnone⟩ | ⟨t, hsome, hacq, hqueue, -⟩
  · rw [hnone]
    dsimp only
    split
    · rename_i hcontext
      refine .refused ?_ hcontext
      rintro ⟨-, -, hkinds⟩
      simp [hflags, hheld, hcontext] at hkinds
    rename_i hcontext
    split
    · rename_i hforward
      refine .refused ?_ hforward
      rintro ⟨-, -, hkinds⟩
      simp [hflags, hheld, hforward] at hkinds
    · rename_i hforward
      exact .waits ⟨hread, hindex, .inr (.inr ⟨hflags,
        .inr ⟨not_not.mp hcontext, not_not.mp hforward⟩⟩)⟩ hflags hheld rfl
  · rw [hsome]
    exact .taken ⟨hread, hindex, .inr (.inr ⟨hflags, .inl hacq.free⟩)⟩ (.inr hflags) hacq hqueue rfl

/-- Everything `TtIoctlLockCtl` can do. -/
theorem ttIoctlLockCtl_effect (removed : Handle → Bool) (s : LockState) (F : Handle) (io : Io)
    (i : LockCtlIn) (env : LockEnv) :
    LockCtlEffect removed s F io i env (ttIoctlLockCtl removed s F io i env) := by
  unfold ttIoctlLockCtl
  split
  · rename_i hin
    refine .refused ?_ (by decide)
    rintro ⟨hread, -⟩
    exact hin (if_neg (not_lt.mpr hread))
  rename_i hin
  have hread : 12 ≤ io.input := by
    by_contra hshort
    exact hin (by simp [ttCopyInBuffer, not_le.mp hshort])
  split
  · refine .refused ?_ (by decide)
    rintro ⟨-, hlt, -⟩
    omega
  have hindex : i.index < resourceLockCount := by omega
  split
  · exact lockCtlAcquire_effect hread hindex ‹_›
  · exact lockCtlRelease_effect hread hindex ‹_›
  · exact lockCtlTest_effect ‹_›
  · exact lockCtlAcquireBlocking_effect hread hindex ‹_›
  · rename_i h0 h1 _ h3
    refine .refused ?_ (by decide)
    rintro ⟨-, -, ⟨h, -⟩ | ⟨h, -⟩ | ⟨h, -⟩⟩
    · exact h0 h
    · exact h1 h
    · exact h3 h

/-- A request keeps the table consistent. -/
theorem LockState.Consistent.lockCtl (h : s.Consistent n) (hF : F < n) :
    (ttIoctlLockCtl removed s F io i env).locks.Consistent n := by
  rcases ttIoctlLockCtl_effect removed s F io i env with
    ⟨-, hlocks, -, -⟩ | ⟨-, -, hacq, hqueue, -⟩ | ⟨-, -, t, hdrop, hreply⟩ |
      ⟨hchanges, -, -, hreply⟩
  · rw [hlocks]
    exact h
  · apply h.acquired hacq hF
    rw [hqueue]
    exact fun _ hq => hq
  · rw [hreply]
    exact (h.dropped hdrop).wake
  · rw [hreply]
    refine h.congr rfl rfl ?_
    intro q hq
    rcases List.mem_append.mp hq with hq | hq
    · exact h.waiting q hq
    · rw [List.mem_singleton.mp hq]
      exact ⟨hF, hchanges.2.1⟩

/-- The request is answered with a value. -/
def LockReply.Reports (r : LockReply) (value : ℕ) : Prop :=
  r.status = .success ∧ r.pended = false ∧ r.value = value

instance (r : LockReply) (value : ℕ) : Decidable (r.Reports value) :=
  inferInstanceAs (Decidable (_ ∧ _ ∧ _))

/-- The answers of a `LOCK_CTL` request agree with what it does to the table. -/
structure ReportsExactly (s : LockState) (F : Handle) (i : LockCtlIn) (r : LockReply) : Prop where
  /-- `ACQUIRE` and `ACQUIRE_BLOCKING` report 1 exactly when the lock was free and is now
  held by the caller. -/
  acquire : i.flags = 0 ∨ i.flags = 3 →
    (r.Reports 1 ↔ ¬ s.Held i.index ∧ r.locks.Holds F i.index)
  /-- `RELEASE` reports 1 exactly when the caller held the lock. -/
  release : i.flags = 1 → (r.Reports 1 ↔ s.Holds F i.index)
  /-- It then frees that lock only, and wakes waiters. -/
  frees : i.flags = 1 → r.Reports 1 → ∃ t fresh, Dropped s t F (· = i.index) ∧
    Woken s.lockWaitQueue t r.locks fresh
  /-- The bits of the answer of `TEST`. -/
  test : i.flags = 2 → ∀ value, r.Reports value →
    (value.testBit 0 = true ↔ s.Holds F i.index) ∧ (value.testBit 1 = true ↔ s.Held i.index) ∧
      r.locks = s
  /-- A request that fails changes nothing. -/
  failed : r.status ≠ .success → r.locks = s

/-- The bits of the answer of `TEST`. -/
theorem testValue_bits (s : LockState) (F : Handle) (index : ℕ) :
    ((testValue s F index).testBit 0 = true ↔ s.Holds F index) ∧
      ((testValue s F index).testBit 1 = true ↔ s.Held index) := by
  unfold testValue
  by_cases hheld : s.Held index <;> by_cases hholds : s.Holds F index <;> simp [hheld, hholds] <;>
    decide

/-- With room for the answer, a request reports exactly what it does. -/
theorem reportsExactly (h : s.Consistent n) (hqueue : ∀ q ∈ s.lockWaitQueue, q.Fits)
    (hread : 12 ≤ io.input) (hindex : i.index < resourceLockCount)
    (hfits : ChangesTable s F io i env → 16 ≤ io.output) :
    ReportsExactly s F i (ttIoctlLockCtl removed s F io i env) := by
  rcases ttIoctlLockCtl_effect removed s F io i env with
    ⟨hno, hlocks, hpended, hvalue⟩ | ⟨hchanges, hflags, hacq, -, hreply⟩ |
      ⟨hchanges, hflags, t, hdrop, hreply⟩ | ⟨hchanges, hflags, hheld, hreply⟩
  · have hnone : i.flags ≠ 2 → ¬ (ttIoctlLockCtl removed s F io i env).Reports 1 := by
      rintro hflags ⟨hstatus, -, hone⟩
      have hzero := hvalue hstatus
      rw [if_neg hflags] at hzero
      omega
    refine ⟨?_, ?_, ?_, ?_, fun _ => hlocks⟩
    · intro hflags
      refine iff_of_false (hnone (by omega)) ?_
      rintro ⟨hfree, hholds⟩
      rw [hlocks] at hholds
      exact hfree ((h.held_iff _).mpr ⟨F, hholds⟩)
    · intro hflags
      refine iff_of_false (hnone (by omega)) fun hholds => hno ?_
      exact ⟨hread, hindex, .inr (.inl ⟨hflags, hholds⟩)⟩
    · intro hflags hone
      exact absurd hone (hnone (by omega))
    · rintro hflags value ⟨hstatus, -, rfl⟩
      rw [hvalue hstatus, if_pos hflags]
      obtain ⟨hholds, hheld⟩ := testValue_bits s F i.index
      exact ⟨hholds, hheld, hlocks⟩
  · have hstatus : ttCompleteSizedOutBuffer io 12 4 = .success :=
      ttCompleteSizedOutBuffer_iff.mpr (hfits hchanges)
    rw [hreply]
    refine ⟨?_, ?_, ?_, ?_, ?_⟩
    · intro _
      refine iff_of_true ⟨hstatus, rfl, rfl⟩ ⟨hacq.free, ?_⟩
      exact (hacq.holds _ _).mpr (.inr ⟨rfl, rfl, hindex⟩)
    · intro h1
      omega
    · intro h1
      omega
    · intro h2
      omega
    · exact fun hfail => absurd hstatus hfail
  · have hstatus : ttCompleteSizedOutBuffer io 12 4 = .success :=
      ttCompleteSizedOutBuffer_iff.mpr (hfits hchanges)
    rw [hreply]
    refine ⟨?_, ?_, ?_, ?_, ?_⟩
    · intro h03
      omega
    · intro _
      exact iff_of_true ⟨hstatus, rfl, rfl⟩ (hdrop.had _ rfl)
    · intro _ _
      have hqueue' : ∀ q ∈ t.lockWaitQueue, q.Fits := by
        rw [hdrop.queue]
        exact hqueue
      obtain ⟨fresh, hpass⟩ := woken_wake hqueue'
      rw [hdrop.queue] at hpass
      exact ⟨t, fresh, hdrop, hpass⟩
    · intro h2
      omega
    · exact fun hfail => absurd hstatus hfail
  · rw [hreply]
    refine ⟨?_, ?_, ?_, ?_, ?_⟩
    · intro _
      refine iff_of_false ?_ fun hfree => hfree.1 hheld
      rintro ⟨-, hpended, -⟩
      cases hpended
    · intro h1
      omega
    · intro h1
      omega
    · intro h2
      omega
    · exact fun hfail => absurd rfl hfail

end Requests

section Runs

variable {removed : Handle → Bool} {s : LockState} {w w' : LockWorld} {e : LockEvent}

/-- A `LOCK_CTL` request that takes its lock, frees it or waits for it has room for the
answer. -/
def FitsOutput (w : LockWorld) : LockEvent → Prop
  | .lockCtl F _ io i env => ChangesTable w.locks F io i env → 16 ≤ io.output
  | _ => True

/-- A pass leaves waiters only that were there before. -/
theorem mem_of_mem_wake {q : LockRequest}
    (hq : q ∈ (ttLocksWakeWaiters removed s).lockWaitQueue) : q ∈ s.lockWaitQueue := by
  obtain ⟨losers, hsub, hqueue, -⟩ := ttLocksWakeWaiters_queue removed s
  rw [hqueue] at hq
  rcases List.mem_append.mp hq with hq | hq
  · exact List.mem_of_mem_drop hq
  · exact List.mem_of_mem_take (hsub.subset hq)

/-- A section keeps the table consistent. -/
theorem LockState.Consistent.next (h : w.locks.Consistent w.nextFile)
    (hstep : w.next e = some w') : w'.locks.Consistent w'.nextFile := by
  cases e with
  | create =>
    rw [← Option.some.inj hstep]
    refine ⟨h.held_iff, h.single, ?_, ?_⟩
    · exact fun F i hF => (h.opened F i hF).trans (Nat.lt_succ_self _)
    · exact fun q hq => ⟨(h.waiting q hq).1.trans (Nat.lt_succ_self _), (h.waiting q hq).2⟩
  | lockCtl F removed io i env =>
    obtain ⟨hF, rfl⟩ := guard_of_eq_some hstep
    exact h.lockCtl hF
  | wake removed =>
    rw [← Option.some.inj hstep]
    exact h.wake
  | releaseAll F removed =>
    obtain ⟨-, rfl⟩ := guard_of_eq_some hstep
    exact (h.dropped (dropped_all w.locks F)).wake
  | cancel k =>
    rw [← Option.some.inj hstep]
    exact h.congr rfl rfl fun q hq => h.waiting q (List.mem_of_mem_eraseIdx hq)
  | requeueFails k fwd =>
    rw [← Option.some.inj hstep]
    exact h.congr rfl rfl fun q hq => h.waiting q (List.mem_of_mem_eraseIdx hq)

/-- A section that meets the condition leaves waiters only whose buffers hold the answer. -/
theorem fits_next (h : ∀ q ∈ w.locks.lockWaitQueue, q.Fits) (hfits : FitsOutput w e)
    (hstep : w.next e = some w') : ∀ q ∈ w'.locks.lockWaitQueue, q.Fits := by
  cases e with
  | create =>
    rw [← Option.some.inj hstep]
    exact h
  | lockCtl F removed io i env =>
    obtain ⟨-, rfl⟩ := guard_of_eq_some hstep
    intro q hq
    rcases ttIoctlLockCtl_effect removed w.locks F io i env with
      ⟨-, hlocks, -, -⟩ | ⟨-, -, -, hqueue, -⟩ | ⟨-, -, t, hdrop, hreply⟩ | ⟨hchanges, -, -, hreply⟩
    · rw [hlocks] at hq
      exact h q hq
    · rw [hqueue] at hq
      exact h q hq
    · rw [hreply] at hq
      have hq := mem_of_mem_wake hq
      rw [hdrop.queue] at hq
      exact h q hq
    · rw [hreply] at hq
      rcases List.mem_append.mp hq with hq | hq
      · exact h q hq
      · rw [List.mem_singleton.mp hq]
        exact ⟨hfits hchanges, hchanges.2.1⟩
  | wake removed =>
    rw [← Option.some.inj hstep]
    exact fun q hq => h q (mem_of_mem_wake hq)
  | releaseAll F removed =>
    obtain ⟨-, rfl⟩ := guard_of_eq_some hstep
    intro q hq
    have hbefore := mem_of_mem_wake hq
    exact h q hbefore
  | cancel k =>
    rw [← Option.some.inj hstep]
    exact fun q hq => h q (List.mem_of_mem_eraseIdx hq)
  | requeueFails k fwd =>
    rw [← Option.some.inj hstep]
    exact fun q hq => h q (List.mem_of_mem_eraseIdx hq)

/-- The empty table is consistent. -/
theorem LockState.Consistent.init : LockState.init.Consistent 0 := by
  refine ⟨?_, ?_, ?_, ?_⟩
  · intro i
    simp [LockState.Held, LockState.Holds, LockState.init]
  · intro i F G hF
    simp [LockState.Holds, LockState.init] at hF
  · intro F i hF
    simp [LockState.Holds, LockState.init] at hF
  · intro q hq
    cases hq

/-- The locks after `RESET_DEVICE` of any flavor. -/
theorem ttIoctlResetDevice_locks (d : DeviceContext) (F : Handle) (io : Io) (i : ResetIn)
    (env : ResetEnv) :
    (ttIoctlResetDevice d F io i env).device.locks = d.locks ∨
      ∃ removed, (ttIoctlResetDevice d F io i env).device.locks =
        ttLocksWakeWaiters removed d.locks := by
  rcases ttIoctlResetDevice_cases d F io i env with ⟨_, hd' | hd' | hd'⟩ | ⟨_, hw, hd'⟩
  · exact .inl (by rw [hd'])
  · exact .inl (by rw [hd']; rfl)
  · exact .inl (by rw [hd'])
  · exact .inr ⟨_, by rw [hd']; rfl⟩

end Runs

section Device

variable {d d' : DeviceContext} {e : Event}

/-- The lock table of a device. -/
def DeviceContext.lockWorld (d : DeviceContext) : LockWorld := ⟨d.locks, d.nextFile⟩

/-- A request is one section of the lock table at most. -/
theorem lockStep_of_dispatch {F : Handle} {caller : Process} {r : Request}
    (hopen : d.isOpen F = true) :
    (dispatch d F caller r).device.lockWorld = d.lockWorld ∨
      ∃ e', d.lockWorld.next e' = some (dispatch d F caller r).device.lockWorld := by
  have hnext : (dispatch d F caller r).device.nextFile = d.nextFile := by
    rcases dispatch_generation d F caller r with ⟨_, hkept⟩ | ⟨_, hbumped⟩
    · exact hkept.nextFile
    · exact hbumped.nextFile
  have hF := DeviceContext.lt_of_isOpen hopen
  unfold DeviceContext.lockWorld
  rw [hnext]
  unfold dispatch
  split
  · exact .inl rfl
  split
  · exact .inl rfl
  cases r with
  | lockCtl io i env =>
    refine .inr ⟨.lockCtl F d.removed io i env, ?_⟩
    simp only [LockWorld.next, if_pos hF]
    rfl
  | resetDevice io i env =>
    rcases ttIoctlResetDevice_locks d F io i env with hlocks | ⟨removed, hlocks⟩
    · left
      rw [handle, hlocks]
    · refine .inr ⟨.wake removed, ?_⟩
      rw [handle, hlocks]
      rfl
  | _ => exact .inl rfl

/-- A step of the device is one section of the lock table at most. -/
theorem lockStep_of_next (hstep : d.next e = some d') :
    d'.lockWorld = d.lockWorld ∨ ∃ e', d.lockWorld.next e' = some d'.lockWorld := by
  cases e with
  | create opener =>
    rw [← Option.some.inj hstep]
    exact .inr ⟨.create, rfl⟩
  | request F caller r =>
    obtain ⟨hopen, rfl⟩ := DeviceContext.next_request hstep
    exact lockStep_of_dispatch hopen
  | cleanup F =>
    obtain ⟨hopen, rfl⟩ := DeviceContext.next_cleanup hstep
    refine .inr ⟨.releaseAll F d.removed, ?_⟩
    exact if_pos (DeviceContext.lt_of_isOpen hopen)
  | processExit process =>
    rw [← Option.some.inj hstep]
    exact .inl rfl
  | surpriseRemoval =>
    rw [← Option.some.inj hstep]
    exact .inr ⟨.wake fun F => (ttEvtDeviceSurpriseRemoval d).removed F, rfl⟩
  | cancel k =>
    rw [← Option.some.inj hstep]
    exact .inr ⟨.cancel k, rfl⟩

/-- A run of the device is a run of its lock table. -/
theorem lockRun_of_run {es : List Event} (hrun : Run (partialGraph DeviceContext.next) d es d') :
    Reachable (partialGraph LockWorld.next) d.lockWorld d'.lockWorld := by
  induction hrun with
  | nil d => exact .refl _
  | cons hstep _ ih =>
    rcases lockStep_of_next hstep with hsame | ⟨e', he'⟩
    · rw [← hsame]
      exact ih
    · exact .head he' ih

/-- In every state a started device reaches, a lock is marked held exactly when one handle
holds it. -/
theorem device_locks_consistent {config : MemoryConfig} {subsysVendorId subsysId : ℕ}
    {needsHwInit : Bool} {regs : Fin 16 → AtuRegs} {es : List Event}
    (hrun : Run (partialGraph DeviceContext.next)
      (.started config subsysVendorId subsysId needsHwInit regs) es d) :
    d.locks.Consistent d.nextFile := by
  have hreach : Reachable (partialGraph LockWorld.next) .init d.lockWorld := lockRun_of_run hrun
  exact @Reachable.invariant _ _ _ (fun w => w.locks.Consistent w.nextFile) _ _
    (fun _ _ _ h hstep => h.next hstep) LockState.Consistent.init hreach

end Device

/-- In a run where every request that changes the table has room for its answer, the map of
the device is the disjoint union of the maps of the handles, every such request reports
exactly what it does, a pass changes the holders by completing waiters only, and so does
`RESET_DEVICE` of any flavor. -/
theorem lock_table_exact {es : List LockEvent} {w : LockWorld}
    (hrun : Run (restrict (partialGraph LockWorld.next) FitsOutput) .init es w) :
    w.locks.Consistent w.nextFile ∧
      (∀ F removed io i env, F < w.nextFile → 12 ≤ io.input → i.index < resourceLockCount →
        FitsOutput w (.lockCtl F removed io i env) →
        ReportsExactly w.locks F i (ttIoctlLockCtl removed w.locks F io i env)) ∧
      (∀ removed, ∃ fresh,
        Woken w.locks.lockWaitQueue w.locks (ttLocksWakeWaiters removed w.locks) fresh) ∧
      ∀ (d : DeviceContext) (F : Handle) (io : Io) (i : ResetIn) (env : ResetEnv),
        d.locks = w.locks → ∃ fresh, Woken w.locks.lockWaitQueue w.locks
          (ttIoctlResetDevice d F io i env).device.locks fresh := by
  have hinv : w.locks.Consistent w.nextFile ∧ ∀ q ∈ w.locks.lockWaitQueue, q.Fits := by
    refine @Run.invariant _ _ _ (fun w : LockWorld => w.locks.Consistent w.nextFile ∧
      ∀ q ∈ w.locks.lockWaitQueue, q.Fits) _ _ _ ?_ ?_ hrun
    · rintro w e w' ⟨hcons, hqueue⟩ ⟨hfits, hstep⟩
      exact ⟨hcons.next hstep, fits_next hqueue hfits hstep⟩
    · refine ⟨LockState.Consistent.init, ?_⟩
      intro q hq
      cases hq
  obtain ⟨hcons, hqueue⟩ := hinv
  refine ⟨hcons, ?_, fun removed => woken_wake hqueue, ?_⟩
  · intro F removed io i env _ hread hindex hfits
    exact reportsExactly hcons hqueue hread hindex hfits
  · intro d F io i env hlocks
    rcases ttIoctlResetDevice_locks d F io i env with hsame | ⟨removed, hpass⟩
    · rw [hsame, hlocks]
      exact ⟨[], .refl _ _⟩
    · rw [hpass, hlocks]
      exact woken_wake hqueue

/-- `LOCK_CTL` with an output buffer of a given length, while no handle is removed. -/
def lockSection (F : Handle) (flags index output : ℕ) : LockEvent :=
  .lockCtl F (fun _ => false) ⟨12, output⟩ ⟨flags, index⟩ ⟨.success, .success⟩

/-- Handle 0 takes lock 5, handle 1 waits for it, and handle 0 is closed. -/
def lockHandedOver : List LockEvent :=
  [.create, .create, lockSection 0 0 5 16, lockSection 1 3 5 16, .releaseAll 0 fun _ => false]

/-- Handle 1 is the holder afterwards, and the only one. -/
theorem lock_table_exact_lockHandedOver :
    ∃ w, Run (restrict (partialGraph LockWorld.next) FitsOutput) .init lockHandedOver w ∧
      w.locks.Holds 1 5 ∧ w.locks.Consistent w.nextFile := by
  obtain ⟨w, hrun, hholds⟩ : ∃ w,
      Run (restrict (partialGraph LockWorld.next) FitsOutput) .init lockHandedOver w ∧
        w.locks.Holds 1 5 := by
    refine ⟨_, .cons ⟨trivial, rfl⟩ (.cons ⟨trivial, rfl⟩ (.cons ⟨fun _ => le_rfl, rfl⟩
      (.cons ⟨fun _ => le_rfl, rfl⟩ (.cons ⟨trivial, rfl⟩ (.nil _))))), ?_⟩
    decide +kernel
  exact ⟨w, hrun, hholds, (lock_table_exact hrun).1⟩

/-- `ACQUIRE` of a free lock with an output buffer of 12 bytes: the caller holds the lock
and the request fails. -/
theorem shortOutput_acquires :
    ∃ w, Run (partialGraph LockWorld.next) .init [.create] w ∧ 0 < w.nextFile ∧
      let r := ttIoctlLockCtl (fun _ => false) w.locks 0 ⟨12, 12⟩ ⟨0, 5⟩ ⟨.success, .success⟩
      ¬ w.locks.Held 5 ∧ r.locks.Holds 0 5 ∧ ¬ r.Reports 1 ∧ r.status = .accessViolation := by
  refine ⟨⟨.init, 1⟩, .cons rfl (.nil _), by decide, ?_⟩
  decide +kernel

end TtKmd
