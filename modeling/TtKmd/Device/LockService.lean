import TtKmd.Device.LockTable
import TtKmd.Lib.Rounds

/-!
# The service of the lock waiters

A pass looks at the first 64 requests of `LockWaitQueue` and puts the losers behind those that it
has not looked at. So the queue is served in rounds, and a waiter gets its turn within the number
of passes that its place stands for, whatever other requests join the queue.

A ledger keeps the requests that win their lock at once or are pended, in the order of their
sections. No request of it is lost and none is served twice. While a pass has room for the whole
queue, the locks go to the requests in this order, and no request that comes later finds a lock
free that another one waits for.
-/

namespace TtKmd

open Lib

/-! ## One pass -/

section Pass

variable {removed : Handle → Bool} {s s' t : LockState} {q : LockRequest}
  {batch losers : List LockRequest} {fresh : List (LockRequest × NtStatus)}

/-- The requests that a pass gives their lock. -/
def granted (fresh : List (LockRequest × NtStatus)) : List LockRequest :=
  (fresh.filter (·.2 ≠ .deviceRemoved)).map Prod.fst

/-- The requests that a pass completes because their handle is removed. -/
def refused (fresh : List (LockRequest × NtStatus)) : List LockRequest :=
  (fresh.filter (·.2 = .deviceRemoved)).map Prod.fst

/-- Every completion of a pass is one or the other. -/
theorem granted_append_refused (fresh : List (LockRequest × NtStatus)) :
    (granted fresh ++ refused fresh).Perm (fresh.map Prod.fst) := by
  have h := (List.filter_append_perm (fun c => decide (c.2 = .deviceRemoved)) fresh).map Prod.fst
  rw [List.map_append] at h
  refine (List.perm_append_comm.trans ?_).trans h
  simp [granted, refused]

/-- What the rounds over a batch do: `fresh` are the completions they add, and `losers` the
requests they put back. -/
structure Retried (batch : List LockRequest) (s s' : LockState)
    (fresh : List (LockRequest × NtStatus)) (losers : List LockRequest) : Prop where
  /-- The completions afterwards. -/
  completed : s'.completed = s.completed ++ fresh
  /-- The queue afterwards. -/
  queue : s'.lockWaitQueue = s.lockWaitQueue ++ losers
  /-- Every request of the batch is completed or put back. -/
  once : (fresh.map Prod.fst ++ losers).Perm batch
  /-- A lock goes to the first request for it. -/
  order : ∀ i, ((granted fresh ++ losers).filter (·.index = i)).Sublist (batch.filter (·.index = i))
  /-- A lock that is held is not given away. -/
  kept : ∀ i, s.Held i → (granted fresh).filter (·.index = i) = []
  /-- A request that is put back waits for a lock that is held. -/
  waits : ∀ q ∈ losers, s'.Held q.index

/-- The lock of a waiter that wins it. -/
theorem wakeWaiter_completed_of_free (hrem : removed q.file = false) (hfree : ¬ s.Held q.index) :
    ∃ status, status ≠ .deviceRemoved ∧
      (wakeWaiter removed s q).completed = s.completed ++ [(q, status)] := by
  unfold wakeWaiter
  rw [hrem, ttLockTryAcquire_of_free hfree]
  refine ⟨if q.output < 16 then .accessViolation else .success, ?_, rfl⟩
  split <;> decide

/-- The rounds over a batch. -/
theorem retried_foldl (removed : Handle → Bool) (batch : List LockRequest) (s : LockState) :
    ∃ fresh losers, Retried batch s (batch.foldl (wakeWaiter removed) s) fresh losers := by
  induction batch generalizing s with
  | nil => exact ⟨[], [], by simp, by simp, by simp, by simp [granted], by simp [granted], by simp⟩
  | cons q batch ih =>
    obtain ⟨fresh, losers, h⟩ := ih (wakeWaiter removed s q)
    rw [List.foldl_cons]
    rcases wakeWaiter_cases removed s q with ⟨-, hs⟩ | ⟨hrem, hfree, _, hs⟩ | ⟨-, hheld, hs⟩
    · -- The handle of the request is removed.
      refine ⟨(q, .deviceRemoved) :: fresh, losers, ?_, ?_, h.once.cons q, ?_, ?_, h.waits⟩
      · rw [h.completed, hs, List.append_assoc]
        rfl
      · rw [h.queue, hs]
      · intro i
        have horder := (h.order i).trans
          ((List.sublist_cons_self q batch).filter (fun r => decide (r.index = i)))
        simpa [granted] using horder
      · intro i hi
        have hkept := h.kept i (by rw [hs]; exact hi)
        simpa [granted] using hkept
    · -- The request takes its lock, which the rest of the batch finds held.
      obtain ⟨status, hstatus, hcompleted⟩ := wakeWaiter_completed_of_free hrem hfree
      have hacq : Acquired s (wakeWaiter removed s q) q.file q.index := by
        rw [hs]
        exact acquired_of_maps hfree rfl rfl
      have hgranted : granted ((q, status) :: fresh) = q :: granted fresh := by
        simp [granted, hstatus]
      refine ⟨(q, status) :: fresh, losers, ?_, ?_, h.once.cons q, ?_, ?_, h.waits⟩
      · rw [h.completed, hcompleted, List.append_assoc]
        rfl
      · rw [h.queue, hs]
      · intro i
        rw [hgranted, List.cons_append, List.filter_cons, List.filter_cons]
        split
        · exact (h.order i).cons_cons q
        · exact h.order i
      · intro i hi
        have hne : q.index ≠ i := by
          rintro rfl
          exact hfree hi
        rw [hgranted, List.filter_cons_of_neg (by simpa using hne)]
        exact h.kept i ((hacq.held i).mpr (.inl hi))
    · -- The request is put back: nobody behind it gets its lock in this pass.
      have hback : (wakeWaiter removed s q).lockWaitQueue = s.lockWaitQueue ++ [q] := by rw [hs]
      refine ⟨fresh, q :: losers, ?_, ?_, ?_, ?_, ?_, ?_⟩
      · rw [h.completed, hs]
      · rw [h.queue, hback, List.append_assoc]
        rfl
      · exact List.perm_middle.trans (h.once.cons q)
      · intro i
        by_cases hi : q.index = i
        · have hkept := h.kept i (by rw [hs, ← hi]; exact hheld)
          have horder := h.order i
          rw [List.filter_append, hkept, List.nil_append] at horder ⊢
          rw [List.filter_cons_of_pos (by simpa using hi),
            List.filter_cons_of_pos (by simpa using hi)]
          exact horder.cons_cons q
        · have horder := h.order i
          rw [List.filter_append] at horder ⊢
          rw [List.filter_cons_of_neg (by simpa using hi),
            List.filter_cons_of_neg (by simpa using hi)]
          exact horder
      · intro i hi
        exact h.kept i (by rw [hs]; exact hi)
      · intro r hr
        rcases List.mem_cons.mp hr with rfl | hr
        · exact hheld.wakeWaiter.foldl
        · exact h.waits r hr

/-- A pass. -/
theorem retried_pass (removed : Handle → Bool) (s : LockState) :
    ∃ fresh losers, Retried (s.lockWaitQueue.take lockWakeBatch)
      { s with lockWaitQueue := s.lockWaitQueue.drop lockWakeBatch }
      (ttLocksWakeWaiters removed s) fresh losers :=
  retried_foldl removed _ _

end Pass

/-! ## Turns -/

section Turns

variable {w w' : LockWorld} {e : LockEvent}

/-- The section runs `TtLocksWakeWaiters`. -/
def LockWorld.wakes (w : LockWorld) : LockEvent → Bool
  | .lockCtl F _ io i _ =>
      12 ≤ io.input && i.index < resourceLockCount && i.flags = 1 && w.locks.Holds F i.index
  | .wake _ => true
  | .releaseAll _ _ => true
  | _ => false

/-- The section takes the request at a place out of the queue. -/
def LockEvent.Leaves (e : LockEvent) (p : ℕ) : Prop :=
  e = .cancel p ∨ ∃ fwd, e = .requeueFails p fwd

/-- The locks that a pass finds, in a section that runs one. -/
structure PassOver (w w' : LockWorld) (removed : Handle → Bool) (t : LockState) : Prop where
  /-- The queue. -/
  queue : t.lockWaitQueue = w.locks.lockWaitQueue
  /-- The completions. -/
  completed : t.completed = w.locks.completed
  /-- The locks afterwards. -/
  locks : w'.locks = ttLocksWakeWaiters removed t

/-- A section that runs a pass. -/
theorem LockWorld.passOver_of_wakes (hstep : w.next e = some w') (hwakes : w.wakes e = true) :
    ∃ removed t, PassOver w w' removed t := by
  cases e with
  | lockCtl F removed io i env =>
    obtain ⟨-, rfl⟩ := guard_of_eq_some hstep
    simp only [wakes, Bool.and_eq_true, decide_eq_true_eq] at hwakes
    obtain ⟨⟨⟨hread, hindex⟩, hflags⟩, hholds⟩ := hwakes
    rcases ttIoctlLockCtl_effect removed w.locks F io i env with
      ⟨hno, -, -, -⟩ | ⟨-, hflags', -, -, -⟩ | ⟨-, -, t, hdrop, hreply⟩ | ⟨-, hflags', -, -⟩
    · exact absurd ⟨hread, hindex, .inr (.inl ⟨hflags, hholds⟩)⟩ hno
    · omega
    · exact ⟨removed, t, hdrop.queue, hdrop.completed, by rw [hreply]; rfl⟩
    · omega
  | wake removed =>
    obtain rfl := Option.some.inj hstep
    exact ⟨removed, w.locks, rfl, rfl, rfl⟩
  | releaseAll F removed =>
    obtain ⟨-, rfl⟩ := guard_of_eq_some hstep
    exact ⟨removed, { w.locks with
      resourceLockHeld := w.locks.resourceLockHeld &&& ~~~(w.locks.locksHeld F)
      locksHeld := Function.update w.locks.locksHeld F 0 }, rfl, rfl, rfl⟩
  | create => cases hwakes
  | cancel k => cases hwakes
  | requeueFails k fwd => cases hwakes

/-- The queue after a section that runs no pass. -/
theorem LockWorld.queue_of_not_wakes (hstep : w.next e = some w') (hwakes : w.wakes e = false) :
    (∃ joined, w'.locks.lockWaitQueue = w.locks.lockWaitQueue ++ joined) ∨
      ∃ k, e.Leaves k ∧ w'.locks.lockWaitQueue = w.locks.lockWaitQueue.eraseIdx k := by
  cases e with
  | create =>
    obtain rfl := Option.some.inj hstep
    exact .inl ⟨[], (List.append_nil _).symm⟩
  | lockCtl F removed io i env =>
    left
    obtain ⟨-, rfl⟩ := guard_of_eq_some hstep
    rcases ttIoctlLockCtl_effect removed w.locks F io i env with
      ⟨-, hlocks, -, -⟩ | ⟨-, -, -, hqueue, -⟩ | ⟨⟨hread, hindex, -⟩, hflags, t, hdrop, -⟩ |
        ⟨-, -, -, hreply⟩
    · exact ⟨[], by rw [hlocks, List.append_nil]⟩
    · exact ⟨[], by rw [hqueue, List.append_nil]⟩
    · simp [wakes, hread, hindex, hflags, hdrop.had _ rfl] at hwakes
    · exact ⟨_, by rw [hreply]⟩
  | wake removed => cases hwakes
  | releaseAll F removed => cases hwakes
  | cancel k =>
    obtain rfl := Option.some.inj hstep
    exact .inr ⟨k, .inl rfl, rfl⟩
  | requeueFails k fwd =>
    obtain rfl := Option.some.inj hstep
    exact .inr ⟨k, .inr ⟨fwd, rfl⟩, rfl⟩

/-- `LockWaitQueue` is served in rounds of 64. -/
theorem lockWaitQueue_servedInRounds :
    ServedInRounds LockWorld.next (fun w => w.locks.lockWaitQueue) lockWakeBatch LockWorld.wakes
      LockEvent.Leaves where
  pos := by decide
  pass := by
    intro w e w' hstep hwakes
    obtain ⟨removed, t, hpass⟩ := LockWorld.passOver_of_wakes hstep hwakes
    obtain ⟨losers, -, hqueue, -⟩ := ttLocksWakeWaiters_queue removed t
    exact ⟨losers, by rw [hpass.locks, hqueue, hpass.queue]⟩
  rest := LockWorld.queue_of_not_wakes

/-- The completions that a section adds. -/
def LockWorld.fresh (w w' : LockWorld) : List (LockRequest × NtStatus) :=
  w'.locks.completed.drop w.locks.completed.length

/-- What a section that runs a pass does. -/
theorem LockWorld.retried_of_wakes (hstep : w.next e = some w') (hwakes : w.wakes e = true) :
    ∃ losers, w'.locks.lockWaitQueue = w.locks.lockWaitQueue.drop lockWakeBatch ++ losers ∧
      ((w.fresh w').map Prod.fst ++ losers).Perm (w.locks.lockWaitQueue.take lockWakeBatch) ∧
      (∀ i, ((granted (w.fresh w') ++ losers).filter (·.index = i)).Sublist
        ((w.locks.lockWaitQueue.take lockWakeBatch).filter (·.index = i))) ∧
      ∀ q ∈ losers, w'.locks.Held q.index := by
  obtain ⟨removed, t, hpass⟩ := passOver_of_wakes hstep hwakes
  obtain ⟨fresh, losers, hretried⟩ := retried_pass removed t
  have hfresh : w.fresh w' = fresh := by
    have hcompleted : w'.locks.completed = w.locks.completed ++ fresh := by
      rw [hpass.locks, hretried.completed, ← hpass.completed]
    rw [LockWorld.fresh, hcompleted, List.drop_left]
  have hqueue := hretried.queue
  have honce := hretried.once
  have horder := hretried.order
  rw [hpass.queue] at hqueue honce horder
  rw [hfresh]
  refine ⟨losers, ?_, honce, horder, ?_⟩
  · rw [hpass.locks, hqueue]
  · rw [hpass.locks]
    exact hretried.waits

/-- A waiter gets its turn: within the number of passes that its place stands for, a pass finds it
among the first 64 of the queue and completes it, or its lock is held when the pass is over; unless
it has been cancelled before, or could not be put back. -/
theorem lock_waiters_turn {es : List LockEvent} {p : ℕ} {q : LockRequest}
    (hrun : Run (partialGraph LockWorld.next) w es w')
    (hq : w.locks.lockWaitQueue[p]? = some q)
    (hpasses : p / lockWakeBatch < countRounds LockWorld.next LockWorld.wakes w es) :
    ∃ es₁ e es₂ u u' p', es = es₁ ++ e :: es₂ ∧ Run (partialGraph LockWorld.next) w es₁ u ∧
      u.next e = some u' ∧ Run (partialGraph LockWorld.next) u' es₂ w' ∧
      u.locks.lockWaitQueue[p']? = some q ∧
      countRounds LockWorld.next LockWorld.wakes w es₁ ≤ p / lockWakeBatch ∧
      (u.wakes e = true ∧ p' < lockWakeBatch ∧
          (q ∈ (u.fresh u').map Prod.fst ∨ u'.locks.Held q.index) ∨ e.Leaves p') := by
  obtain ⟨es₁, e, es₂, u, u', p', hes, hrun₁, hnext, hrun₂, hp', hcount, hend⟩ :=
    lockWaitQueue_servedInRounds.turn hrun hq hpasses
  refine ⟨es₁, e, es₂, u, u', p', hes, hrun₁, hnext, hrun₂, hp', hcount, ?_⟩
  rcases hend with ⟨hwakes, hfront⟩ | hleaves
  · refine .inl ⟨hwakes, hfront, ?_⟩
    obtain ⟨losers, -, honce, -, hwaits⟩ := LockWorld.retried_of_wakes hnext hwakes
    have hmem : q ∈ u.locks.lockWaitQueue.take lockWakeBatch := by
      apply List.mem_of_getElem? (i := p')
      rw [List.getElem?_take_of_lt hfront]
      exact hp'
    rcases List.mem_append.mp (honce.mem_iff.mpr hmem) with hanswered | hback
    · exact .inl hanswered
    · exact .inr (hwaits q hback)
  · exact .inr hleaves

end Turns

/-- Handle 0 has locks 5 and 6, and a request for lock 6 waits behind 64 for lock 5. -/
def crowdedLocks : LockWorld :=
  ⟨⟨lockBit 5 ||| lockBit 6, Function.update (fun _ => 0) 0 (lockBit 5 ||| lockBit 6),
    List.replicate 64 ⟨1, 5, 16⟩ ++ [⟨1, 6, 16⟩], []⟩, 2⟩

/-- Handle 0 releases lock 6 and then lock 5. -/
def bothReleased : List LockEvent := [lockSection 0 1 6 16, lockSection 0 1 5 16]

/-- The first pass does not reach the request at place 64, and the second one gives it its lock. -/
theorem lock_waiters_turn_bothReleased :
    ∃ w', Run (partialGraph LockWorld.next) crowdedLocks bothReleased w' ∧
      w'.locks.Holds 1 6 ∧
      ∃ es₁ e u u' p', Run (partialGraph LockWorld.next) crowdedLocks es₁ u ∧
        u.next e = some u' ∧ u.locks.lockWaitQueue[p']? = some ⟨1, 6, 16⟩ ∧
        countRounds LockWorld.next LockWorld.wakes crowdedLocks es₁ ≤ 1 ∧ u.wakes e = true ∧
        p' < lockWakeBatch ∧
        (⟨1, 6, 16⟩ ∈ (u.fresh u').map Prod.fst ∨ u'.locks.Held 6) := by
  obtain ⟨w', hrun, hholds⟩ : ∃ w',
      Run (partialGraph LockWorld.next) crowdedLocks bothReleased w' ∧ w'.locks.Holds 1 6 := by
    refine ⟨_, .cons rfl (.cons rfl (.nil _)), ?_⟩
    decide +kernel
  have hcount : 64 / lockWakeBatch <
      countRounds LockWorld.next LockWorld.wakes crowdedLocks bothReleased := by
    decide +kernel
  have hplace : crowdedLocks.locks.lockWaitQueue[64]? = some ⟨1, 6, 16⟩ := by decide +kernel
  obtain ⟨es₁, e, es₂, u, u', p', hes, hrun₁, hnext, -, hp', hpasses, hend⟩ :=
    lock_waiters_turn hrun hplace hcount
  have hstays : ¬e.Leaves p' := by
    have hmem : e ∈ bothReleased := by rw [hes]; simp
    rcases List.mem_pair.mp hmem with rfl | rfl <;> simp [LockEvent.Leaves, lockSection]
  obtain ⟨hwakes, hfront, hserved⟩ := hend.resolve_right hstays
  exact ⟨w', hrun, hholds, es₁, e, u, u', p', hrun₁, hnext, hp', hpasses, hwakes, hfront, hserved⟩

/-! ## The order of service -/

section Order

variable {w w' : LockWorld} {e : LockEvent} {m : Ledger LockRequest}

/-- What a section adds to the ledger: the request that wins its lock at once or is pended, or the
completions of the section. -/
def LockWorld.entries (w w' : LockWorld) (e : LockEvent) : Ledger LockRequest :=
  if w.wakes e then ⟨[], granted (w.fresh w'), refused (w.fresh w')⟩
  else
    match e with
    | .lockCtl F removed io i env =>
        let q : LockRequest := ⟨F, i.index, io.output⟩
        if (ttIoctlLockCtl removed w.locks F io i env).pended then ⟨[q], [], []⟩
        else if ¬ w.locks.Held i.index ∧ w'.locks.Held i.index then ⟨[q], [q], []⟩
        else ⟨[], [], []⟩
    | _ => ⟨[], [], (w.fresh w').map Prod.fst⟩

/-- Everything that a section can do to the queue and to the ledger. -/
inductive Entered (w w' : LockWorld) (e : LockEvent) (m : Ledger LockRequest) : Prop
  /-- A pass. -/
  | pass (losers : List LockRequest) (hwakes : w.wakes e = true) (hasked : m.asked = [])
      (hqueue : w'.locks.lockWaitQueue = w.locks.lockWaitQueue.drop lockWakeBatch ++ losers)
      (honce : (m.served ++ m.failed ++ losers).Perm (w.locks.lockWaitQueue.take lockWakeBatch))
      (horder : ∀ i, ((m.served ++ losers).filter (·.index = i)).Sublist
        ((w.locks.lockWaitQueue.take lockWakeBatch).filter (·.index = i)))
      (hwaits : ∀ q ∈ losers, w'.locks.Held q.index)
  /-- A request wins its lock at once. -/
  | taken (q : LockRequest) (hm : m = ⟨[q], [q], []⟩) (hfree : ¬ w.locks.Held q.index)
      (hqueue : w'.locks.lockWaitQueue = w.locks.lockWaitQueue)
      (hkept : ∀ i, w.locks.Held i → w'.locks.Held i)
  /-- A request is pended. -/
  | pended (q : LockRequest) (hm : m = ⟨[q], [], []⟩) (hheld : w.locks.Held q.index)
      (hqueue : w'.locks.lockWaitQueue = w.locks.lockWaitQueue ++ [q])
      (hkept : ∀ i, w.locks.Held i → w'.locks.Held i)
  /-- No request gets or asks for a lock. -/
  | rest (hasked : m.asked = []) (hserved : m.served = [])
      (hqueue : w'.locks.lockWaitQueue.Sublist w.locks.lockWaitQueue)
      (honce : (m.failed ++ w'.locks.lockWaitQueue).Perm w.locks.lockWaitQueue)
      (hkept : ∀ i, w.locks.Held i → w'.locks.Held i)

/-- A request that is taken out of its place. -/
theorem head?_drop_append_eraseIdx {α : Type*} (l : List α) (k : ℕ) :
    ((l.drop k).head?.toList ++ l.eraseIdx k).Perm l := by
  rw [List.head?_drop]
  by_cases hk : k < l.length
  · rw [List.getElem?_eq_getElem hk]
    exact List.getElem_cons_eraseIdx_perm hk
  · rw [List.getElem?_eq_none (Nat.le_of_not_lt hk), List.eraseIdx_of_length_le (by omega)]
    exact List.Perm.refl l

/-- Every section is one of these. -/
theorem LockWorld.entered (hstep : w.next e = some w') : Entered w w' e (w.entries w' e) := by
  unfold entries
  split
  · rename_i hwakes
    obtain ⟨losers, hqueue, honce, horder, hwaits⟩ := retried_of_wakes hstep hwakes
    refine .pass losers hwakes rfl hqueue ?_ horder hwaits
    exact ((granted_append_refused _).append_right losers).trans honce
  rename_i hwakes
  have hkept : ∀ i, w.locks.Held i → w.locks.Held i := fun _ h => h
  cases e with
  | create =>
    obtain rfl := Option.some.inj hstep
    refine .rest rfl rfl (List.Sublist.refl _) ?_ hkept
    simp [fresh]
  | lockCtl F removed io i env =>
    obtain ⟨-, rfl⟩ := guard_of_eq_some hstep
    rcases ttIoctlLockCtl_effect removed w.locks F io i env with
      ⟨-, hlocks, hpended, -⟩ | ⟨⟨-, hindex, -⟩, -, hacq, hqueue, hreply⟩ |
        ⟨⟨hread, hindex, -⟩, hflags, t, hdrop, -⟩ | ⟨-, -, hheld, hreply⟩
    · have hnone : ¬(¬ w.locks.Held i.index ∧
          (ttIoctlLockCtl removed w.locks F io i env).locks.Held i.index) := by
        rw [hlocks]
        exact fun h => h.1 h.2
      simp only [hpended, if_neg hnone, Bool.false_eq_true, if_false]
      refine .rest rfl rfl ?_ ?_ ?_ <;> simp [hlocks]
    · have hpended : (ttIoctlLockCtl removed w.locks F io i env).pended = false := by
        rw [hreply]
        rfl
      have htaken : ¬ w.locks.Held i.index ∧
          (ttIoctlLockCtl removed w.locks F io i env).locks.Held i.index :=
        ⟨hacq.free, (hacq.held _).mpr (.inr ⟨rfl, hindex⟩)⟩
      simp only [hpended, if_pos htaken, Bool.false_eq_true, if_false]
      exact .taken _ rfl hacq.free hqueue fun j hj => (hacq.held j).mpr (.inl hj)
    · simp [wakes, hread, hindex, hflags, hdrop.had _ rfl] at hwakes
    · simp only [hreply, if_true]
      exact .pended _ rfl hheld rfl fun _ h => h
  | wake removed => exact absurd rfl hwakes
  | releaseAll F removed => exact absurd rfl hwakes
  | cancel k =>
    obtain rfl := Option.some.inj hstep
    refine .rest rfl rfl (List.eraseIdx_sublist ..) ?_ hkept
    simpa [fresh, cancelWaiter, Function.comp_def] using
      head?_drop_append_eraseIdx w.locks.lockWaitQueue k
  | requeueFails k fwd =>
    obtain rfl := Option.some.inj hstep
    refine .rest rfl rfl (List.eraseIdx_sublist ..) ?_ hkept
    simpa [fresh, failRequeue, Function.comp_def] using
      head?_drop_append_eraseIdx w.locks.lockWaitQueue k

/-- A section accounts for the requests it takes out of the queue and for the one that comes. -/
theorem Entered.accounts (h : Entered w w' e m) :
    (m.served ++ m.failed ++ w'.locks.lockWaitQueue).Perm (m.asked ++ w.locks.lockWaitQueue) := by
  cases h with
  | pass losers _ hasked hqueue honce _ _ =>
    rw [hasked, hqueue, List.nil_append]
    -- The losers go behind the requests that the pass has not looked at.
    have hlosers : (m.served ++ m.failed ++
          (w.locks.lockWaitQueue.drop lockWakeBatch ++ losers)).Perm
        (m.served ++ m.failed ++ (losers ++ w.locks.lockWaitQueue.drop lockWakeBatch)) :=
      List.perm_append_comm.append_left _
    have hbatch := honce.append_right (w.locks.lockWaitQueue.drop lockWakeBatch)
    rw [List.take_append_drop, List.append_assoc] at hbatch
    exact hlosers.trans hbatch
  | taken q hm _ hqueue _ =>
    rw [hm, hqueue]
    exact List.Perm.refl _
  | pended q hm _ hqueue _ =>
    rw [hm, hqueue]
    exact List.perm_append_singleton q _
  | rest hasked hserved _ honce _ =>
    rw [hasked, hserved]
    exact honce

/-- A section whose pass has room for the queue serves the requests for a lock in their order, and
leaves waiters only for locks that are held. -/
theorem Entered.inOrder (h : Entered w w' e m)
    (hroom : w.wakes e = true → w.locks.lockWaitQueue.length ≤ lockWakeBatch)
    (hheld : ∀ q ∈ w.locks.lockWaitQueue, w.locks.Held q.index) :
    (∀ i, ((m.served ++ w'.locks.lockWaitQueue).filter (·.index = i)).Sublist
        ((w.locks.lockWaitQueue ++ m.asked).filter (·.index = i))) ∧
      ∀ q ∈ w'.locks.lockWaitQueue, w'.locks.Held q.index := by
  cases h with
  | pass losers hwakes hasked hqueue _ horder hwaits =>
    rw [List.drop_eq_nil_of_le (hroom hwakes), List.nil_append] at hqueue
    rw [List.take_of_length_le (hroom hwakes)] at horder
    rw [hasked, hqueue, List.append_nil]
    exact ⟨horder, hwaits⟩
  | taken q hm hfree hqueue hkept =>
    rw [hm, hqueue]
    refine ⟨?_, fun r hr => hkept _ (hheld r hr)⟩
    intro i
    -- Nobody waits for a lock that is free.
    by_cases hi : q.index = i
    · have hnone : w.locks.lockWaitQueue.filter (·.index = i) = [] := by
        apply List.filter_eq_nil_iff.mpr
        intro r hr hri
        have hri : r.index = i := by simpa using hri
        exact hfree (by rw [hi, ← hri]; exact hheld r hr)
      rw [List.filter_append, List.filter_append, hnone]
      simp
    · have hne : [q].filter (·.index = i) = [] := by simp [hi]
      rw [List.filter_append, List.filter_append, hne]
      simp
  | pended q hm hwaits hqueue hkept =>
    rw [hm, hqueue]
    refine ⟨fun i => List.Sublist.refl _, ?_⟩
    intro r hr
    rcases List.mem_append.mp hr with hr | hr
    · exact hkept _ (hheld r hr)
    · rw [List.mem_singleton.mp hr]
      exact hkept _ hwaits
  | rest hasked hserved hqueue _ hkept =>
    rw [hasked, hserved, List.append_nil]
    exact ⟨fun i => hqueue.filter _, fun r hr => hkept _ (hheld r (hqueue.subset hr))⟩

/-- The lock table with a ledger of the requests for its locks. -/
structure LockHistory where
  /-- The lock table. -/
  world : LockWorld
  /-- The requests that won their lock at once or were pended. -/
  ledger : Ledger LockRequest

/-- One section. -/
def LockHistory.next (h : LockHistory) (e : LockEvent) : Option LockHistory :=
  (h.world.next e).map fun w => ⟨w, h.ledger.append (h.world.entries w e)⟩

/-- The history before the first open. -/
def LockHistory.init : LockHistory := ⟨.init, ⟨[], [], []⟩⟩

/-- A pass has room for the whole queue. -/
def LockHistory.HasRoom (h : LockHistory) (e : LockEvent) : Prop :=
  h.world.wakes e = true → h.world.locks.lockWaitQueue.length ≤ lockWakeBatch

/-- In every run, each request that won its lock at once or was pended has been served once, has
failed once, or waits. While every pass has room for the queue, the requests for one lock are
served in the order in which they came, those that come later included, and every waiter waits for
a lock that is held. -/
theorem lock_service {es : List LockEvent} {h : LockHistory}
    (hrun : Run (partialGraph LockHistory.next) .init es h) :
    h.ledger.Accounts h.world.locks.lockWaitQueue ∧
      (Run (restrict (partialGraph LockHistory.next) LockHistory.HasRoom) .init es h →
        h.ledger.InOrder LockRequest.index h.world.locks.lockWaitQueue ∧
          ∀ q ∈ h.world.locks.lockWaitQueue, h.world.locks.Held q.index) := by
  constructor
  · refine @Run.invariant _ _ _ (fun h : LockHistory =>
      h.ledger.Accounts h.world.locks.lockWaitQueue) _ _ _ ?_ ?_ hrun
    · intro h e h' hinv hstep
      obtain ⟨w, hw, rfl⟩ := Option.map_eq_some_iff.mp hstep
      exact hinv.append (LockWorld.entered hw).accounts
    · exact List.Perm.refl _
  · intro hroomy
    refine @Run.invariant _ _ _ (fun h : LockHistory =>
      h.ledger.InOrder LockRequest.index h.world.locks.lockWaitQueue ∧
        ∀ q ∈ h.world.locks.lockWaitQueue, h.world.locks.Held q.index) _ _ _ ?_ ?_ hroomy
    · rintro h e h' ⟨horder, hheld⟩ ⟨hroom, hstep⟩
      obtain ⟨w, hw, rfl⟩ := Option.map_eq_some_iff.mp hstep
      obtain ⟨hnew, hheld'⟩ := (LockWorld.entered hw).inOrder hroom hheld
      exact ⟨horder.append hnew, hheld'⟩
    · constructor
      · exact fun i => List.Sublist.refl _
      · simp [LockHistory.init, LockWorld.init, LockState.init]

end Order

/-- Handles 1 and 2 wait for lock 5 of handle 0, which is released and then handed on at a close. -/
def handedOnTwice : List LockEvent :=
  [.create, .create, .create, lockSection 0 0 5 16, lockSection 1 3 5 16, lockSection 2 3 5 16,
    lockSection 0 1 5 16, .releaseAll 1 fun _ => false]

/-- The three handles are served in the order of their requests. -/
theorem lock_service_handedOnTwice :
    ∃ h, Run (restrict (partialGraph LockHistory.next) LockHistory.HasRoom) .init handedOnTwice h ∧
      h.ledger.served = [⟨0, 5, 16⟩, ⟨1, 5, 16⟩, ⟨2, 5, 16⟩] ∧
      h.ledger.Accounts h.world.locks.lockWaitQueue ∧
      h.ledger.InOrder LockRequest.index h.world.locks.lockWaitQueue := by
  obtain ⟨h, hrun, hroomy, hserved⟩ : ∃ h,
      Run (partialGraph LockHistory.next) .init handedOnTwice h ∧
      Run (restrict (partialGraph LockHistory.next) LockHistory.HasRoom) .init handedOnTwice h ∧
      h.ledger.served = [⟨0, 5, 16⟩, ⟨1, 5, 16⟩, ⟨2, 5, 16⟩] := by
    have hroom : ∀ h : LockHistory, h.world.locks.lockWaitQueue.length ≤ lockWakeBatch →
        ∀ e, h.HasRoom e := fun _ hlength _ _ => hlength
    refine ⟨_, .cons rfl (.cons rfl (.cons rfl (.cons rfl (.cons rfl (.cons rfl (.cons rfl
      (.cons rfl (.nil _)))))))), .cons ⟨?_, rfl⟩ (.cons ⟨?_, rfl⟩ (.cons ⟨?_, rfl⟩ (.cons ⟨?_, rfl⟩
      (.cons ⟨?_, rfl⟩ (.cons ⟨?_, rfl⟩ (.cons ⟨?_, rfl⟩ (.cons ⟨?_, rfl⟩ (.nil _)))))))), ?_⟩
    all_goals first | exact hroom _ (by decide +kernel) _ | decide +kernel
  obtain ⟨haccounts, horder⟩ := lock_service hrun
  exact ⟨h, hroomy, hserved, haccounts, (horder hroomy).1⟩

end TtKmd
