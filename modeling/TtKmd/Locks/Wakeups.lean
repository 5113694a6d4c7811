import TtKmd.Locks.Table

/-!
# One pass over the waiters

A pass takes at most 64 requests off the head of the queue. Each of them is
completed or put back at the tail, and it is put back only while its handle is in
order and its lock is held. A lock that is held stays held during a pass, so this is
still so when the pass is over. Nothing is said about the requests behind the first
64: the pass does not look at them.
-/

namespace TtKmd

open Lib

/-- A lock is held. -/
def LockState.Held (s : LockState) (index : ℕ) : Prop := s.resourceLockHeld &&& lockBit index ≠ 0

instance (s : LockState) (index : ℕ) : Decidable (s.Held index) :=
  inferInstanceAs (Decidable (s.resourceLockHeld &&& lockBit index ≠ 0))

section Pass

variable {removed : Handle → Bool} {s : LockState} {q : LockRequest}

/-- A lock that is held is not acquired. -/
theorem ttLockTryAcquire_of_held {F : Handle} {index : ℕ} (h : s.Held index) :
    ttLockTryAcquire s F index = none := if_pos h

/-- A lock that is free is acquired. -/
theorem ttLockTryAcquire_of_free {F : Handle} {index : ℕ} (h : ¬s.Held index) :
    ttLockTryAcquire s F index = some { s with
      resourceLockHeld := s.resourceLockHeld ||| lockBit index,
      locksHeld := Function.update s.locksHeld F (s.locksHeld F ||| lockBit index) } := if_neg h

/-- Everything one round of a pass can do. -/
theorem wakeWaiter_cases (removed : Handle → Bool) (s : LockState) (q : LockRequest) :
    (removed q.file = true ∧
        wakeWaiter removed s q = { s with completed := s.completed ++ [(q, .deviceRemoved)] }) ∨
      (removed q.file = false ∧ ¬s.Held q.index ∧ ∃ completed,
        wakeWaiter removed s q = { s with
          resourceLockHeld := s.resourceLockHeld ||| lockBit q.index
          locksHeld := Function.update s.locksHeld q.file (s.locksHeld q.file ||| lockBit q.index)
          completed }) ∨
      (removed q.file = false ∧ s.Held q.index ∧
        wakeWaiter removed s q = { s with lockWaitQueue := s.lockWaitQueue ++ [q] }) := by
  unfold wakeWaiter
  cases hrem : removed q.file
  · by_cases hheld : s.Held q.index
    · exact .inr (.inr ⟨rfl, hheld, by simp [ttLockTryAcquire_of_held hheld]⟩)
    · refine .inr (.inl ⟨rfl, hheld,
        s.completed ++ [(q, if q.output < 16 then .accessViolation else .success)], ?_⟩)
      rw [ttLockTryAcquire_of_free hheld]
      rfl
  · exact .inl ⟨rfl, rfl⟩

/-- A bit that is set stays set when others are added. -/
theorem and_lockBit_or {x y : BitVec 64} {index : ℕ} (h : x &&& lockBit index ≠ 0) :
    (x ||| y) &&& lockBit index ≠ 0 := by
  intro hzero
  apply h
  have hor : (x &&& lockBit index) ||| (y &&& lockBit index) = 0#64 := by
    rw [← BitVec.and_or_distrib_right]
    exact hzero
  exact (BitVec.or_eq_zero_iff.mp hor).1

/-- A lock that is held stays held through a round. -/
theorem LockState.Held.wakeWaiter {index : ℕ} (h : s.Held index) :
    (wakeWaiter removed s q).Held index := by
  rcases wakeWaiter_cases removed s q with ⟨_, hs⟩ | ⟨_, _, _, hs⟩ | ⟨_, _, hs⟩
  · rw [hs]
    exact h
  · rw [hs]
    exact and_lockBit_or h
  · rw [hs]
    exact h

/-- A lock that is held stays held through a pass. -/
theorem LockState.Held.foldl {batch : List LockRequest} {index : ℕ} (h : s.Held index) :
    (batch.foldl (TtKmd.wakeWaiter removed) s).Held index := by
  induction batch generalizing s with
  | nil => exact h
  | cons q batch ih => exact ih h.wakeWaiter

/-- What the rounds over a batch put back. -/
theorem foldl_wakeWaiter_queue (removed : Handle → Bool) (batch : List LockRequest)
    (s : LockState) :
    let s' := batch.foldl (wakeWaiter removed) s
    ∃ losers, losers.Sublist batch ∧ s'.lockWaitQueue = s.lockWaitQueue ++ losers ∧
      ∀ q ∈ losers, removed q.file = false ∧ s'.Held q.index := by
  induction batch generalizing s with
  | nil => exact ⟨[], List.Sublist.refl _, by simp, by simp⟩
  | cons q batch ih =>
    obtain ⟨losers, hsub, hqueue, hlosers⟩ := ih (wakeWaiter removed s q)
    simp only [List.foldl_cons]
    rcases wakeWaiter_cases removed s q with ⟨_, hs⟩ | ⟨_, _, _, hs⟩ | ⟨hrem, hheld, hs⟩
    · refine ⟨losers, hsub.cons q, ?_, hlosers⟩
      rw [hqueue, hs]
    · refine ⟨losers, hsub.cons q, ?_, hlosers⟩
      rw [hqueue, hs]
    · refine ⟨q :: losers, hsub.cons_cons q, ?_, ?_⟩
      · rw [hqueue, hs]
        simp
      · intro r hr
        rcases List.mem_cons.mp hr with rfl | hr
        · exact ⟨hrem, hheld.wakeWaiter.foldl⟩
        · exact hlosers r hr

/-- What a pass leaves in the queue: the requests behind the first 64, and those of
the first 64 that wait for a held lock and whose handle is in order. -/
theorem ttLocksWakeWaiters_queue (removed : Handle → Bool) (s : LockState) :
    ∃ losers, losers.Sublist (s.lockWaitQueue.take lockWakeBatch) ∧
      (ttLocksWakeWaiters removed s).lockWaitQueue =
        s.lockWaitQueue.drop lockWakeBatch ++ losers ∧
      ∀ q ∈ losers, removed q.file = false ∧ (ttLocksWakeWaiters removed s).Held q.index :=
  foldl_wakeWaiter_queue removed _ _

/-- A round gives locks to the handle of its request only, and to none that is
removed. -/
theorem wakeWaiter_locksHeld {F : Handle} (h : q.file = F → removed F = true) :
    (wakeWaiter removed s q).locksHeld F = s.locksHeld F := by
  rcases wakeWaiter_cases removed s q with ⟨_, hs⟩ | ⟨hrem, _, _, hs⟩ | ⟨_, _, hs⟩
  · rw [hs]
  · rw [hs]
    refine Function.update_of_ne ?_ _ _
    rintro rfl
    rw [h rfl] at hrem
    cases hrem
  · rw [hs]

/-- A pass gives no lock to a handle that has no request among the first 64, or that
is removed. -/
theorem ttLocksWakeWaiters_locksHeld {F : Handle}
    (h : ∀ q ∈ s.lockWaitQueue.take lockWakeBatch, q.file = F → removed F = true) :
    (ttLocksWakeWaiters removed s).locksHeld F = s.locksHeld F := by
  have hfold : ∀ (batch : List LockRequest) (s : LockState),
      (∀ q ∈ batch, q.file = F → removed F = true) →
      (batch.foldl (wakeWaiter removed) s).locksHeld F = s.locksHeld F := by
    intro batch
    induction batch with
    | nil => exact fun _ _ => rfl
    | cons q batch ih =>
      intro s hbatch
      rw [List.foldl_cons, ih _ (fun r hr => hbatch r (List.mem_cons_of_mem _ hr)),
        wakeWaiter_locksHeld (hbatch q (List.mem_cons_self ..))]
  exact hfold _ _ h

end Pass

end TtKmd
