import TtKmd.Locks.Wakeups
import TtKmd.Lib.Runs

/-!
# Who holds which lock

The map of the held locks and the maps of the handles are updated together by an
acquisition, a release, the close of a handle and every round of a pass. Here they are
read bit by bit: in every reachable state a lock is marked held exactly when a handle
holds it, and no two handles hold the same lock. A pass gives locks to the waiters it
completes and takes none away.

A step is one section under `LockLock`. Which handles are removed at that time is an
input of the step, since the generation and the detach mark are not guarded by the lock.
-/

namespace TtKmd

open Lib

/-- A handle holds a lock. -/
def LockState.Holds (s : LockState) (F : Handle) (index : ℕ) : Prop :=
  s.locksHeld F &&& lockBit index ≠ 0

instance (s : LockState) (F : Handle) (index : ℕ) : Decidable (s.Holds F index) :=
  inferInstanceAs (Decidable (s.locksHeld F &&& lockBit index ≠ 0))

/-- The bits of the mask of a lock. -/
theorem getLsbD_lockBit (index i : ℕ) :
    (lockBit index).getLsbD i = (decide (i < 64) && decide (i = index)) := by
  unfold lockBit
  rw [← BitVec.twoPow_eq, BitVec.getLsbD_twoPow]
  by_cases hi : i = index
  · subst hi
    simp
  · simp [hi, Ne.symm hi]

/-- A mask meets the mask of a lock when its bit is set. -/
theorem and_lockBit_ne_zero {x : BitVec 64} {index : ℕ} :
    x &&& lockBit index ≠ 0 ↔ x.getLsbD index = true := by
  constructor
  · intro h
    by_contra hbit
    apply h
    apply BitVec.eq_of_getLsbD_eq
    intro i hi
    rw [BitVec.getLsbD_and, getLsbD_lockBit]
    by_cases heq : i = index
    · subst heq
      simp [hbit]
    · simp [heq]
  · intro hbit hzero
    have hlt : index < 64 := BitVec.lt_of_getLsbD hbit
    have hboth : (x &&& lockBit index).getLsbD index = true := by
      rw [BitVec.getLsbD_and, getLsbD_lockBit, hbit]
      simp [hlt]
    rw [hzero] at hboth
    simp at hboth

/-- The bits after a lock was added. -/
theorem or_lockBit {x : BitVec 64} {index i : ℕ} :
    (x ||| lockBit index) &&& lockBit i ≠ 0 ↔ x &&& lockBit i ≠ 0 ∨ (i = index ∧ i < 64) := by
  rw [and_lockBit_ne_zero, and_lockBit_ne_zero, BitVec.getLsbD_or, getLsbD_lockBit]
  simp [and_comm]

/-- The bits after a mask was taken away. -/
theorem andNot_bit {x y : BitVec 64} {i : ℕ} :
    (x &&& ~~~y) &&& lockBit i ≠ 0 ↔ x &&& lockBit i ≠ 0 ∧ ¬ y &&& lockBit i ≠ 0 := by
  rw [and_lockBit_ne_zero, and_lockBit_ne_zero, and_lockBit_ne_zero, BitVec.getLsbD_and,
    BitVec.getLsbD_not]
  constructor
  · intro h
    simp only [Bool.and_eq_true, decide_eq_true_eq, Bool.not_eq_true'] at h
    exact ⟨h.1, by simp [h.2.2]⟩
  · rintro ⟨hx, hy⟩
    have hlt : i < 64 := BitVec.lt_of_getLsbD hx
    rw [hx, Bool.eq_false_iff.mpr hy]
    simp [hlt]

/-- A mask of one lock meets the mask of another only if they are the same. -/
theorem lockBit_and {index i : ℕ} : lockBit index &&& lockBit i ≠ 0 ↔ i = index ∧ i < 64 := by
  rw [and_lockBit_ne_zero, getLsbD_lockBit]
  simp [and_comm]

/-- What holds of the maps and of the queue in every reachable state, with `n` handles
opened so far. -/
structure LockState.Consistent (s : LockState) (n : ℕ) : Prop where
  /-- A lock is marked held exactly when a handle holds it. -/
  held_iff : ∀ i, s.Held i ↔ ∃ F, s.Holds F i
  /-- A lock has one holder at most. -/
  single : ∀ i F G, s.Holds F i → s.Holds G i → F = G
  /-- A holder was opened. -/
  opened : ∀ F i, s.Holds F i → F < n
  /-- A waiter was opened and waits for a lock that exists. -/
  waiting : ∀ q ∈ s.lockWaitQueue, q.file < n ∧ q.index < resourceLockCount

section Updates

variable {s s' : LockState} {n : ℕ} {F : Handle} {index : ℕ}

/-- The holders after an acquisition. -/
structure Acquired (s s' : LockState) (F : Handle) (index : ℕ) : Prop where
  /-- The lock was free. -/
  free : ¬ s.Held index
  /-- The map of the device. -/
  held : ∀ i, s'.Held i ↔ s.Held i ∨ (i = index ∧ i < 64)
  /-- The maps of the handles. -/
  holds : ∀ G i, s'.Holds G i ↔ s.Holds G i ∨ (G = F ∧ i = index ∧ i < 64)

/-- The maps that `TtLockTryAcquire` leaves. -/
theorem acquired_of_maps (hfree : ¬ s.Held index)
    (hheld : s'.resourceLockHeld = s.resourceLockHeld ||| lockBit index)
    (hholds : s'.locksHeld = Function.update s.locksHeld F (s.locksHeld F ||| lockBit index)) :
    Acquired s s' F index := by
  refine ⟨hfree, ?_, ?_⟩
  · intro i
    unfold LockState.Held
    rw [hheld]
    exact or_lockBit
  · intro G i
    unfold LockState.Holds
    rw [hholds]
    by_cases hG : G = F
    · subst hG
      rw [Function.update_self, or_lockBit]
      simp
    · rw [Function.update_of_ne hG]
      simp [hG]

/-- Everything `TtLockTryAcquire` can do. -/
theorem ttLockTryAcquire_cases (s : LockState) (F : Handle) (index : ℕ) :
    (s.Held index ∧ ttLockTryAcquire s F index = none) ∨
      ∃ s', ttLockTryAcquire s F index = some s' ∧ Acquired s s' F index ∧
        s'.lockWaitQueue = s.lockWaitQueue ∧ s'.completed = s.completed := by
  by_cases hheld : s.Held index
  · exact .inl ⟨hheld, ttLockTryAcquire_of_held hheld⟩
  · exact .inr ⟨_, ttLockTryAcquire_of_free hheld, acquired_of_maps hheld rfl rfl, rfl, rfl⟩

/-- An acquisition keeps the table consistent. -/
theorem LockState.Consistent.acquired (h : s.Consistent n) (hacq : Acquired s s' F index)
    (hF : F < n) (hqueue : ∀ q ∈ s'.lockWaitQueue, q ∈ s.lockWaitQueue) : s'.Consistent n := by
  refine ⟨?_, ?_, ?_, fun q hq => h.waiting q (hqueue q hq)⟩
  · intro i
    rw [hacq.held, h.held_iff]
    constructor
    · rintro (⟨G, hG⟩ | ⟨rfl, hi⟩)
      · exact ⟨G, (hacq.holds G i).mpr (.inl hG)⟩
      · exact ⟨F, (hacq.holds F _).mpr (.inr ⟨rfl, rfl, hi⟩)⟩
    · rintro ⟨G, hG⟩
      rcases (hacq.holds G i).mp hG with hG | ⟨-, hi⟩
      · exact .inl ⟨G, hG⟩
      · exact .inr hi
  · intro i G G' hG hG'
    rcases (hacq.holds G i).mp hG with hG | ⟨rfl, rfl, -⟩
    · rcases (hacq.holds G' i).mp hG' with hG' | ⟨rfl, rfl, -⟩
      · exact h.single i G G' hG hG'
      · exact absurd ((h.held_iff _).mpr ⟨G, hG⟩) hacq.free
    · rcases (hacq.holds G' _).mp hG' with hG' | ⟨rfl, -, -⟩
      · exact absurd ((h.held_iff _).mpr ⟨G', hG'⟩) hacq.free
      · rfl
  · intro G i hG
    rcases (hacq.holds G i).mp hG with hG | ⟨rfl, -, -⟩
    · exact h.opened G i hG
    · exact hF

/-- Steps that leave the maps alone keep the table consistent. -/
theorem LockState.Consistent.congr (h : s.Consistent n)
    (hheld : s'.resourceLockHeld = s.resourceLockHeld) (hholds : s'.locksHeld = s.locksHeld)
    (hqueue : ∀ q ∈ s'.lockWaitQueue, q.file < n ∧ q.index < resourceLockCount) :
    s'.Consistent n := by
  refine ⟨?_, ?_, ?_, hqueue⟩
  · intro i
    have := h.held_iff i
    unfold LockState.Held LockState.Holds at this ⊢
    rw [hheld, hholds]
    exact this
  · intro i G G' hG hG'
    unfold LockState.Holds at hG hG'
    rw [hholds] at hG hG'
    exact h.single i G G' hG hG'
  · intro G i hG
    unfold LockState.Holds at hG
    rw [hholds] at hG
    exact h.opened G i hG

/-- The holders after some holdings of a handle were taken away. -/
structure Dropped (s s' : LockState) (F : Handle) (gone : ℕ → Prop) : Prop where
  /-- What is taken away was held. -/
  had : ∀ i, gone i → s.Holds F i
  /-- The map of the device. -/
  held : ∀ i, s'.Held i ↔ s.Held i ∧ ¬ gone i
  /-- The maps of the handles. -/
  holds : ∀ G i, s'.Holds G i ↔ s.Holds G i ∧ ¬ (G = F ∧ gone i)
  /-- The queue. -/
  queue : s'.lockWaitQueue = s.lockWaitQueue
  /-- The completions. -/
  completed : s'.completed = s.completed

/-- What is taken from its holder leaves the table consistent. -/
theorem LockState.Consistent.dropped (h : s.Consistent n) {gone : ℕ → Prop}
    (hdrop : Dropped s s' F gone) : s'.Consistent n := by
  refine ⟨?_, ?_, ?_, ?_⟩
  · intro i
    rw [hdrop.held, h.held_iff]
    constructor
    · rintro ⟨⟨G, hG⟩, hkept⟩
      exact ⟨G, (hdrop.holds G i).mpr ⟨hG, fun hgone => hkept hgone.2⟩⟩
    · rintro ⟨G, hG⟩
      obtain ⟨hG, hkept⟩ := (hdrop.holds G i).mp hG
      refine ⟨⟨G, hG⟩, fun hgone => hkept ⟨?_, hgone⟩⟩
      exact h.single i G F hG (hdrop.had i hgone)
  · intro i G G' hG hG'
    exact h.single i G G' ((hdrop.holds G i).mp hG).1 ((hdrop.holds G' i).mp hG').1
  · intro G i hG
    exact h.opened G i ((hdrop.holds G i).mp hG).1
  · rw [hdrop.queue]
    exact h.waiting

/-- The maps after a lock was taken from its holder. -/
theorem dropped_release (hholds : s.Holds F index) :
    Dropped s { s with
      locksHeld := Function.update s.locksHeld F (s.locksHeld F &&& ~~~(lockBit index))
      resourceLockHeld := s.resourceLockHeld &&& ~~~(lockBit index) } F (· = index) := by
  have hlt : index < 64 := BitVec.lt_of_getLsbD (and_lockBit_ne_zero.mp hholds)
  have hbit : ∀ i, (lockBit index &&& lockBit i ≠ 0) ↔ i = index := by
    intro i
    rw [lockBit_and]
    exact ⟨fun hi => hi.1, fun hi => ⟨hi, hi ▸ hlt⟩⟩
  refine ⟨?_, ?_, ?_, rfl, rfl⟩
  · rintro i rfl
    exact hholds
  · intro i
    unfold LockState.Held
    dsimp only
    rw [andNot_bit, hbit]
  · intro G i
    unfold LockState.Holds
    dsimp only
    by_cases hG : G = F
    · subst hG
      rw [Function.update_self, andNot_bit, hbit]
      simp
    · rw [Function.update_of_ne hG]
      simp [hG]

/-- The maps after all locks of a handle were taken from it. -/
theorem dropped_all (s : LockState) (F : Handle) :
    Dropped s { s with
      resourceLockHeld := s.resourceLockHeld &&& ~~~(s.locksHeld F)
      locksHeld := Function.update s.locksHeld F 0 } F (s.Holds F) := by
  refine ⟨fun _ h => h, ?_, ?_, rfl, rfl⟩
  · intro i
    unfold LockState.Held LockState.Holds
    dsimp only
    rw [andNot_bit]
  · intro G i
    unfold LockState.Holds
    dsimp only
    by_cases hG : G = F
    · subst hG
      rw [Function.update_self]
      simp
    · rw [Function.update_of_ne hG]
      simp [hG]

end Updates

section Pass

variable {removed : Handle → Bool} {s s' : LockState} {n : ℕ} {q : LockRequest}

/-- A round keeps the table consistent. -/
theorem LockState.Consistent.wakeWaiter (h : s.Consistent n)
    (hq : q.file < n ∧ q.index < resourceLockCount) : (wakeWaiter removed s q).Consistent n := by
  rcases wakeWaiter_cases removed s q with ⟨-, hs⟩ | ⟨-, hfree, completed, hs⟩ | ⟨-, -, hs⟩
  · rw [hs]
    exact h.congr rfl rfl h.waiting
  · rw [hs]
    exact h.acquired (acquired_of_maps hfree rfl rfl) hq.1 fun _ hr => hr
  · rw [hs]
    refine h.congr rfl rfl ?_
    intro r hr
    rcases List.mem_append.mp hr with hr | hr
    · exact h.waiting r hr
    · rw [List.mem_singleton.mp hr]
      exact hq

/-- The rounds over a batch keep the table consistent. -/
theorem LockState.Consistent.foldl {batch : List LockRequest} (h : s.Consistent n)
    (hbatch : ∀ q ∈ batch, q.file < n ∧ q.index < resourceLockCount) :
    (batch.foldl (TtKmd.wakeWaiter removed) s).Consistent n := by
  induction batch generalizing s with
  | nil => exact h
  | cons q batch ih =>
    apply ih (h.wakeWaiter (hbatch q (List.mem_cons_self ..)))
    intro r hr
    exact hbatch r (List.mem_cons_of_mem _ hr)

/-- A pass keeps the table consistent. -/
theorem LockState.Consistent.wake (h : s.Consistent n) :
    (ttLocksWakeWaiters removed s).Consistent n := by
  apply LockState.Consistent.foldl
  · exact h.congr rfl rfl fun q hq => h.waiting q (List.mem_of_mem_drop hq)
  · exact fun q hq => h.waiting q (List.mem_of_mem_take hq)

/-- What the rounds over some of the waiters do to the holders: `fresh` are the
completions they add. -/
structure Woken (waiters : List LockRequest) (s s' : LockState)
    (fresh : List (LockRequest × NtStatus)) : Prop where
  /-- The completions afterwards. -/
  completed : s'.completed = s.completed ++ fresh
  /-- Every new completion is one of a waiter. -/
  waiter : ∀ c ∈ fresh, c.1 ∈ waiters
  /-- A waiter wins its lock or fails because its handle is removed. -/
  status : ∀ c ∈ fresh, c.2 = .success ∨ c.2 = .deviceRemoved
  /-- The lock of a winner was free, and the winner holds it. -/
  won : ∀ c ∈ fresh, c.2 = .success → ¬ s.Held c.1.index ∧ s'.Holds c.1.file c.1.index
  /-- No other handle gets a lock, and none loses one. -/
  holds : ∀ G i, s'.Holds G i ↔
    s.Holds G i ∨ ∃ c ∈ fresh, c.2 = .success ∧ c.1.file = G ∧ c.1.index = i
  /-- A held lock stays held. -/
  held : ∀ i, s.Held i → s'.Held i

/-- Nothing is done. -/
theorem Woken.refl (waiters : List LockRequest) (s : LockState) : Woken waiters s s [] :=
  ⟨by simp, by simp, by simp, by simp, by simp, fun _ h => h⟩

/-- Two groups of rounds in a row. -/
theorem Woken.trans {waiters : List LockRequest} {t : LockState}
    {fresh fresh' : List (LockRequest × NtStatus)} (h : Woken waiters s t fresh)
    (h' : Woken waiters t s' fresh') : Woken waiters s s' (fresh ++ fresh') := by
  constructor
  · rw [h'.completed, h.completed, List.append_assoc]
  · intro c hc
    rcases List.mem_append.mp hc with hc | hc
    · exact h.waiter c hc
    · exact h'.waiter c hc
  · intro c hc
    rcases List.mem_append.mp hc with hc | hc
    · exact h.status c hc
    · exact h'.status c hc
  · intro c hc hwin
    rcases List.mem_append.mp hc with hc | hc
    · obtain ⟨hfree, hwon⟩ := h.won c hc hwin
      exact ⟨hfree, (h'.holds _ _).mpr (.inl hwon)⟩
    · obtain ⟨hfree, hwon⟩ := h'.won c hc hwin
      exact ⟨fun hheld => hfree (h.held _ hheld), hwon⟩
  · intro G i
    rw [h'.holds, h.holds]
    constructor
    · rintro ((hG | ⟨c, hc, hwin⟩) | ⟨c, hc, hwin⟩)
      · exact .inl hG
      · exact .inr ⟨c, List.mem_append_left _ hc, hwin⟩
      · exact .inr ⟨c, List.mem_append_right _ hc, hwin⟩
    · rintro (hG | ⟨c, hc, hwin⟩)
      · exact .inl (.inl hG)
      · rcases List.mem_append.mp hc with hc | hc
        · exact .inl (.inr ⟨c, hc, hwin⟩)
        · exact .inr ⟨c, hc, hwin⟩
  · exact fun i hi => h'.held i (h.held i hi)

/-- The output buffer of a waiter holds the answer, and its lock exists. -/
def LockRequest.Fits (q : LockRequest) : Prop := 16 ≤ q.output ∧ q.index < resourceLockCount

/-- One round. -/
theorem woken_wakeWaiter {waiters : List LockRequest} (hq : q ∈ waiters) (hfits : q.Fits) :
    ∃ fresh, Woken waiters s (wakeWaiter removed s q) fresh := by
  unfold TtKmd.wakeWaiter
  split
  · refine ⟨[(q, .deviceRemoved)], rfl, ?_, ?_, ?_, ?_, fun _ h => h⟩
    · simpa using hq
    · simp
    · simp
    · intro G i
      simp [LockState.Holds]
  · rcases ttLockTryAcquire_cases s q.file q.index with ⟨-, hnone⟩ | ⟨t, hsome, hacq, -, hcomp⟩
    · rw [hnone]
      refine ⟨[], by simp, by simp, by simp, by simp, ?_, fun _ h => h⟩
      intro G i
      simp [LockState.Holds]
    · rw [hsome]
      have hstatus : (if q.output < 16 then NtStatus.accessViolation else .success) = .success :=
        if_neg (by unfold LockRequest.Fits at hfits; omega)
      simp only [ttLockCompleteAcquired, hstatus]
      have hlt : q.index < 64 := hfits.2
      refine ⟨[(q, .success)], by simp [hcomp], by simpa using hq, by simp, ?_, ?_, ?_⟩
      · intro c hc _
        rw [List.mem_singleton.mp hc]
        exact ⟨hacq.free, (hacq.holds _ _).mpr (.inr ⟨rfl, rfl, hlt⟩)⟩
      · intro G i
        refine (hacq.holds G i).trans ?_
        constructor
        · rintro (hG | ⟨rfl, rfl, -⟩)
          · exact .inl hG
          · exact .inr ⟨_, List.mem_singleton_self _, rfl, rfl, rfl⟩
        · rintro (hG | ⟨c, hc, -, rfl, rfl⟩)
          · exact .inl hG
          · rw [List.mem_singleton.mp hc]
            exact .inr ⟨rfl, rfl, hlt⟩
      · exact fun i hi => (hacq.held i).mpr (.inl hi)

/-- The rounds over a batch. -/
theorem woken_foldl {waiters batch : List LockRequest} (hbatch : ∀ q ∈ batch, q ∈ waiters)
    (hfits : ∀ q ∈ batch, q.Fits) (s : LockState) :
    ∃ fresh, Woken waiters s (batch.foldl (wakeWaiter removed) s) fresh := by
  induction batch generalizing s with
  | nil => exact ⟨[], .refl _ _⟩
  | cons q batch ih =>
    obtain ⟨fresh, hround⟩ := @woken_wakeWaiter removed s q waiters
      (hbatch q (List.mem_cons_self ..)) (hfits q (List.mem_cons_self ..))
    obtain ⟨fresh', hrest⟩ := ih (fun r hr => hbatch r (List.mem_cons_of_mem _ hr))
      (fun r hr => hfits r (List.mem_cons_of_mem _ hr)) (wakeWaiter removed s q)
    exact ⟨fresh ++ fresh', hround.trans hrest⟩

/-- A pass. -/
theorem woken_wake (hfits : ∀ q ∈ s.lockWaitQueue, q.Fits) :
    ∃ fresh, Woken s.lockWaitQueue s (ttLocksWakeWaiters removed s) fresh := by
  obtain ⟨fresh, hpass⟩ := @woken_foldl removed s.lockWaitQueue (s.lockWaitQueue.take lockWakeBatch)
    (fun q hq => List.mem_of_mem_take hq)
    (fun q hq => hfits q (List.mem_of_mem_take hq))
    { s with lockWaitQueue := s.lockWaitQueue.drop lockWakeBatch }
  exact ⟨fresh, hpass.completed, hpass.waiter, hpass.status, hpass.won, hpass.holds, hpass.held⟩

end Pass

end TtKmd
