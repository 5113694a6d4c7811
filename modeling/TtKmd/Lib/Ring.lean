import Mathlib.Data.List.Infix
import Mathlib.Data.Nat.ModEq
import Mathlib.Logic.Function.Basic

/-!
# Ring buffers with pointers modulo twice their size

A ring of `n` cells is shared by one producer and one consumer, whose pointers
run modulo `2 * n` so that a full ring differs from an empty one. A cell has `k`
words and is written and read one word at a time. The ring carries the history
of messages published and taken; `Ring.Ok` says that the consumer has taken a
prefix of what was published and that the rest is intact in its cells. Each
operation of either side keeps it, and so keeps the other side's unfinished work.
-/

namespace TtKmd.Lib

variable {k : ℕ} {β : Type*}

/-- The contents of a ring and the messages that went through it. -/
@[ext] structure Ring (k : ℕ) (β : Type*) where
  /-- The producer's pointer. -/
  wptr : ℕ
  /-- The consumer's pointer. -/
  rptr : ℕ
  /-- The words of each cell. -/
  cell : ℕ → Fin k → β
  /-- Every message published so far. -/
  sent : List (Fin k → β)
  /-- Every message taken so far. -/
  recv : List (Fin k → β)

/-- The number of messages published and not taken. -/
def Ring.unread (R : Ring k β) : ℕ := R.sent.length - R.recv.length

/-- The producer writes one word of the cell at its pointer. -/
def Ring.store (n : ℕ) (j : Fin k) (v : β) (R : Ring k β) : Ring k β :=
  { R with
    cell := Function.update R.cell (R.wptr % n) (Function.update (R.cell (R.wptr % n)) j v) }

/-- The producer advances its pointer past the message it has written. -/
def Ring.publish (n : ℕ) (m : Fin k → β) (R : Ring k β) : Ring k β :=
  { R with wptr := (R.wptr + 1) % (2 * n), sent := R.sent ++ [m] }

/-- The consumer advances its pointer past the message it has read. -/
def Ring.take (n : ℕ) (m : Fin k → β) (R : Ring k β) : Ring k β :=
  { R with rptr := (R.rptr + 1) % (2 * n), recv := R.recv ++ [m] }

/-- A ring of `n` cells is consistent with its history. -/
structure Ring.Ok (n : ℕ) (R : Ring k β) : Prop where
  /-- What was taken is what was published, in order. -/
  taken : R.recv <+: R.sent
  /-- No more than `n` messages are unread. -/
  room : R.unread ≤ n
  /-- The consumer's pointer is reduced. -/
  rptr_lt : R.rptr < 2 * n
  /-- The producer's pointer is ahead by the unread messages. -/
  wptr_eq : R.wptr = (R.rptr + R.unread) % (2 * n)
  /-- The unread messages are in their cells. -/
  intact : ∀ j < R.unread, R.sent[R.recv.length + j]? = some (R.cell ((R.rptr + j) % n))

/-- The producer has found a free cell and written the first `i` words of `m`. -/
structure Ring.Writing (n : ℕ) (m : Fin k → β) (i : ℕ) (R : Ring k β) : Prop where
  /-- The cell at the producer's pointer is free. -/
  free : R.unread < n
  /-- The words written so far. -/
  filled : ∀ j : Fin k, j.val < i → R.cell (R.wptr % n) j = m j

/-- The consumer has found a message and read its first `i` words into `acc`. -/
structure Ring.Reading (i : ℕ) (acc : Fin k → β) (R : Ring k β) : Prop where
  /-- A message is unread. -/
  pending : 0 < R.unread
  /-- The words read so far are those of the oldest unread message. -/
  got : ∃ m, R.sent[R.recv.length]? = some m ∧ ∀ j : Fin k, j.val < i → acc j = m j

/-- The ring before any operation: the pointers describe at most `n` outstanding
messages, which are the cells between them. -/
structure Ring.Start (n : ℕ) (R : Ring k β) : Prop where
  /-- The producer's pointer is reduced. -/
  wptr_lt : R.wptr < 2 * n
  /-- The consumer's pointer is reduced. -/
  rptr_lt : R.rptr < 2 * n
  /-- At most `n` messages are outstanding. -/
  room : (R.wptr + 2 * n - R.rptr) % (2 * n) ≤ n
  /-- The outstanding messages are the ones to be taken. -/
  sent_eq : R.sent = (List.range ((R.wptr + 2 * n - R.rptr) % (2 * n))).map
    fun j => R.cell ((R.rptr + j) % n)
  /-- Nothing was taken yet. -/
  recv_eq : R.recv = []

variable {n : ℕ} {R : Ring k β} {m acc : Fin k → β} {i : ℕ}

/-- Reduction modulo `2 * n` does not change the cell a pointer selects. -/
theorem mod_two_mul_mod (x n : ℕ) : x % (2 * n) % n = x % n :=
  Nat.mod_mod_of_dvd x (Dvd.intro_left 2 rfl)

/-- Fewer than `n` steps ahead of a cell is another cell. -/
theorem add_mod_ne {r j u n : ℕ} (hj : j < u) (hu : u < n) : (r + j) % n ≠ (r + u) % n := by
  intro h
  have hcongr : j ≡ u [MOD n] := Nat.ModEq.add_left_cancel' r h
  rw [Nat.ModEq, Nat.mod_eq_of_lt (hj.trans hu), Nat.mod_eq_of_lt hu] at hcongr
  omega

/-- The cell at the producer's pointer is none of the unread ones while one is free. -/
theorem Ring.Ok.cell_ne (hok : R.Ok n) (hfree : R.unread < n) {j : ℕ} (hj : j < R.unread) :
    (R.rptr + j) % n ≠ R.wptr % n := by
  rw [hok.wptr_eq, mod_two_mul_mod]
  exact add_mod_ne hj hfree

/-- A start state is consistent. -/
theorem Ring.Start.ok (hs : R.Start n) : R.Ok n := by
  have hw := hs.wptr_lt
  have hr := hs.rptr_lt
  have hunread : R.unread = (R.wptr + 2 * n - R.rptr) % (2 * n) := by
    simp [Ring.unread, hs.sent_eq, hs.recv_eq]
  refine ⟨?_, ?_, hr, ?_, ?_⟩
  · rw [hs.recv_eq]
    exact List.nil_prefix
  · rw [hunread]
    exact hs.room
  · rw [hunread, Nat.add_mod_mod, show R.rptr + (R.wptr + 2 * n - R.rptr) = R.wptr + 2 * n by omega,
      Nat.add_mod_right, Nat.mod_eq_of_lt hw]
  · intro j hj
    rw [hunread] at hj
    simp [hs.sent_eq, hs.recv_eq, hj]

/-- Writing to the free cell keeps the ring consistent. -/
theorem Ring.Ok.store (hok : R.Ok n) (hfree : R.unread < n) (j : Fin k) (v : β) :
    (R.store n j v).Ok n := by
  refine ⟨hok.taken, hok.room, hok.rptr_lt, hok.wptr_eq, ?_⟩
  intro i hi
  have hcell : (R.store n j v).cell ((R.rptr + i) % n) = R.cell ((R.rptr + i) % n) :=
    Function.update_of_ne (hok.cell_ne hfree hi) _ _
  rw [show (R.store n j v).rptr = R.rptr from rfl, hcell]
  exact hok.intact i hi

/-- One more word of the message is in the cell. -/
theorem Ring.Writing.store (hw : R.Writing n m i) (hi : i < k) :
    (R.store n ⟨i, hi⟩ (m ⟨i, hi⟩)).Writing n m (i + 1) := by
  refine ⟨hw.free, ?_⟩
  intro j hj
  have hcell : (R.store n ⟨i, hi⟩ (m ⟨i, hi⟩)).cell (R.wptr % n) =
      Function.update (R.cell (R.wptr % n)) ⟨i, hi⟩ (m ⟨i, hi⟩) := Function.update_self _ _ _
  rw [show (R.store n ⟨i, hi⟩ (m ⟨i, hi⟩)).wptr = R.wptr from rfl, hcell]
  by_cases h : j = ⟨i, hi⟩
  · rw [h, Function.update_self]
  · rw [Function.update_of_ne h]
    refine hw.filled j ?_
    have : j.val ≠ i := fun h' => h (Fin.ext h')
    omega

/-- The consumer's unfinished read survives a write of the producer. -/
theorem Ring.Reading.store (hr : R.Reading i acc) (n : ℕ) (j : Fin k) (v : β) :
    (R.store n j v).Reading i acc := ⟨hr.pending, hr.got⟩

/-- The next word the consumer reads is that of the oldest unread message. -/
theorem Ring.Reading.load (hok : R.Ok n) (hr : R.Reading i acc) (hi : i < k) :
    R.Reading (i + 1) (Function.update acc ⟨i, hi⟩ (R.cell (R.rptr % n) ⟨i, hi⟩)) := by
  obtain ⟨m, hm, hgot⟩ := hr.got
  have hcell := hok.intact 0 hr.pending
  rw [Nat.add_zero, Nat.add_zero, hm, Option.some.injEq] at hcell
  refine ⟨hr.pending, m, hm, ?_⟩
  intro j hj
  by_cases h : j = ⟨i, hi⟩
  · rw [h, Function.update_self, ← hcell]
  · rw [Function.update_of_ne h]
    refine hgot j ?_
    have : j.val ≠ i := fun h' => h (Fin.ext h')
    omega

/-- What was taken is no longer than what was published. -/
theorem Ring.Ok.length_le (hok : R.Ok n) : R.recv.length ≤ R.sent.length := hok.taken.length_le

/-- The unread count after a publication. -/
theorem Ring.Ok.unread_publish (hok : R.Ok n) (m : Fin k → β) :
    (R.publish n m).unread = R.unread + 1 := by
  have := hok.length_le
  simp only [Ring.unread, Ring.publish, List.length_append, List.length_singleton]
  omega

/-- The unread count after a message was taken. -/
theorem Ring.unread_take (R : Ring k β) (n : ℕ) (m : Fin k → β) :
    (R.take n m).unread = R.unread - 1 := by
  simp only [Ring.unread, Ring.take, List.length_append, List.length_singleton]
  omega

/-- Publishing a completely written message keeps the ring consistent. -/
theorem Ring.Ok.publish (hok : R.Ok n) (hw : R.Writing n m k) : (R.publish n m).Ok n := by
  have hunread := hok.unread_publish m
  have hle := hok.length_le
  have hfree := hw.free
  have hcell : R.cell (R.wptr % n) = m := funext fun j => hw.filled j j.isLt
  refine ⟨hok.taken.trans (List.prefix_append _ _), ?_, hok.rptr_lt, ?_, ?_⟩
  · omega
  · rw [hunread]
    simp only [Ring.publish]
    rw [hok.wptr_eq, Nat.mod_add_mod, Nat.add_assoc]
  · intro j hj
    rw [hunread] at hj
    simp only [Ring.publish]
    by_cases hlast : j = R.unread
    · -- the message just published
      have hlen : R.recv.length + j = R.sent.length := by
        unfold Ring.unread at hlast
        omega
      rw [hlen, List.getElem?_concat_length, hlast, ← hcell, hok.wptr_eq, mod_two_mul_mod]
    · have hj' : j < R.unread := by omega
      rw [List.getElem?_append_left (by unfold Ring.unread at hj'; omega)]
      exact hok.intact j hj'

/-- The consumer's unfinished read survives a publication. -/
theorem Ring.Reading.publish (hr : R.Reading i acc) (n : ℕ) (m : Fin k → β) :
    (R.publish n m).Reading i acc := by
  obtain ⟨x, hx, hgot⟩ := hr.got
  have hpos := hr.pending
  constructor
  · simp only [Ring.unread, Ring.publish, List.length_append, List.length_singleton] at hpos ⊢
    omega
  · refine ⟨x, ?_, hgot⟩
    simp only [Ring.publish]
    rw [List.getElem?_append_left (by unfold Ring.unread at hpos; omega)]
    exact hx

/-- Taking a completely read message keeps the ring consistent. -/
theorem Ring.Ok.take (hok : R.Ok n) (hr : R.Reading k acc) : (R.take n acc).Ok n := by
  obtain ⟨x, hx, hgot⟩ := hr.got
  have hunread := R.unread_take n acc
  have hpos := hr.pending
  have hroom := hok.room
  have hrptr := hok.rptr_lt
  have hacc : acc = x := funext fun j => hgot j j.isLt
  refine ⟨?_, ?_, Nat.mod_lt _ (by omega), ?_, ?_⟩
  · obtain ⟨rest, hrest⟩ := hok.taken
    simp only [Ring.take]
    rw [← hrest, List.getElem?_append_right le_rfl, Nat.sub_self] at hx
    cases rest with
    | nil => simp at hx
    | cons y ys =>
      rw [List.getElem?_cons_zero, Option.some.injEq] at hx
      refine ⟨ys, ?_⟩
      rw [← hrest, hacc, hx, List.append_assoc]
      rfl
  · omega
  · rw [hunread]
    simp only [Ring.take]
    rw [Nat.mod_add_mod, show R.rptr + 1 + (R.unread - 1) = R.rptr + R.unread by omega]
    exact hok.wptr_eq
  · intro j hj
    rw [hunread] at hj
    have h := hok.intact (j + 1) (by omega)
    simp only [Ring.take, List.length_append, List.length_singleton]
    have hcell : ((R.rptr + 1) % (2 * n) + j) % n = (R.rptr + (j + 1)) % n := by
      rw [Nat.add_mod, mod_two_mul_mod, ← Nat.add_mod, Nat.add_assoc, Nat.add_comm 1 j]
    rw [Nat.add_assoc, Nat.add_comm 1 j, h, hcell]

/-- The producer's unfinished write survives the taking of a message. -/
theorem Ring.Writing.take (hw : R.Writing n m i) (x : Fin k → β) :
    (R.take n x).Writing n m i := by
  have hfree := hw.free
  refine ⟨?_, hw.filled⟩
  rw [Ring.unread_take]
  omega

/-- A producer that finds a free cell may begin to write. -/
theorem Ring.Writing.start (hfree : R.unread < n) (m : Fin k → β) : R.Writing n m 0 :=
  ⟨hfree, fun _ h => absurd h (Nat.not_lt_zero _)⟩

/-- A consumer that finds a message may begin to read. -/
theorem Ring.Reading.start (hpos : 0 < R.unread) (acc : Fin k → β) : R.Reading 0 acc := by
  have hlt : R.recv.length < R.sent.length := by
    unfold Ring.unread at hpos
    omega
  exact ⟨hpos, R.sent.get ⟨_, hlt⟩, List.getElem?_eq_getElem hlt,
    fun _ h => absurd h (Nat.not_lt_zero _)⟩

/-- Where `2 * n` divides the range `M` of the machine's integers, the wrapped
difference of the pointers, reduced, is the unread count. -/
theorem Ring.Ok.wrapped_sub (hok : R.Ok n) {M : ℕ} (hdvd : 2 * n ∣ M) (hM : 0 < M) :
    (R.wptr + M - R.rptr) % M % (2 * n) = R.unread := by
  have hle : 2 * n ≤ M := Nat.le_of_dvd hM hdvd
  have hr := hok.rptr_lt
  have hroom := hok.room
  rw [Nat.mod_mod_of_dvd _ hdvd]
  obtain ⟨c, rfl⟩ := hdvd
  have hcongr : (R.wptr + 2 * n * c - R.rptr) ≡ R.unread [MOD 2 * n] := by
    apply Nat.ModEq.add_right_cancel' R.rptr
    rw [show R.wptr + 2 * n * c - R.rptr + R.rptr = R.wptr + 2 * n * c by omega]
    unfold Nat.ModEq
    rw [Nat.add_mul_mod_self_left, hok.wptr_eq, Nat.mod_mod, Nat.add_comm]
  rw [hcongr, Nat.mod_eq_of_lt (by omega)]

end TtKmd.Lib
