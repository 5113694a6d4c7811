import TtKmd.Lib.Runs
import Mathlib.Data.List.Perm.Basic

/-!
# Queues that are served in rounds

A component has a queue whose elements are taken off the head in batches. A round looks at a batch
and puts some of it back at the tail; between the rounds elements join at the tail or leave from
any place.

Two things are proved of such a queue. An element gets its turn in the round that its place
stands for, or it has left before, however many elements join. And when a round has room for the
whole queue, the elements of one class are served in the order in which they came, none of them
twice and none of them forgotten.
-/

namespace TtKmd.Lib

/-! ## Turns -/

section Turns

variable {σ ε α : Type*} {next : σ → ε → Option σ} {queue : σ → List α} {batch : ℕ}
  {round : σ → ε → Bool} {leaves : ε → ℕ → Prop} {s t : σ} {e : ε} {es : List ε} {p : ℕ} {a : α}

/-- The queue of a component is served in rounds of a batch. -/
structure ServedInRounds (next : σ → ε → Option σ) (queue : σ → List α) (batch : ℕ)
    (round : σ → ε → Bool) (leaves : ε → ℕ → Prop) : Prop where
  /-- A batch has elements. -/
  pos : 0 < batch
  /-- A round takes a batch off the head. -/
  pass : ∀ {s e t}, next s e = some t → round s e = true →
    ∃ losers, queue t = (queue s).drop batch ++ losers
  /-- Another step adds elements at the tail, or takes one out of its place. -/
  rest : ∀ {s e t}, next s e = some t → round s e = false →
    (∃ joined, queue t = queue s ++ joined) ∨ ∃ k, leaves e k ∧ queue t = (queue s).eraseIdx k

/-- The number of rounds of a sequence of steps. -/
def countRounds (next : σ → ε → Option σ) (round : σ → ε → Bool) : σ → List ε → ℕ
  | _, [] => 0
  | s, e :: es =>
      (if round s e then 1 else 0) + (next s e).elim 0 fun t => countRounds next round t es

/-- The rounds after a first step. -/
theorem countRounds_cons (hstep : next s e = some t) :
    countRounds next round s (e :: es) =
      (if round s e then 1 else 0) + countRounds next round t es := by
  rw [countRounds, hstep]
  rfl

/-- Where an element is after a step that neither gives it its turn nor takes it out. -/
theorem ServedInRounds.place (h : ServedInRounds next queue batch round leaves)
    (hstep : next s e = some t) (hp : (queue s)[p]? = some a)
    (hturn : ¬(round s e = true ∧ p < batch)) (hleaves : ¬leaves e p) :
    ∃ p', (queue t)[p']? = some a ∧ p' ≤ p ∧ (round s e = true → p' + batch = p) := by
  have hlt : p < (queue s).length := (List.getElem?_eq_some_iff.mp hp).1
  cases hround : round s e with
  | true =>
    have hbehind : batch ≤ p := by
      by_contra hfront
      exact hturn ⟨hround, Nat.lt_of_not_le hfront⟩
    obtain ⟨losers, hqueue⟩ := h.pass hstep hround
    refine ⟨p - batch, ?_, Nat.sub_le _ _, fun _ => Nat.sub_add_cancel hbehind⟩
    rw [hqueue, List.getElem?_append_left (by rw [List.length_drop]; omega), List.getElem?_drop,
      Nat.add_sub_cancel' hbehind]
    exact hp
  | false =>
    rcases h.rest hstep hround with ⟨joined, hqueue⟩ | ⟨k, hk, hqueue⟩
    · refine ⟨p, ?_, Nat.le_refl p, by simp⟩
      rw [hqueue, List.getElem?_append_left hlt]
      exact hp
    · rcases Nat.lt_trichotomy p k with hpk | rfl | hkp
      · refine ⟨p, ?_, Nat.le_refl p, by simp⟩
        rw [hqueue, List.getElem?_eraseIdx_of_lt hpk]
        exact hp
      · exact absurd hk hleaves
      · refine ⟨p - 1, ?_, Nat.sub_le _ _, by simp⟩
        rw [hqueue, List.getElem?_eraseIdx_of_ge (by omega), Nat.sub_add_cancel (by omega)]
        exact hp

/-- An element gets its turn: within as many rounds as its place stands for, a round finds it among
the first of the queue, unless it has left before. -/
theorem ServedInRounds.turn (h : ServedInRounds next queue batch round leaves)
    (hrun : Run (partialGraph next) s es t) (hp : (queue s)[p]? = some a)
    (hrounds : p / batch < countRounds next round s es) :
    ∃ es₁ e es₂ u u' p', es = es₁ ++ e :: es₂ ∧ Run (partialGraph next) s es₁ u ∧
      next u e = some u' ∧ Run (partialGraph next) u' es₂ t ∧ (queue u)[p']? = some a ∧
      countRounds next round s es₁ ≤ p / batch ∧
      (round u e = true ∧ p' < batch ∨ leaves e p') := by
  induction hrun generalizing p with
  | nil s => exact absurd hrounds (Nat.not_lt_zero _)
  | @cons s u t e es hstep hrest ih =>
    by_cases hnow : round s e = true ∧ p < batch ∨ leaves e p
    · exact ⟨[], e, es, s, u, p, rfl, .nil s, hstep, hrest, hp, Nat.zero_le _, hnow⟩
    obtain ⟨hturn, hleaves⟩ := not_or.mp hnow
    obtain ⟨p', hp', hle, hround⟩ := h.place hstep hp hturn hleaves
    -- A round that goes past the element brings it forward by a batch.
    have hquotient : p' / batch + (if round s e then 1 else 0) ≤ p / batch := by
      split
      · rename_i hpass
        have hshift : p / batch = p' / batch + 1 := by
          rw [← hround hpass, Nat.add_div_right _ h.pos]
        exact Nat.le_of_eq hshift.symm
      · exact Nat.div_le_div_right hle
    rw [countRounds_cons hstep] at hrounds
    obtain ⟨es₁, e', es₂, v, v', p'', rfl, hrun₁, hnext, hrun₂, hv, hcount, hend⟩ :=
      ih hp' (by omega)
    refine ⟨e :: es₁, e', es₂, v, v', p'', rfl, .cons hstep hrun₁, hnext, hrun₂, hv, ?_, hend⟩
    rw [countRounds_cons hstep]
    omega

end Turns

/-! ## The order of service -/

section Order

variable {α κ : Type*}

/-- What has happened to the elements that came to a queue. -/
structure Ledger (α : Type*) where
  /-- The elements that came, in this order. -/
  asked : List α
  /-- Those that were served, in this order. -/
  served : List α
  /-- Those that were turned away. -/
  failed : List α

/-- What is added to a ledger. -/
def Ledger.append (l m : Ledger α) : Ledger α :=
  ⟨l.asked ++ m.asked, l.served ++ m.served, l.failed ++ m.failed⟩

/-- Every element that came was served once, or turned away once, or is in the queue. -/
def Ledger.Accounts (l : Ledger α) (queue : List α) : Prop :=
  (l.served ++ l.failed ++ queue).Perm l.asked

/-- The elements of each class are served in the order in which they came. -/
def Ledger.InOrder [DecidableEq κ] (l : Ledger α) (cls : α → κ) (queue : List α) : Prop :=
  ∀ c, ((l.served ++ queue).filter (cls · = c)).Sublist (l.asked.filter (cls · = c))

variable {l m : Ledger α} {queue queue' : List α} {a : α}

/-- What is added is accounted for, together with the queue before it. -/
theorem Ledger.Accounts.append (h : l.Accounts queue)
    (hnew : (m.served ++ m.failed ++ queue').Perm (m.asked ++ queue)) :
    (l.append m).Accounts queue' := by
  classical
  unfold Accounts at h ⊢
  rw [List.perm_iff_count] at h hnew ⊢
  intro a
  have hold := h a
  have hadded := hnew a
  simp only [Ledger.append, List.count_append] at hold hadded ⊢
  omega

variable [DecidableEq κ] {cls : α → κ}

/-- The elements of each class that are served, followed by those that are left, are in the order
of the queue with those that came. -/
theorem Ledger.InOrder.append (h : l.InOrder cls queue)
    (hnew : ∀ c, ((m.served ++ queue').filter (cls · = c)).Sublist
      ((queue ++ m.asked).filter (cls · = c))) :
    (l.append m).InOrder cls queue' := by
  intro c
  have hqueue := (List.Sublist.refl (l.served.filter (cls · = c))).append (hnew c)
  have hasked := (h c).append (List.Sublist.refl (m.asked.filter (cls · = c)))
  simp only [List.filter_append, List.append_assoc, Ledger.append] at hqueue hasked ⊢
  exact hqueue.trans hasked

end Order

end TtKmd.Lib
