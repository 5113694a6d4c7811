import Mathlib.Data.Finset.Card
import Mathlib.Data.Nat.Find

/-!
# Chains of pointers

A chain starts somewhere, or is empty, and every element tells which one comes next, if any.
The elements are a finite collection, so a chain that does not end runs in a circle. A search
for the first element that passes a test can stop after as many steps as there are elements:
up to that element nothing occurs twice.
-/

namespace TtKmd.Lib

variable {α : Type*} {next : α → Option α} {start : Option α} {test : α → Bool}

/-- The element of a chain at a position; the chain may be over before. -/
def chainAt (next : α → Option α) (start : Option α) : ℕ → Option α
  | 0 => start
  | k + 1 => (chainAt next start k).bind next

/-- The first element of a chain that passes a test, however far away. -/
def FirstOnChain (next : α → Option α) (start : Option α) (test : α → Bool) (a : α) : Prop :=
  ∃ k, chainAt next start k = some a ∧ test a = true ∧
    ∀ j < k, ∀ b, chainAt next start j = some b → test b = false

/-- The search for such an element with a limit on the steps. -/
def chainSearch (next : α → Option α) (test : α → Bool) : ℕ → Option α → Option α
  | 0, _ => none
  | _ + 1, none => none
  | steps + 1, some a => if test a then some a else chainSearch next test steps (next a)

/-- Nothing comes after the end of a chain. -/
theorem chainAt_none (k : ℕ) : chainAt next none k = none := by
  induction k with
  | zero => rfl
  | succ k ih => rw [chainAt, ih, Option.bind_none]

/-- The chain behind its first element. -/
theorem chainAt_some_succ (a : α) (k : ℕ) :
    chainAt next (some a) (k + 1) = chainAt next (next a) k := by
  induction k with
  | zero => rfl
  | succ k ih => rw [chainAt, ih, chainAt]

/-- The chain behind any position is the chain that starts there. -/
theorem chainAt_add (j k : ℕ) :
    chainAt next start (j + k) = chainAt next (chainAt next start j) k := by
  induction k with
  | zero => rfl
  | succ k ih => rw [← Nat.add_assoc, chainAt, ih, chainAt]

/-- What a search with a limit finds. -/
theorem chainSearch_eq_some_iff {steps : ℕ} {a : α} :
    chainSearch next test steps start = some a ↔
      ∃ k < steps, chainAt next start k = some a ∧ test a = true ∧
        ∀ j < k, ∀ b, chainAt next start j = some b → test b = false := by
  induction steps generalizing start with
  | zero => simp [chainSearch]
  | succ steps ih =>
    cases start with
    | none => simp [chainSearch, chainAt_none]
    | some x =>
      rw [chainSearch]
      cases hx : test x with
      | true =>
        rw [if_pos rfl, Option.some.injEq]
        constructor
        · rintro rfl
          exact ⟨0, Nat.succ_pos _, rfl, hx, fun j hj => absurd hj (Nat.not_lt_zero j)⟩
        · rintro ⟨k, -, hk, -, hfirst⟩
          cases k with
          | zero => exact Option.some.inj hk
          | succ k =>
            have hno := hfirst 0 (Nat.succ_pos k) x rfl
            rw [hx] at hno
            cases hno
      | false =>
        rw [if_neg Bool.false_ne_true, ih]
        constructor
        · rintro ⟨k, hk, hat, ha, hfirst⟩
          refine ⟨k + 1, Nat.succ_lt_succ hk, (chainAt_some_succ x k).trans hat, ha, ?_⟩
          intro j hj b hb
          cases j with
          | zero => rwa [← Option.some.inj hb]
          | succ j =>
            exact hfirst j (Nat.lt_of_succ_lt_succ hj) b ((chainAt_some_succ x j).symm.trans hb)
        · rintro ⟨k, hk, hat, ha, hfirst⟩
          cases k with
          | zero =>
            cases hat
            rw [hx] at ha
            cases ha
          | succ k =>
            refine ⟨k, Nat.lt_of_succ_lt_succ hk, (chainAt_some_succ x k).symm.trans hat, ha, ?_⟩
            intro j hj b hb
            exact hfirst (j + 1) (Nat.succ_lt_succ hj) b ((chainAt_some_succ x j).trans hb)

/-- A search ends with the first element that passes the test. -/
theorem FirstOnChain.of_search {steps : ℕ} {a : α}
    (h : chainSearch next test steps start = some a) : FirstOnChain next start test a := by
  obtain ⟨k, -, hfirst⟩ := chainSearch_eq_some_iff.mp h
  exact ⟨k, hfirst⟩

/-- An element at two positions can be left out with everything in between. -/
theorem chainAt_shorten {i j k : ℕ} (hjk : j ≤ k)
    (hrepeat : chainAt next start i = chainAt next start j) :
    chainAt next start (i + (k - j)) = chainAt next start k := by
  rw [chainAt_add, hrepeat, ← chainAt_add, Nat.add_sub_cancel' hjk]

/-- An element that is first reached at some position has no repetition in front of it, so
there are more elements than steps to it. -/
theorem lt_card_of_first {s : Finset α} (hs : ∀ k a, chainAt next start k = some a → a ∈ s)
    {k : ℕ} {a : α} (hk : chainAt next start k = some a)
    (hfirst : ∀ j < k, chainAt next start j ≠ some a) : k < s.card := by
  by_contra hcard
  have hmaps : ∀ i ∈ Finset.range (k + 1), chainAt next start i ∈ s.map .some := by
    intro i hi
    rw [Finset.mem_range] at hi
    cases hb : chainAt next start i with
    | none =>
      have hnone := @chainAt_add _ next start i (k - i)
      rw [Nat.add_sub_cancel' (by omega), hk, hb, chainAt_none] at hnone
      cases hnone
    | some b => exact Finset.mem_map_of_mem _ (hs i b hb)
  obtain ⟨i, hi, j, hj, hne, heq⟩ := Finset.exists_ne_map_eq_of_card_lt_of_maps_to
    (by rw [Finset.card_map, Finset.card_range]; omega) hmaps
  rw [Finset.mem_range] at hi hj
  have hcut : ∀ i j : ℕ, i < j → j < k + 1 →
      chainAt next start i ≠ chainAt next start j := by
    intro i j hij hj heq
    exact hfirst (i + (k - j)) (by omega) ((chainAt_shorten (by omega) heq).trans hk)
  rcases Nat.lt_or_gt_of_ne hne with hij | hji
  · exact hcut i j hij hj heq
  · exact hcut j i hji hi heq.symm

/-- With as many steps as there are elements, a search finds whatever is on the chain. -/
theorem chainSearch_complete {s : Finset α}
    (hs : ∀ k a, chainAt next start k = some a → a ∈ s) {steps : ℕ} (hsteps : s.card ≤ steps)
    {a : α} : chainSearch next test steps start = some a ↔ FirstOnChain next start test a := by
  refine ⟨.of_search, ?_⟩
  rintro ⟨k, hk, ha, hfirst⟩
  have hlt : k < s.card := by
    apply lt_card_of_first hs hk
    intro j hj hja
    rw [hfirst j hj a hja] at ha
    cases ha
  exact chainSearch_eq_some_iff.mpr ⟨k, hlt.trans_le hsteps, hk, ha, hfirst⟩

/-- Without an element that passes the test there is no first one, and the other way round. -/
theorem exists_firstOnChain_iff :
    (∃ a, FirstOnChain next start test a) ↔
      ∃ k a, chainAt next start k = some a ∧ test a = true := by
  constructor
  · rintro ⟨a, k, hk, ha, -⟩
    exact ⟨k, a, hk, ha⟩
  · intro h
    classical
    obtain ⟨a, hk, ha⟩ := Nat.find_spec h
    refine ⟨a, Nat.find h, hk, ha, ?_⟩
    intro j hj b hb
    by_contra htest
    exact Nat.find_min h hj ⟨b, hb, Bool.not_eq_false _ ▸ htest⟩

end TtKmd.Lib
