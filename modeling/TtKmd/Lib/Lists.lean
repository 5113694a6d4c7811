import Mathlib.Algebra.BigOperators.Group.List.Basic
import Mathlib.Data.List.Perm.Basic
import Mathlib.Logic.Function.Basic

/-!
# Lists as tables of records

Records are unlinked from a list by the first match of a test, or kept in an
array of optional entries that is read as the list of its occupied slots. In both
cases an insertion or a removal is a permutation of one element more or less, so
whatever depends on the records only, and not on their order, follows.
-/

namespace TtKmd.Lib

variable {α β : Type*}

/-- Removing the first match leaves the other elements. -/
theorem perm_cons_eraseP {p : α → Bool} {l : List α} {a : α} (h : l.find? p = some a) :
    l.Perm (a :: l.eraseP p) := by
  induction l with
  | nil => cases h
  | cons x xs ih =>
    by_cases hx : p x = true
    · rw [List.find?_cons_of_pos hx, Option.some.injEq] at h
      subst h
      rw [List.eraseP_cons_of_pos hx]
    · rw [List.find?_cons_of_neg hx] at h
      rw [List.eraseP_cons_of_neg hx]
      exact ((ih h).cons x).trans (List.Perm.swap _ _ _)

/-- Removing the first match leaves what was in front of it and what was behind it. -/
theorem split_of_find?_eq_some {p : α → Bool} {l : List α} {a : α} (h : l.find? p = some a) :
    ∃ xs ys, l = xs ++ a :: ys ∧ l.eraseP p = xs ++ ys ∧ ∀ x ∈ xs, ¬p x = true := by
  obtain ⟨ha, xs, ys, rfl, hxs⟩ := List.find?_eq_some_iff_append.mp h
  have hno : ∀ x ∈ xs, ¬p x = true := fun x hx => by simpa using hxs x hx
  refine ⟨xs, ys, rfl, ?_, hno⟩
  rw [List.eraseP_append_right _ hno, List.eraseP_cons_of_pos ha]

/-- Elements that do not occur in a list do not matter to what is read from it. -/
theorem filterMap_update_of_notMem [DecidableEq α] {f : α → Option β} {i : α} {v : Option β}
    {l : List α} (h : i ∉ l) : l.filterMap (Function.update f i v) = l.filterMap f := by
  apply List.filterMap_congr
  intro j hj
  apply Function.update_of_ne
  rintro rfl
  exact h hj

/-- Filling an empty slot adds one record. -/
theorem filterMap_update_some [DecidableEq α] {f : α → Option β} {i : α} {b : β} {l : List α}
    (hnodup : l.Nodup) (hi : i ∈ l) (hf : f i = none) :
    (l.filterMap (Function.update f i (some b))).Perm (b :: l.filterMap f) := by
  induction l with
  | nil => cases hi
  | cons x xs ih =>
    obtain ⟨hx, hxs⟩ := List.nodup_cons.mp hnodup
    by_cases hxi : x = i
    · subst hxi
      rw [List.filterMap_cons_some (Function.update_self x (some b) f),
        List.filterMap_cons_none hf, filterMap_update_of_notMem hx]
    · have hi' : i ∈ xs := by
        rcases List.mem_cons.mp hi with rfl | h
        · exact absurd rfl hxi
        · exact h
      have hsame : Function.update f i (some b) x = f x := Function.update_of_ne hxi _ _
      cases hfx : f x with
      | none =>
        rw [List.filterMap_cons_none (hsame.trans hfx), List.filterMap_cons_none hfx]
        exact ih hxs hi'
      | some c =>
        rw [List.filterMap_cons_some (hsame.trans hfx), List.filterMap_cons_some hfx]
        exact ((ih hxs hi').cons c).trans (List.Perm.swap _ _ _)

/-- Emptying a slot removes one record. -/
theorem filterMap_update_none [DecidableEq α] {f : α → Option β} {i : α} {b : β} {l : List α}
    (hnodup : l.Nodup) (hi : i ∈ l) (hf : f i = some b) :
    (l.filterMap f).Perm (b :: l.filterMap (Function.update f i none)) := by
  have h := filterMap_update_some (b := b) hnodup hi (Function.update_self i none f)
  rw [Function.update_idem, ← hf, Function.update_eq_self] at h
  exact h

/-! ## Folds that gather -/

/-- What each element adds a condition to, holds of the fold when all conditions do. -/
theorem foldl_iff_forall (P : β → Prop) {Q : α → Prop} {f : β → α → β}
    (h : ∀ b a, P (f b a) ↔ P b ∧ Q a) (l : List α) (b : β) :
    P (l.foldl f b) ↔ P b ∧ ∀ a ∈ l, Q a := by
  induction l generalizing b with
  | nil => simp
  | cons a l ih => rw [List.foldl_cons, ih, h, List.forall_mem_cons, and_assoc]

/-- What each element adds an alternative to, holds of the fold when one of them does. -/
theorem foldl_iff_exists (P : β → Prop) {Q : α → Prop} {f : β → α → β}
    (h : ∀ b a, P (f b a) ↔ P b ∨ Q a) (l : List α) (b : β) :
    P (l.foldl f b) ↔ P b ∨ ∃ a ∈ l, Q a := by
  induction l generalizing b with
  | nil => simp
  | cons a l ih => rw [List.foldl_cons, ih, h, List.exists_mem_cons_iff, or_assoc]

/-! ## Lists of writes -/

section Writes

variable [DecidableEq α] {ws : List (α × β)}

/-- A place that no write names keeps its value. -/
theorem foldl_update_of_notMem {a : α} (h : a ∉ ws.map (·.1)) (f : α → β) :
    ws.foldl (fun f w => Function.update f w.1 w.2) f a = f a := by
  induction ws generalizing f with
  | nil => rfl
  | cons w ws ih =>
    rw [List.map_cons, List.mem_cons, not_or] at h
    rw [List.foldl_cons, ih h.2, Function.update_of_ne h.1]

/-- A place that one write names has the value of that write. -/
theorem foldl_update_of_mem (hnodup : (ws.map (·.1)).Nodup) {w : α × β} (hw : w ∈ ws)
    (f : α → β) : ws.foldl (fun f w => Function.update f w.1 w.2) f w.1 = w.2 := by
  induction ws generalizing f with
  | nil => cases hw
  | cons x ws ih =>
    rw [List.map_cons, List.nodup_cons] at hnodup
    rw [List.foldl_cons]
    rcases List.mem_cons.mp hw with rfl | hw
    · rw [foldl_update_of_notMem hnodup.1, Function.update_self]
    · exact ih hnodup.2 hw _

end Writes

end TtKmd.Lib
