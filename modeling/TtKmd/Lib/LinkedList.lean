import Mathlib.Data.List.AList

/-!
# Linked lists in memory

The cells of a singly linked list live at addresses of a finite memory, and each has a link
to the next one. `Linked` relates a pointer to the list of the cells behind it, with their
addresses and values. A list that ends visits no cell twice, so there are at most as many
steps as cells, and an edit of one cell leaves all the others where they are.
-/

namespace TtKmd.Lib

variable {β α : Type*}

/-- A memory with cells at some of its addresses. -/
abbrev Cells (β : Type*) := AList fun _ : ℕ => β

/-- Following the links from a pointer visits these cells, in this order, and ends at the
second pointer. A cell is given by its address and its value. -/
inductive Linked (link : β → Option ℕ) (value : β → α) (m : Cells β) :
    Option ℕ → List (ℕ × α) → Option ℕ → Prop
  | nil (p : Option ℕ) : Linked link value m p [] p
  | cons {p : ℕ} {cell : β} {es : List (ℕ × α)} {q : Option ℕ} :
      m.lookup p = some cell → Linked link value m (link cell) es q →
        Linked link value m (some p) ((p, value cell) :: es) q

namespace Linked

variable {link : β → Option ℕ} {value : β → α} {m m' : Cells β} {a b : Option ℕ}
  {xs ys es : List (ℕ × α)}

/-- The first cell, and the list behind it. -/
theorem head {e : ℕ × α} (h : Linked link value m a (e :: es) b) :
    ∃ cell, a = some e.1 ∧ m.lookup e.1 = some cell ∧ value cell = e.2 ∧
      Linked link value m (link cell) es b := by
  cases h with
  | cons hcell hrest => exact ⟨_, rfl, hcell, rfl, hrest⟩

/-- Two pieces in a row. -/
theorem append {c : Option ℕ} (hxs : Linked link value m a xs b)
    (hys : Linked link value m b ys c) : Linked link value m a (xs ++ ys) c := by
  induction hxs with
  | nil => exact hys
  | cons hcell _ ih => exact .cons hcell (ih hys)

/-- A list in two pieces. -/
theorem split {c : Option ℕ} (h : Linked link value m a (xs ++ ys) c) :
    ∃ b, Linked link value m a xs b ∧ Linked link value m b ys c := by
  induction xs generalizing a with
  | nil => exact ⟨a, .nil a, h⟩
  | cons e xs ih =>
    cases h with
    | cons hcell hrest =>
      obtain ⟨b, hxs, hys⟩ := ih hrest
      exact ⟨b, .cons hcell hxs, hys⟩

/-- Only the cells that are visited matter. -/
theorem congr (h : Linked link value m a es b)
    (hcells : ∀ e ∈ es, m'.lookup e.1 = m.lookup e.1) : Linked link value m' a es b := by
  induction h with
  | nil => exact .nil _
  | cons hcell _ ih =>
    refine .cons ((hcells _ (List.mem_cons_self ..)).trans hcell) (ih ?_)
    intro e he
    exact hcells e (List.mem_cons_of_mem _ he)

/-- The cells that are visited are there. -/
theorem lookup_isSome (h : Linked link value m a es b) {e : ℕ × α} (he : e ∈ es) : e.1 ∈ m := by
  induction h with
  | nil => cases he
  | cons hcell _ ih =>
    rcases List.mem_cons.mp he with rfl | he
    · exact AList.lookup_isSome.mp (Option.isSome_of_eq_some hcell)
    · exact ih he

/-- A pointer leads to one list. -/
theorem unique (h : Linked link value m a xs none) (h' : Linked link value m a ys none) :
    xs = ys := by
  induction xs generalizing a ys with
  | nil =>
    cases h
    cases h'
    rfl
  | cons e xs ih =>
    cases h with
    | cons hcell hrest =>
      cases h' with
      | cons hcell' hrest' =>
        cases hcell.symm.trans hcell'
        rw [ih hrest hrest']

/-- A list that ends visits no cell twice. -/
theorem nodup (h : Linked link value m a es none) : (es.map Prod.fst).Nodup := by
  induction es generalizing a with
  | nil => exact List.nodup_nil
  | cons e es ih =>
    obtain ⟨cell, rfl, -, -, hrest⟩ := h.head
    refine List.nodup_cons.mpr ⟨?_, ih hrest⟩
    intro hmem
    -- a second visit would start the same list again, which is longer than itself
    obtain ⟨e', he', haddr⟩ := List.mem_map.mp hmem
    obtain ⟨xs, ys, rfl⟩ := List.append_of_mem he'
    obtain ⟨b, -, hagain⟩ := hrest.split
    obtain ⟨-, rfl, -⟩ := hagain.head
    rw [haddr] at hagain
    have hlength := congrArg List.length (h.unique hagain)
    simp only [List.length_cons, List.length_append] at hlength
    omega

/-- A cell is somewhere else than all the others. -/
theorem fst_notMem {e : ℕ × α} (h : Linked link value m a (xs ++ e :: ys) none) :
    e.1 ∉ (xs ++ ys).map Prod.fst := by
  have hnodup := h.nodup
  rw [List.map_append, List.map_cons, List.nodup_middle, List.nodup_cons] at hnodup
  rw [List.map_append]
  exact hnodup.1

/-- A list that ends has at most as many cells as the memory. -/
theorem length_le (h : Linked link value m a es none) : es.length ≤ m.keys.length := by
  have hsub : es.map Prod.fst ⊆ m.keys := by
    intro p hp
    obtain ⟨e, he, rfl⟩ := List.mem_map.mp hp
    exact AList.mem_keys.mp (h.lookup_isSome he)
  calc es.length = (es.map Prod.fst).length := (List.length_map ..).symm
    _ ≤ m.keys.length := (List.subperm_of_subset h.nodup hsub).length_le

/-- A new cell in front. -/
theorem push {p : ℕ} {c : β} (hp : p ∉ m) (h : Linked link value m (link c) es b) :
    Linked link value (m.insert p c) (some p) ((p, value c) :: es) b := by
  refine .cons (AList.lookup_insert m) (h.congr ?_)
  intro e he
  apply AList.lookup_insert_ne
  rintro rfl
  exact hp (h.lookup_isSome he)

/-- The first cell is freed. -/
theorem unlink_head {e : ℕ × α} {cell : β} (h : Linked link value m a (e :: es) none)
    (hcell : m.lookup e.1 = some cell) : Linked link value (m.erase e.1) (link cell) es none := by
  obtain ⟨hfst, -⟩ := List.nodup_cons.mp h.nodup
  obtain ⟨cell', -, hcell', -, hrest⟩ := h.head
  cases hcell.symm.trans hcell'
  apply hrest.congr
  intro x hx
  apply AList.lookup_erase_ne
  intro hx'
  exact hfst (hx' ▸ List.mem_map_of_mem hx)

/-- A cell behind another one is freed, and the one in front of it gets its link. -/
theorem unlink_next {e q : ℕ × α} {cell front front' : β}
    (h : Linked link value m a (xs ++ q :: e :: es) none) (hcell : m.lookup e.1 = some cell)
    (hfront : m.lookup q.1 = some front) (hlink : link front' = link cell)
    (hvalue : value front' = value front) :
    Linked link value ((m.insert q.1 front').erase e.1) a (xs ++ q :: es) none := by
  have h' : Linked link value m a ((xs ++ [q]) ++ e :: es) none := by
    rw [List.append_assoc]
    exact h
  have hq : ∀ x ∈ xs ++ e :: es, x.1 ≠ q.1 := fun x hx heq =>
    h.fst_notMem (heq ▸ List.mem_map_of_mem hx)
  have he : ∀ x ∈ (xs ++ [q]) ++ es, x.1 ≠ e.1 := fun x hx heq =>
    h'.fst_notMem (heq ▸ List.mem_map_of_mem hx)
  have hne : q.1 ≠ e.1 := he q (by simp)
  have hkept : ∀ x : ℕ × α, x.1 ≠ q.1 → x.1 ≠ e.1 →
      ((m.insert q.1 front').erase e.1).lookup x.1 = m.lookup x.1 := by
    intro x hxq hxe
    rw [AList.lookup_erase_ne hxe, AList.lookup_insert_ne hxq]
  obtain ⟨b, hfirst, hrest⟩ := h.split
  obtain ⟨front₀, rfl, hfront₀, hq₂, hrest⟩ := hrest.head
  cases hfront.symm.trans hfront₀
  obtain ⟨cell₀, -, hcell₀, -, hrest⟩ := hrest.head
  cases hcell.symm.trans hcell₀
  have hnew : ((m.insert q.1 front').erase e.1).lookup q.1 = some front' := by
    rw [AList.lookup_erase_ne hne, AList.lookup_insert]
  have hq' : q = (q.1, value front') := by rw [hvalue, hq₂]
  apply append (b := some q.1)
  · apply hfirst.congr
    intro x hx
    exact hkept x (hq x (List.mem_append_left _ hx)) (he x (by simp [hx]))
  · rw [hq']
    refine .cons hnew ?_
    rw [hlink]
    apply hrest.congr
    intro x hx
    exact hkept x (hq x (by simp [hx])) (he x (List.mem_append_right _ hx))

end Linked

end TtKmd.Lib
