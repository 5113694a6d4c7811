import TtKmd.Lib.Spans
import TtKmd.Platform
import Mathlib.Data.List.FinRange
import Mathlib.Logic.Function.Basic

/-!
# The outbound iATU region allocator

`ttIatuFindAndClaim` follows the source: it collects the used regions in
descending order by insertion, takes the first unused slot, and looks for the
first gap of the requested size from the bottom or from the top of the 58-bit
NOC-DMA space. The result proved here is soundness: a claimed range lies inside
the space and meets no used region.
-/

namespace TtKmd

open Lib

/-- `TT_BH_NOC_DMA_LIMIT`, the last NOC address an aperture may use. -/
def nocDmaLimit : ℕ := 2 ^ 58 - 1

/-- One entry of `TT_DEVICE_CONTEXT.Iatu`. -/
structure IatuSlot where
  /-- The region is claimed. -/
  used : Bool
  /-- The file object the region was claimed for. -/
  owner : Option Handle
  /-- First NOC address of the aperture. -/
  base : ℕ
  /-- Last NOC address of the aperture. -/
  limit : ℕ
  /-- Only ever cleared by the source, never set. -/
  target : ℕ
  deriving DecidableEq

/-- A zeroed table entry. -/
def IatuSlot.empty : IatuSlot := ⟨false, none, 0, 0, 0⟩

/-- The range a table entry records. -/
def IatuSlot.span (s : IatuSlot) : Span := ⟨s.base, s.limit⟩

/-- The table of the 16 outbound regions. -/
abbrev IatuTable := Fin 16 → IatuSlot

/-- The used ranges in descending order, as the collecting loop of
`TtIatuFindAndClaim` leaves them (read from the end of its array). -/
def usedSpans (slots : IatuTable) : List Span :=
  (List.finRange 16).foldl
    (fun acc i => if (slots i).used then insertSpan (slots i).span acc else acc) []

/-- The first unused slot the collecting loop meets. -/
def firstUnused (slots : IatuTable) : Option (Fin 16) :=
  (List.finRange 16).find? fun i => !(slots i).used

/-- The bottom-up search of `TtIatuFindAndClaim`, over the used ranges in
ascending order: the start of the first gap of `size` addresses, or the address
after the last range. -/
def gapBottomUp (size : ℕ) : ℕ → List Span → ℕ
  | gapStart, [] => gapStart
  | gapStart, u :: us =>
      if u.lo > gapStart ∧ u.lo - gapStart ≥ size then gapStart
      else gapBottomUp size (u64 (u.hi + 1)) us

/-- The top-down search of `TtIatuFindAndClaim`, over the used ranges in
descending order: whether a gap was found between ranges, and its last address.
`none` is the early return for a range that begins at address zero. -/
def gapTopDown (size : ℕ) : ℕ → List Span → Option (Bool × ℕ)
  | gapEnd, [] => some (false, gapEnd)
  | gapEnd, u :: us =>
      if gapEnd ≥ u.hi ∧ gapEnd - u.hi ≥ size then some (true, gapEnd)
      else if u.lo = 0 then none
      else gapTopDown size (u.lo - 1) us

/-- The base address `TtIatuFindAndClaim` stores in `*Base`, if any. -/
def findBase (slots : IatuTable) (topDown : Bool) (size : ℕ) : Option ℕ :=
  if topDown then
    match gapTopDown size nocDmaLimit (usedSpans slots) with
    | none => none
    | some (placed, gapEnd) =>
        if !placed ∧ gapEnd + 1 < size then none
        else some (u64 (u64Sub gapEnd size + 1))
  else
    let gapStart := gapBottomUp size 0 (usedSpans slots).reverse
    if u64Sub (u64 (gapStart + size)) 1 > nocDmaLimit then none else some gapStart

/-- The table after a claim of `[base, base + size - 1]` in `slot`. -/
def claimSlot (slots : IatuTable) (slot : Fin 16) (owner : Handle) (base size : ℕ) : IatuTable :=
  Function.update slots slot
    { (slots slot) with
      used := true, owner := some owner, base := base, limit := u64Sub (u64 (base + size)) 1 }

/-- `TtIatuFindAndClaim`: the claimed slot, its base and the table, or `none`
where the source returns -1. -/
def ttIatuFindAndClaim (slots : IatuTable) (owner : Handle) (topDown : Bool) (size : ℕ) :
    Option (Fin 16 × ℕ × IatuTable) :=
  match firstUnused slots with
  | none => none
  | some slot =>
      match findBase slots topDown size with
      | none => none
      | some base => some (slot, base, claimSlot slots slot owner base size)

/-- The ranges of the used regions lie in the NOC-DMA space and are apart. -/
structure SlotsOk (slots : IatuTable) : Prop where
  /-- A used range is not empty. -/
  nonempty : ∀ i, (slots i).used = true → (slots i).base ≤ (slots i).limit
  /-- A used range ends inside the space. -/
  inside : ∀ i, (slots i).used = true → (slots i).limit ≤ nocDmaLimit
  /-- Two used ranges have no common address. -/
  apart : ∀ i j, i ≠ j → (slots i).used = true → (slots j).used = true →
    (slots i).span.Apart (slots j).span

private theorem foldl_insert_perm (slots : IatuTable) (is : List (Fin 16)) (acc : List Span) :
    (is.foldl (fun acc i => if (slots i).used then insertSpan (slots i).span acc else acc)
      acc).Perm (((is.filter fun i => (slots i).used).map fun i => (slots i).span) ++ acc) := by
  induction is generalizing acc with
  | nil => exact List.Perm.refl _
  | cons i is ih =>
    by_cases hu : (slots i).used = true
    · simp only [List.foldl_cons, hu, if_true, List.filter_cons_of_pos, List.map_cons]
      refine (ih _).trans ?_
      exact ((insertSpan_perm _ acc).append_left _).trans List.perm_middle
    · simp only [List.foldl_cons, hu, List.filter_cons_of_neg, not_false_eq_true,
        Bool.false_eq_true, if_false]
      exact ih acc

/-- The collected list holds exactly the ranges of the used slots. -/
theorem usedSpans_perm (slots : IatuTable) :
    (usedSpans slots).Perm
      (((List.finRange 16).filter fun i => (slots i).used).map fun i => (slots i).span) := by
  simpa [usedSpans] using foldl_insert_perm slots (List.finRange 16) []

/-- Membership in the collected list. -/
theorem mem_usedSpans {slots : IatuTable} {x : Span} :
    x ∈ usedSpans slots ↔ ∃ i, (slots i).used = true ∧ (slots i).span = x := by
  rw [(usedSpans_perm slots).mem_iff]
  simp [List.mem_map, List.mem_filter]

/-- The collecting loop keeps its array sorted. -/
theorem usedSpans_sorted (slots : IatuTable) :
    (usedSpans slots).Pairwise fun a b => b.lo ≤ a.lo := by
  suffices h : ∀ (is : List (Fin 16)) (acc : List Span),
      (acc.Pairwise fun a b => b.lo ≤ a.lo) →
      (is.foldl (fun acc i => if (slots i).used then insertSpan (slots i).span acc else acc)
        acc).Pairwise fun a b => b.lo ≤ a.lo from h _ _ List.Pairwise.nil
  intro is
  induction is with
  | nil => exact fun _ h => h
  | cons i is ih =>
    intro acc hacc
    simp only [List.foldl_cons]
    split
    · exact ih _ (insertSpan_sorted hacc)
    · exact ih _ hacc

/-- In a consistent table each collected range lies wholly above the next. -/
theorem usedSpans_above {slots : IatuTable} (hok : SlotsOk slots) :
    (usedSpans slots).Pairwise fun a b => b.hi < a.lo := by
  apply above_of_sorted_apart (usedSpans_sorted slots)
  · rw [(usedSpans_perm slots).pairwise_iff Span.Apart.symm, List.pairwise_map]
    apply List.Pairwise.imp_of_mem _ ((List.nodup_finRange 16).filter _)
    intro i j hi hj hne
    exact hok.apart i j hne (List.mem_filter.mp hi).2 (List.mem_filter.mp hj).2
  · intro a ha
    obtain ⟨i, hu, rfl⟩ := mem_usedSpans.mp ha
    exact hok.nonempty i hu

/-- The bottom-up search never moves its start down. -/
theorem gapBottomUp_ge (size gapStart : ℕ) {us : List Span}
    (hsorted : us.Pairwise fun a b => a.hi < b.lo) (hwf : ∀ u ∈ us, u.lo ≤ u.hi)
    (hinside : ∀ u ∈ us, u.hi ≤ nocDmaLimit) (hstart : ∀ u ∈ us, gapStart ≤ u.lo) :
    gapStart ≤ gapBottomUp size gapStart us := by
  induction us generalizing gapStart with
  | nil => exact le_rfl
  | cons v vs ih =>
    obtain ⟨hv, hvs⟩ := List.pairwise_cons.mp hsorted
    have hvw := hwf v (by simp)
    have hvl := hinside v (by simp)
    have hvs' := hstart v (by simp)
    unfold gapBottomUp
    split
    · exact le_rfl
    · have hnext : u64 (v.hi + 1) = v.hi + 1 :=
        Nat.mod_eq_of_lt (by unfold nocDmaLimit at hvl; omega)
      rw [hnext]
      have hrest := ih (v.hi + 1) hvs (fun w hw => hwf w (by simp [hw]))
        (fun w hw => hinside w (by simp [hw])) (fun w hw => hv w hw)
      omega

/-- The bottom-up search does not pass the end of the space. -/
theorem gapBottomUp_le {size gapStart : ℕ} {us : List Span}
    (hinside : ∀ u ∈ us, u.hi ≤ nocDmaLimit) (hstart : gapStart ≤ nocDmaLimit + 1) :
    gapBottomUp size gapStart us ≤ nocDmaLimit + 1 := by
  induction us generalizing gapStart with
  | nil => exact hstart
  | cons v vs ih =>
    have hvl := hinside v (by simp)
    unfold gapBottomUp
    split
    · exact hstart
    · apply ih fun w hw => hinside w (by simp [hw])
      exact (Nat.mod_le _ _).trans (by omega)

/-- The bottom-up search returns a start from which `size` addresses are free:
every range ends before it or begins after them. -/
theorem gapBottomUp_free (size gapStart : ℕ) {us : List Span}
    (hsorted : us.Pairwise fun a b => a.hi < b.lo) (hwf : ∀ u ∈ us, u.lo ≤ u.hi)
    (hinside : ∀ u ∈ us, u.hi ≤ nocDmaLimit) (hstart : ∀ u ∈ us, gapStart ≤ u.lo) :
    ∀ u ∈ us, u.hi < gapBottomUp size gapStart us ∨ gapBottomUp size gapStart us + size ≤ u.lo := by
  induction us generalizing gapStart with
  | nil => simp
  | cons v vs ih =>
    obtain ⟨hv, hvs⟩ := List.pairwise_cons.mp hsorted
    have hvw := hwf v (by simp)
    have hvl := hinside v (by simp)
    have hwf' : ∀ u ∈ vs, u.lo ≤ u.hi := fun w hw => hwf w (by simp [hw])
    have hinside' : ∀ u ∈ vs, u.hi ≤ nocDmaLimit := fun w hw => hinside w (by simp [hw])
    intro u hu
    unfold gapBottomUp
    split
    · rename_i hgap
      right
      rcases List.mem_cons.mp hu with rfl | hu
      · omega
      · have := hv u hu
        omega
    · have hnext : u64 (v.hi + 1) = v.hi + 1 :=
        Nat.mod_eq_of_lt (by unfold nocDmaLimit at hvl; omega)
      rw [hnext]
      rcases List.mem_cons.mp hu with rfl | hu
      · left
        exact gapBottomUp_ge size (u.hi + 1) hvs hwf' hinside' fun w hw => hv w hw
      · exact ih (v.hi + 1) hvs hwf' hinside' (fun w hw => hv w hw) u hu

/-- The top-down search returns an end below which `size` addresses are free, if
they fit above address zero: every range begins after it or ends before them. -/
theorem gapTopDown_free {size gapEnd gap : ℕ} {placed : Bool} {us : List Span}
    (hsorted : us.Pairwise fun a b => b.hi < a.lo) (hwf : ∀ u ∈ us, u.lo ≤ u.hi)
    (hend : ∀ u ∈ us, u.hi ≤ gapEnd) (hres : gapTopDown size gapEnd us = some (placed, gap)) :
    gap ≤ gapEnd ∧ (placed = true → size ≤ gap) ∧
      ∀ u ∈ us, gap < u.lo ∨ u.hi + size ≤ gap := by
  induction us generalizing gapEnd with
  | nil =>
    simp only [gapTopDown, Option.some.injEq, Prod.mk.injEq] at hres
    obtain ⟨rfl, rfl⟩ := hres
    simp
  | cons v vs ih =>
    obtain ⟨hv, hvs⟩ := List.pairwise_cons.mp hsorted
    have hvw := hwf v (by simp)
    have hve := hend v (by simp)
    unfold gapTopDown at hres
    split at hres
    · rename_i hgap
      simp only [Option.some.injEq, Prod.mk.injEq] at hres
      obtain ⟨rfl, rfl⟩ := hres
      refine ⟨le_rfl, fun _ => by omega, ?_⟩
      intro u hu
      right
      rcases List.mem_cons.mp hu with rfl | hu
      · omega
      · have := hv u hu
        omega
    · split at hres
      · cases hres
      · obtain ⟨hle, hplaced, hfree⟩ := ih hvs (fun w hw => hwf w (by simp [hw]))
          (fun w hw => by have := hv w hw; omega) hres
        refine ⟨by omega, hplaced, ?_⟩
        intro u hu
        rcases List.mem_cons.mp hu with rfl | hu
        · left
          omega
        · exact hfree u hu

/-- The bottom-up search ends at its start or just above a used range. -/
theorem gapBottomUp_edge (size gapStart : ℕ) {us : List Span}
    (hinside : ∀ u ∈ us, u.hi ≤ nocDmaLimit) :
    gapBottomUp size gapStart us = gapStart ∨
      ∃ u ∈ us, gapBottomUp size gapStart us = u.hi + 1 := by
  induction us generalizing gapStart with
  | nil => exact Or.inl rfl
  | cons v vs ih =>
    have hvl := hinside v (by simp)
    have hnext : u64 (v.hi + 1) = v.hi + 1 :=
      Nat.mod_eq_of_lt (by unfold nocDmaLimit at hvl; omega)
    unfold gapBottomUp
    split
    · exact Or.inl rfl
    · right
      rw [hnext]
      rcases ih (v.hi + 1) (fun w hw => hinside w (by simp [hw])) with h | ⟨u, hu, h⟩
      · exact ⟨v, by simp, h⟩
      · exact ⟨u, by simp [hu], h⟩

/-- The top-down search ends at its start or just below a used range. -/
theorem gapTopDown_edge {size gapEnd gap : ℕ} {placed : Bool} {us : List Span}
    (hres : gapTopDown size gapEnd us = some (placed, gap)) :
    gap = gapEnd ∨ ∃ u ∈ us, gap + 1 = u.lo := by
  induction us generalizing gapEnd with
  | nil =>
    simp only [gapTopDown, Option.some.injEq, Prod.mk.injEq] at hres
    exact Or.inl hres.2.symm
  | cons v vs ih =>
    unfold gapTopDown at hres
    split at hres
    · simp only [Option.some.injEq, Prod.mk.injEq] at hres
      exact Or.inl hres.2.symm
    · split at hres
      · cases hres
      · right
        rcases ih hres with rfl | ⟨u, hu, h⟩
        · exact ⟨v, by simp, by omega⟩
        · exact ⟨u, by simp [hu], h⟩

section FindBase

variable {slots : IatuTable} {size base : ℕ}

/-- The collected ranges are not empty. -/
theorem SlotsOk.span_wf (hok : SlotsOk slots) : ∀ u ∈ usedSpans slots, u.lo ≤ u.hi := by
  intro u hu
  obtain ⟨i, hi, rfl⟩ := mem_usedSpans.mp hu
  exact hok.nonempty i hi

/-- The collected ranges lie inside the space. -/
theorem SlotsOk.span_inside (hok : SlotsOk slots) : ∀ u ∈ usedSpans slots, u.hi ≤ nocDmaLimit := by
  intro u hu
  obtain ⟨i, hi, rfl⟩ := mem_usedSpans.mp hu
  exact hok.inside i hi

/-- The range found from the top ends where the search ended. -/
theorem findBase_topDown (hok : SlotsOk slots) (hres : findBase slots true size = some base) :
    ∃ placed gapEnd, gapTopDown size nocDmaLimit (usedSpans slots) = some (placed, gapEnd) ∧
      base + size = gapEnd + 1 := by
  simp only [findBase, if_true] at hres
  cases hgap : gapTopDown size nocDmaLimit (usedSpans slots) with
  | none => simp [hgap] at hres
  | some r =>
    obtain ⟨placed, gapEnd⟩ := r
    obtain ⟨hle, hplaced, _⟩ :=
      gapTopDown_free (usedSpans_above hok) hok.span_wf hok.span_inside hgap
    simp only [hgap] at hres
    split at hres
    · cases hres
    · rename_i hfits
      have hroom : size ≤ gapEnd + 1 := by
        cases placed with
        | true => have := hplaced rfl; omega
        | false => simpa using hfits
      refine ⟨placed, gapEnd, rfl, ?_⟩
      simp only [Option.some.injEq, u64, u64Sub] at hres
      unfold nocDmaLimit at hle
      omega

/-- The range found from the bottom starts where the search ended. -/
theorem findBase_bottomUp (hok : SlotsOk slots) (hpos : 0 < size) (hsize : size ≤ 2 ^ 40)
    (hres : findBase slots false size = some base) :
    gapBottomUp size 0 (usedSpans slots).reverse = base ∧ base + size ≤ nocDmaLimit + 1 := by
  simp only [findBase, Bool.false_eq_true, if_false] at hres
  split at hres
  · cases hres
  · rename_i hlimit
    simp only [Option.some.injEq] at hres
    have hbound : base ≤ nocDmaLimit + 1 := by
      rw [← hres]
      exact gapBottomUp_le (fun u hu => hok.span_inside u (List.mem_reverse.mp hu)) (Nat.zero_le _)
    refine ⟨hres, ?_⟩
    rw [hres] at hlimit
    unfold u64Sub u64 at hlimit
    unfold nocDmaLimit at hlimit hbound ⊢
    omega

/-- A base the allocator finds for a size that fits the iATU starts a range
inside the NOC-DMA space that is apart from every used range. -/
theorem findBase_sound {topDown : Bool} (hok : SlotsOk slots) (hpos : 0 < size)
    (hsize : size ≤ 2 ^ 40) (hres : findBase slots topDown size = some base) :
    base + size ≤ nocDmaLimit + 1 ∧
      ∀ i, (slots i).used = true →
        (slots i).limit < base ∨ base + size ≤ (slots i).base := by
  have habove := usedSpans_above hok
  cases topDown with
  | true =>
    obtain ⟨placed, gapEnd, hgap, hbase⟩ := findBase_topDown hok hres
    obtain ⟨hle, _, hfree⟩ := gapTopDown_free habove hok.span_wf hok.span_inside hgap
    refine ⟨by omega, ?_⟩
    intro i hi
    rcases hfree _ (mem_usedSpans.mpr ⟨i, hi, rfl⟩) with h | h
    · right
      have : (slots i).span.lo = (slots i).base := rfl
      omega
    · left
      have : (slots i).span.hi = (slots i).limit := rfl
      omega
  | false =>
    obtain ⟨hgap, hfit⟩ := findBase_bottomUp hok hpos hsize hres
    have hfree := gapBottomUp_free size 0
      (List.pairwise_reverse.mpr habove) (fun u hu => hok.span_wf u (List.mem_reverse.mp hu))
      (fun u hu => hok.span_inside u (List.mem_reverse.mp hu)) (fun _ _ => Nat.zero_le _)
    rw [hgap] at hfree
    refine ⟨hfit, ?_⟩
    intro i hi
    exact hfree _ (List.mem_reverse.mpr (mem_usedSpans.mpr ⟨i, hi, rfl⟩))

/-- A range the allocator finds has an edge in common with the space or with a
used range. -/
theorem findBase_edge {topDown : Bool} (hok : SlotsOk slots) (hpos : 0 < size)
    (hsize : size ≤ 2 ^ 40) (hres : findBase slots topDown size = some base) :
    base = 0 ∨ base + size = nocDmaLimit + 1 ∨
      ∃ i, (slots i).used = true ∧ (base = (slots i).limit + 1 ∨ base + size = (slots i).base) := by
  cases topDown with
  | true =>
    obtain ⟨placed, gapEnd, hgap, hbase⟩ := findBase_topDown hok hres
    rcases gapTopDown_edge hgap with rfl | ⟨u, hu, hedge⟩
    · exact Or.inr (Or.inl hbase)
    · obtain ⟨i, hi, rfl⟩ := mem_usedSpans.mp hu
      exact Or.inr (Or.inr ⟨i, hi, Or.inr (hbase.trans hedge)⟩)
  | false =>
    obtain ⟨hgap, _⟩ := findBase_bottomUp hok hpos hsize hres
    rcases gapBottomUp_edge size 0
      (fun u hu => hok.span_inside u (List.mem_reverse.mp hu)) with h | ⟨u, hu, h⟩
    · exact Or.inl (hgap.symm.trans h)
    · obtain ⟨i, hi, rfl⟩ := mem_usedSpans.mp (List.mem_reverse.mp hu)
      exact Or.inr (Or.inr ⟨i, hi, Or.inl (hgap.symm.trans h)⟩)

end FindBase

/-- What a successful claim did: the slot was unused and now records a range the
search found. -/
theorem ttIatuFindAndClaim_eq_some {slots slots' : IatuTable} {owner : Handle} {topDown : Bool}
    {size base : ℕ} {slot : Fin 16}
    (hres : ttIatuFindAndClaim slots owner topDown size = some (slot, base, slots')) :
    (slots slot).used = false ∧ findBase slots topDown size = some base ∧
      slots' = claimSlot slots slot owner base size := by
  unfold ttIatuFindAndClaim at hres
  cases hslot : firstUnused slots with
  | none => simp [hslot] at hres
  | some i =>
    cases hbase : findBase slots topDown size with
    | none => simp [hslot, hbase] at hres
    | some b =>
      simp only [hslot, hbase, Option.some.injEq, Prod.mk.injEq] at hres
      obtain ⟨rfl, rfl, rfl⟩ := hres
      have hunused := List.find?_some hslot
      exact ⟨by simpa using hunused, rfl, rfl⟩

@[simp] theorem claimSlot_self (slots : IatuTable) (slot : Fin 16) (owner : Handle)
    (base size : ℕ) : claimSlot slots slot owner base size slot =
      { (slots slot) with
        used := true, owner := some owner, base := base,
        limit := u64Sub (u64 (base + size)) 1 } := by
  simp [claimSlot]

@[simp] theorem claimSlot_of_ne {slots : IatuTable} {slot i : Fin 16} {owner : Handle}
    {base size : ℕ} (h : i ≠ slot) : claimSlot slots slot owner base size i = slots i := by
  simp [claimSlot, h]

/-- The limit a claim records, when the range fits. -/
theorem claim_limit {base size : ℕ} (hpos : 0 < size) (hfit : base + size ≤ nocDmaLimit + 1) :
    u64Sub (u64 (base + size)) 1 = base + size - 1 := by
  unfold u64Sub u64
  unfold nocDmaLimit at hfit
  omega

/-- A claim keeps the used ranges apart and inside the space. -/
theorem SlotsOk.claim {slots : IatuTable} {slot : Fin 16} {owner : Handle} {topDown : Bool}
    {size base : ℕ} (hok : SlotsOk slots) (hpos : 0 < size) (hsize : size ≤ 2 ^ 40)
    (hbase : findBase slots topDown size = some base) :
    SlotsOk (claimSlot slots slot owner base size) := by
  obtain ⟨hfit, hfree⟩ := findBase_sound hok hpos hsize hbase
  have hlimit := claim_limit hpos hfit
  have hnew : ∀ i, i ≠ slot → (slots i).used = true →
      (claimSlot slots slot owner base size slot).span.Apart (slots i).span := by
    intro i _ hi
    simp only [claimSlot_self, IatuSlot.span, Span.Apart, hlimit]
    rcases hfree i hi with h | h <;> omega
  refine ⟨?_, ?_, ?_⟩
  · intro i hi
    by_cases h : i = slot
    · subst h
      simp only [claimSlot_self, hlimit]
      omega
    · rw [claimSlot_of_ne h] at hi ⊢
      exact hok.nonempty i hi
  · intro i hi
    by_cases h : i = slot
    · subst h
      simp only [claimSlot_self, hlimit]
      omega
    · rw [claimSlot_of_ne h] at hi ⊢
      exact hok.inside i hi
  · intro i j hne hi hj
    by_cases h : i = slot
    · subst h
      rw [claimSlot_of_ne hne.symm] at hj ⊢
      exact hnew j hne.symm hj
    · rw [claimSlot_of_ne h] at hi ⊢
      by_cases h' : j = slot
      · subst h'
        exact (hnew i h hi).symm
      · rw [claimSlot_of_ne h'] at hj ⊢
        exact hok.apart i j hne hi hj

/-- Changing one slot to an unused one keeps the rest of the table consistent. -/
theorem SlotsOk.release {slots : IatuTable} {slot : Fin 16} {empty : IatuSlot}
    (hok : SlotsOk slots) (hempty : empty.used = false) :
    SlotsOk (Function.update slots slot empty) := by
  have hother : ∀ i, (Function.update slots slot empty i).used = true →
      Function.update slots slot empty i = slots i := by
    intro i hi
    by_cases h : i = slot
    · subst h
      simp [hempty] at hi
    · simp [h]
  refine ⟨?_, ?_, ?_⟩
  · intro i hi
    have heq := hother i hi
    rw [heq] at hi ⊢
    exact hok.nonempty i hi
  · intro i hi
    have heq := hother i hi
    rw [heq] at hi ⊢
    exact hok.inside i hi
  · intro i j hne hi hj
    have heqi := hother i hi
    have heqj := hother j hj
    rw [heqi] at hi ⊢
    rw [heqj] at hj ⊢
    exact hok.apart i j hne hi hj

end TtKmd
