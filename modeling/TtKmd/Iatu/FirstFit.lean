import TtKmd.Iatu.Allocator

/-!
# First fit in both directions

The allocator finds a range whenever there is one, and the one it finds is the lowest or
the highest. Each of the two searches gets its completeness lemma by the recursion of the
search over the sorted ranges.

The 64-bit operations that a call evaluates are listed beside the searches. All of them are
exact but one: when the free range found from the top begins at address zero, `gapEnd - Size`
wraps, and the addition of one wraps it back.
-/

namespace TtKmd

open Lib

/-- The addresses from `base` on are `size` addresses of the space that no region uses. -/
def FreeRange (slots : IatuTable) (size base : ℕ) : Prop :=
  base + size ≤ nocDmaLimit + 1 ∧
    ∀ i, (slots i).used = true → (slots i).limit < base ∨ base + size ≤ (slots i).base

/-- A `UINT64` operation with its operands. -/
inductive U64Op
  /-- `a + b`. -/
  | add (a b : ℕ)
  /-- `a - b`. -/
  | sub (a b : ℕ)
  deriving DecidableEq

/-- The result fits the type. -/
def U64Op.Exact : U64Op → Prop
  | .add a b => a + b < 2 ^ 64
  | .sub a b => b ≤ a

/-- The operations of the bottom-up scan. -/
def gapBottomUpOps (size : ℕ) : ℕ → List Span → List U64Op
  | _, [] => []
  | gapStart, u :: us =>
      (if u.lo > gapStart then [.sub u.lo gapStart] else []) ++
        if u.lo > gapStart ∧ u.lo - gapStart ≥ size then []
        else .add u.hi 1 :: gapBottomUpOps size (u64 (u.hi + 1)) us

/-- The operations of the top-down scan. -/
def gapTopDownOps (size : ℕ) : ℕ → List Span → List U64Op
  | _, [] => []
  | gapEnd, u :: us =>
      (if gapEnd ≥ u.hi then [.sub gapEnd u.hi] else []) ++
        if gapEnd ≥ u.hi ∧ gapEnd - u.hi ≥ size then []
        else if u.lo = 0 then []
        else .sub u.lo 1 :: gapTopDownOps size (u.lo - 1) us

/-- The operations of a search, from the scan to the assignment of `*Base`. -/
def findBaseOps (slots : IatuTable) (topDown : Bool) (size : ℕ) : List U64Op :=
  if topDown then
    gapTopDownOps size nocDmaLimit (usedSpans slots) ++
      match gapTopDown size nocDmaLimit (usedSpans slots) with
      | none => []
      | some (placed, gapEnd) =>
          (if placed then [] else [.add gapEnd 1]) ++
            if !placed ∧ gapEnd + 1 < size then []
            else [.sub gapEnd size, .add (u64Sub gapEnd size) 1]
  else
    let gapStart := gapBottomUp size 0 (usedSpans slots).reverse
    gapBottomUpOps size 0 (usedSpans slots).reverse ++
      [.add gapStart size, .sub (u64 (gapStart + size)) 1]

/-- The operations of `TtIatuFindAndClaim`. -/
def findAndClaimOps (slots : IatuTable) (topDown : Bool) (size : ℕ) : List U64Op :=
  match firstUnused slots with
  | none => []
  | some _ =>
      findBaseOps slots topDown size ++
        match findBase slots topDown size with
        | none => []
        | some base => [.add base size, .sub (u64 (base + size)) 1]

/-! ## Completeness of the scans -/

/-- No free range from `gapStart` on begins before the one the bottom-up search returns. -/
theorem gapBottomUp_lowest {size gapStart b : ℕ} {us : List Span} (hpos : 0 < size)
    (hinside : ∀ u ∈ us, u.hi ≤ nocDmaLimit) (hstart : gapStart ≤ b)
    (hfree : ∀ u ∈ us, u.hi < b ∨ b + size ≤ u.lo) : gapBottomUp size gapStart us ≤ b := by
  induction us generalizing gapStart with
  | nil => exact hstart
  | cons v vs ih =>
    have hvl := hinside v (by simp)
    unfold gapBottomUp
    split
    · exact hstart
    · rename_i hgap
      have hnext : u64 (v.hi + 1) = v.hi + 1 :=
        Nat.mod_eq_of_lt (by unfold nocDmaLimit at hvl; omega)
      rw [hnext]
      -- a range below `v` would have fitted into the gap in front of it
      have hbelow : v.hi < b := by
        rcases hfree v (by simp) with h | h
        · exact h
        · exact absurd ⟨by omega, by omega⟩ hgap
      exact ih (fun u hu => hinside u (by simp [hu])) hbelow fun u hu => hfree u (by simp [hu])

/-- When a range below `gapEnd` is free, the top-down search succeeds, and no free range
ends after the one it returns. -/
theorem gapTopDown_highest {size gapEnd b : ℕ} {us : List Span} (hpos : 0 < size)
    (hsorted : us.Pairwise fun a b => b.hi < a.lo) (hend : ∀ u ∈ us, u.hi ≤ gapEnd)
    (hfit : b + size ≤ gapEnd + 1) (hfree : ∀ u ∈ us, u.hi < b ∨ b + size ≤ u.lo) :
    ∃ placed gap, gapTopDown size gapEnd us = some (placed, gap) ∧ b + size ≤ gap + 1 := by
  induction us generalizing gapEnd with
  | nil => exact ⟨false, gapEnd, rfl, hfit⟩
  | cons v vs ih =>
    obtain ⟨hv, hvs⟩ := List.pairwise_cons.mp hsorted
    have hve := hend v (by simp)
    unfold gapTopDown
    split
    · exact ⟨true, gapEnd, rfl, hfit⟩
    · rename_i hgap
      have habove : b + size ≤ v.lo := by
        rcases hfree v (by simp) with h | h
        · exact absurd ⟨hve, by omega⟩ hgap
        · exact h
      rw [if_neg (by omega)]
      refine ih hvs (fun u hu => ?_) (by omega) fun u hu => hfree u (by simp [hu])
      have := hv u hu
      omega

section FindBase

variable {slots : IatuTable} {size : ℕ}

/-- A free range is apart from the collected ranges. -/
theorem FreeRange.apart {b : ℕ} (h : FreeRange slots size b) :
    ∀ u ∈ usedSpans slots, u.hi < b ∨ b + size ≤ u.lo := by
  intro u hu
  obtain ⟨i, hi, rfl⟩ := mem_usedSpans.mp hu
  exact h.2 i hi

/-- What the search finds is free. -/
theorem findBase_free {topDown : Bool} {base : ℕ} (hok : SlotsOk slots) (hpos : 0 < size)
    (hsize : size < 2 ^ 32) (hres : findBase slots topDown size = some base) :
    FreeRange slots size base :=
  findBase_sound hok hpos (by omega) hres

/-- From the bottom, a free range is found, and none lies lower. -/
theorem findBase_lowest (hok : SlotsOk slots) (hpos : 0 < size) (hsize : size < 2 ^ 32) {b : ℕ}
    (hfree : FreeRange slots size b) :
    ∃ base, findBase slots false size = some base ∧ base ≤ b := by
  have hle : gapBottomUp size 0 (usedSpans slots).reverse ≤ b :=
    gapBottomUp_lowest hpos (fun u hu => hok.span_inside u (List.mem_reverse.mp hu)) (Nat.zero_le b)
      fun u hu => hfree.apart u (List.mem_reverse.mp hu)
  have hfit := hfree.1
  refine ⟨_, ?_, hle⟩
  simp only [findBase, Bool.false_eq_true, if_false]
  rw [if_neg]
  unfold u64Sub u64
  unfold nocDmaLimit at hfit ⊢
  omega

/-- From the top, a free range is found, and none lies higher. -/
theorem findBase_highest (hok : SlotsOk slots) (hpos : 0 < size) {b : ℕ}
    (hfree : FreeRange slots size b) : ∃ base, findBase slots true size = some base ∧ b ≤ base := by
  obtain ⟨placed, gapEnd, hgap, hroom⟩ :=
    gapTopDown_highest hpos (usedSpans_above hok) hok.span_inside hfree.1 hfree.apart
  obtain ⟨base, hbase⟩ : ∃ base, findBase slots true size = some base := by
    simp only [findBase, if_true, hgap]
    rw [if_neg (by omega)]
    exact ⟨_, rfl⟩
  obtain ⟨placed', gapEnd', hgap', hsum⟩ := findBase_topDown hok hbase
  obtain ⟨-, rfl⟩ := Prod.mk.inj (Option.some.inj (hgap.symm.trans hgap'))
  exact ⟨base, hbase, by omega⟩

/-- The search succeeds exactly when a range of the size is free. -/
theorem findBase_isSome_iff {topDown : Bool} (hok : SlotsOk slots) (hpos : 0 < size)
    (hsize : size < 2 ^ 32) :
    (∃ base, findBase slots topDown size = some base) ↔ ∃ b, FreeRange slots size b := by
  constructor
  · rintro ⟨base, hbase⟩
    exact ⟨base, findBase_free hok hpos hsize hbase⟩
  · rintro ⟨b, hfree⟩
    cases topDown with
    | true =>
      obtain ⟨base, hbase, -⟩ := findBase_highest hok hpos hfree
      exact ⟨base, hbase⟩
    | false =>
      obtain ⟨base, hbase, -⟩ := findBase_lowest hok hpos hsize hfree
      exact ⟨base, hbase⟩

/-- The base found is the last free one in the direction of the search. -/
theorem findBase_extremal {topDown : Bool} {base b : ℕ} (hok : SlotsOk slots) (hpos : 0 < size)
    (hsize : size < 2 ^ 32) (hres : findBase slots topDown size = some base)
    (hfree : FreeRange slots size b) : if topDown then b ≤ base else base ≤ b := by
  cases topDown with
  | true =>
    obtain ⟨base', hres', hle⟩ := findBase_highest hok hpos hfree
    rw [Option.some.inj (hres.symm.trans hres')]
    simpa using hle
  | false =>
    obtain ⟨base', hres', hle⟩ := findBase_lowest hok hpos hsize hfree
    rw [Option.some.inj (hres.symm.trans hres')]
    simpa using hle

end FindBase

/-- There is an unused slot exactly when the collecting loop meets one. -/
theorem firstUnused_isSome_iff {slots : IatuTable} :
    (∃ slot, firstUnused slots = some slot) ↔ ∃ i, (slots i).used = false := by
  rw [← Option.isSome_iff_exists, firstUnused, List.find?_isSome]
  simp [List.mem_finRange]

/-- A claim succeeds when there is a slot and a base. -/
theorem ttIatuFindAndClaim_isSome_iff {slots : IatuTable} {owner : Handle} {topDown : Bool}
    {size : ℕ} : (∃ r, ttIatuFindAndClaim slots owner topDown size = some r) ↔
      (∃ slot, firstUnused slots = some slot) ∧
        ∃ base, findBase slots topDown size = some base := by
  unfold ttIatuFindAndClaim
  cases firstUnused slots <;> cases findBase slots topDown size <;> simp

/-! ## The operations -/

/-- The bottom-up scan computes exactly. -/
theorem gapBottomUpOps_exact {size gapStart : ℕ} {us : List Span}
    (hinside : ∀ u ∈ us, u.hi ≤ nocDmaLimit) :
    ∀ op ∈ gapBottomUpOps size gapStart us, op.Exact := by
  induction us generalizing gapStart with
  | nil => simp [gapBottomUpOps]
  | cons v vs ih =>
    have hvl := hinside v (by simp)
    intro op hop
    rcases List.mem_append.mp hop with hop | hop
    · split at hop
      · rw [List.mem_singleton.mp hop]
        exact Nat.le_of_lt ‹_›
      · cases hop
    · split at hop
      · cases hop
      · rcases List.mem_cons.mp hop with rfl | hop
        · unfold nocDmaLimit at hvl
          unfold U64Op.Exact
          omega
        · exact ih (fun u hu => hinside u (by simp [hu])) op hop

/-- The top-down scan computes exactly. -/
theorem gapTopDownOps_exact {size gapEnd : ℕ} {us : List Span} :
    ∀ op ∈ gapTopDownOps size gapEnd us, op.Exact := by
  induction us generalizing gapEnd with
  | nil => simp [gapTopDownOps]
  | cons v vs ih =>
    intro op hop
    rcases List.mem_append.mp hop with hop | hop
    · split at hop
      · rename_i hge
        rw [List.mem_singleton.mp hop]
        exact hge
      · cases hop
    · split at hop
      · cases hop
      · split at hop
        · cases hop
        · rcases List.mem_cons.mp hop with rfl | hop
          · exact Nat.pos_of_ne_zero ‹_›
          · exact ih op hop

/-- The two operations that wrap: the end of a range that begins at address zero, less the
size, and one more. -/
def U64Op.WrapsAtZero (op : U64Op) (size : ℕ) : Prop :=
  op = .sub (size - 1) size ∨ op = .add (2 ^ 64 - 1) 1

section Operations

variable {slots : IatuTable} {size : ℕ} {op : U64Op}

/-- A search from the bottom computes exactly. -/
theorem findBaseOps_bottomUp (hok : SlotsOk slots) (hpos : 0 < size) (hsize : size < 2 ^ 32)
    (hop : op ∈ findBaseOps slots false size) : op.Exact := by
  have hinside : ∀ u ∈ (usedSpans slots).reverse, u.hi ≤ nocDmaLimit := fun u hu =>
    hok.span_inside u (List.mem_reverse.mp hu)
  have hle : gapBottomUp size 0 (usedSpans slots).reverse ≤ nocDmaLimit + 1 :=
    gapBottomUp_le hinside (Nat.zero_le _)
  unfold nocDmaLimit at hle
  simp only [findBaseOps, Bool.false_eq_true, if_false, List.mem_append, List.mem_cons,
    List.not_mem_nil, or_false] at hop
  rcases hop with hop | rfl | rfl
  · exact gapBottomUpOps_exact hinside op hop
  · unfold U64Op.Exact
    omega
  · unfold U64Op.Exact u64
    omega

/-- A search from the top computes exactly, unless it finds address zero. -/
theorem findBaseOps_topDown (hok : SlotsOk slots) (hpos : 0 < size) (hsize : size < 2 ^ 32)
    (hop : op ∈ findBaseOps slots true size) :
    op.Exact ∨ findBase slots true size = some 0 ∧ op.WrapsAtZero size := by
  simp only [findBaseOps, if_true, List.mem_append] at hop
  rcases hop with hop | hop
  · exact .inl (gapTopDownOps_exact op hop)
  cases hgap : gapTopDown size nocDmaLimit (usedSpans slots) with
  | none => simp [hgap] at hop
  | some r =>
    obtain ⟨placed, gapEnd⟩ := r
    obtain ⟨hle, hplaced, -⟩ :=
      gapTopDown_free (usedSpans_above hok) hok.span_wf hok.span_inside hgap
    unfold nocDmaLimit at hle
    simp only [hgap, List.mem_append] at hop
    rcases hop with hop | hop
    · left
      split at hop
      · cases hop
      · rw [List.mem_singleton.mp hop]
        unfold U64Op.Exact
        omega
    split at hop
    · cases hop
    rename_i hroom
    by_cases hfit : size ≤ gapEnd
    · left
      have hsub : u64Sub gapEnd size = gapEnd - size := by
        unfold u64Sub
        omega
      rw [hsub] at hop
      simp only [List.mem_cons, List.not_mem_nil, or_false] at hop
      rcases hop with rfl | rfl
      · exact hfit
      · unfold U64Op.Exact
        omega
    · -- the range fits below `gapEnd` with no address to spare
      right
      have hunplaced : placed = false := by
        by_contra hp
        exact hfit (hplaced (by simpa using hp))
      have hend : gapEnd = size - 1 := by
        simp only [hunplaced] at hroom
        simp at hroom
        omega
      have hsub : u64Sub gapEnd size = 2 ^ 64 - 1 := by
        unfold u64Sub
        omega
      have hzero : findBase slots true size = some 0 := by
        simp only [findBase, if_true, hgap]
        rw [if_neg hroom, hsub]
        rfl
      rw [hsub, hend] at hop
      refine ⟨hzero, ?_⟩
      simpa [U64Op.WrapsAtZero] using hop

/-- A search computes exactly, unless it finds address zero from the top. -/
theorem findBaseOps_exact {topDown : Bool} (hok : SlotsOk slots) (hpos : 0 < size)
    (hsize : size < 2 ^ 32) (hop : op ∈ findBaseOps slots topDown size) :
    op.Exact ∨ topDown = true ∧ findBase slots topDown size = some 0 ∧ op.WrapsAtZero size := by
  cases topDown with
  | false => exact .inl (findBaseOps_bottomUp hok hpos hsize hop)
  | true => exact (findBaseOps_topDown hok hpos hsize hop).imp_right fun h => ⟨rfl, h⟩

/-- A call computes exactly, unless it claims address zero from the top. -/
theorem findAndClaimOps_exact {topDown : Bool} (hok : SlotsOk slots) (hpos : 0 < size)
    (hsize : size < 2 ^ 32) (hop : op ∈ findAndClaimOps slots topDown size) :
    op.Exact ∨ topDown = true ∧ findBase slots topDown size = some 0 ∧ op.WrapsAtZero size := by
  unfold findAndClaimOps at hop
  split at hop
  · cases hop
  · rcases List.mem_append.mp hop with hop | hop
    · exact findBaseOps_exact hok hpos hsize hop
    · left
      cases hbase : findBase slots topDown size with
      | none => simp [hbase] at hop
      | some base =>
        have hfit := (findBase_free hok hpos hsize hbase).1
        unfold nocDmaLimit at hfit
        simp only [hbase, List.mem_cons, List.not_mem_nil, or_false] at hop
        rcases hop with rfl | rfl
        · unfold U64Op.Exact
          omega
        · unfold U64Op.Exact u64
          omega

end Operations

/-! ## The allocator -/

/-- `TtIatuFindAndClaim` claims when, and only when, a slot is unused and a range of the size
is free. The slot it claims was unused and records a free range, the lowest one or, from the
top, the highest; the other slots stay. Its `UINT64` operations are exact, except the last
two of a search from the top that ends at address zero. -/
theorem ttIatuFindAndClaim_firstFit {slots : IatuTable} (hok : SlotsOk slots) {size : ℕ}
    (hpos : 0 < size) (hsize : size < 2 ^ 32) (owner : Handle) (topDown : Bool) :
    ((∃ r, ttIatuFindAndClaim slots owner topDown size = some r) ↔
      (∃ i, (slots i).used = false) ∧ ∃ b, FreeRange slots size b) ∧
    (∀ slot base slots', ttIatuFindAndClaim slots owner topDown size = some (slot, base, slots') →
      (slots slot).used = false ∧ FreeRange slots size base ∧
      (∀ b, FreeRange slots size b → if topDown then b ≤ base else base ≤ b) ∧
      slots' slot = { (slots slot) with
        used := true, owner := some owner, base := base, limit := base + size - 1 } ∧
      ∀ i, i ≠ slot → slots' i = slots i) ∧
    ∀ op ∈ findAndClaimOps slots topDown size, op.Exact ∨
      topDown = true ∧ (∃ slot slots',
        ttIatuFindAndClaim slots owner topDown size = some (slot, 0, slots')) ∧
      op.WrapsAtZero size := by
  refine ⟨?_, ?_, ?_⟩
  · rw [ttIatuFindAndClaim_isSome_iff, firstUnused_isSome_iff, findBase_isSome_iff hok hpos hsize]
  · intro slot base slots' hres
    obtain ⟨hunused, hbase, rfl⟩ := ttIatuFindAndClaim_eq_some hres
    have hfree := findBase_free hok hpos hsize hbase
    refine ⟨hunused, hfree, fun b hb => findBase_extremal hok hpos hsize hbase hb, ?_,
      fun i hi => claimSlot_of_ne hi⟩
    rw [claimSlot_self, claim_limit hpos hfree.1]
  · intro op hop
    rcases findAndClaimOps_exact hok hpos hsize hop with hexact | ⟨htop, hzero, hwraps⟩
    · exact .inl hexact
    · refine .inr ⟨htop, ?_, hwraps⟩
      -- operations are evaluated only when there is an unused slot
      cases hslot : firstUnused slots with
      | none => simp [findAndClaimOps, hslot] at hop
      | some slot =>
        refine ⟨slot, claimSlot slots slot owner 0 size, ?_⟩
        simp only [ttIatuFindAndClaim, hslot, hzero]

/-- One region covers the space from `start` on. -/
def coveredFrom (start : ℕ) : IatuTable := fun i =>
  if i.val = 0 then ⟨true, some 1, start, nocDmaLimit, 0⟩ else .empty

/-- A table with one region is consistent. -/
theorem coveredFrom_ok {start : ℕ} (h : start ≤ nocDmaLimit) : SlotsOk (coveredFrom start) := by
  have honly : ∀ i, (coveredFrom start i).used = true → i = 0 := by
    intro i hi
    by_contra hne
    have hval : i.val ≠ 0 := fun h => hne (Fin.ext h)
    simp [coveredFrom, hval, IatuSlot.empty] at hi
  refine ⟨?_, ?_, ?_⟩
  · intro i hi
    rw [honly i hi]
    exact h
  · intro i hi
    rw [honly i hi]
    exact Nat.le_refl _
  · intro i j hne hi hj
    exact absurd ((honly i hi).trans (honly j hj).symm) hne

/-- With one page free at address zero, a page is claimed there from the top. -/
theorem ttIatuFindAndClaim_firstFit_lastPage :
    ∃ r, ttIatuFindAndClaim (coveredFrom 4096) 2 true 4096 = some r := by
  have hok : SlotsOk (coveredFrom 4096) := coveredFrom_ok (by unfold nocDmaLimit; omega)
  refine (ttIatuFindAndClaim_firstFit hok (by decide) (by decide) 2 true).1.mpr
    ⟨⟨1, rfl⟩, 0, ?_, ?_⟩
  · unfold nocDmaLimit
    omega
  · intro i hi
    right
    by_cases h : i.val = 0
    · simp [coveredFrom, h]
    · simp [coveredFrom, h, IatuSlot.empty] at hi

/-- A page claimed from the top at address zero: the subtraction of the size wraps. -/
theorem findAndClaim_wraps :
    ¬∀ (slots : IatuTable) (size : ℕ) (topDown : Bool), SlotsOk slots → 0 < size → size < 2 ^ 32 →
      ∀ op ∈ findAndClaimOps slots topDown size, op.Exact := by
  intro h
  have hok : SlotsOk (coveredFrom 4096) := coveredFrom_ok (by unfold nocDmaLimit; omega)
  have hmem : U64Op.sub 4095 4096 ∈ findAndClaimOps (coveredFrom 4096) true 4096 := by decide
  have hexact : 4096 ≤ 4095 := h _ _ _ hok (by decide) (by decide) _ hmem
  omega

end TtKmd
