import TtKmd.Iatu.Registers

/-!
# Which handle holds which region

A region is claimed for a file object and named by one record of that handle, a
DMA buffer or a pinning. `Holds slots F l` says that the list `l` names the
regions of the handle `F`, each exactly once. A successful set-up adds one region
to the list of its handle, a teardown of a listed region removes it, and neither
touches another handle's list.
-/

namespace TtKmd

open Lib

/-- The regions in `l` are those claimed for the handle `F`, each named once. -/
structure Holds (slots : IatuTable) (F : Handle) (l : List (Fin 16)) : Prop where
  /-- No region is named twice. -/
  nodup : l.Nodup
  /-- The named regions are the ones claimed for `F`. -/
  mem : ∀ r, r ∈ l ↔ (slots r).used = true ∧ (slots r).owner = some F

/-- The ranges of the used regions are made of whole pages. -/
def PageAligned (slots : IatuTable) : Prop :=
  ∀ i, (slots i).used = true → pageSize ∣ (slots i).base ∧ pageSize ∣ (slots i).limit + 1

/-- A region of a set-up: the unit afterwards differs at one slot, which was unused. -/
structure SetUp (u u' : IatuUnit) (owner : Handle) (topDown : Bool) (size target : ℕ)
    (slot : Fin 16) (base : ℕ) : Prop where
  /-- The size is positive. -/
  pos : 0 < size
  /-- The slot was unused. -/
  unused : (u.slots slot).used = false
  /-- The allocator found the range. -/
  found : findBase u.slots topDown size = some base
  /-- The table afterwards. -/
  slots : u'.slots = claimSlot u.slots slot owner base size
  /-- The registers afterwards. -/
  regs : u'.regs = Function.update u.regs slot
    ((u.regs slot).writes (atuWrites base (base + size - 1) target))

/-- A set-up of fewer than `2 ^ 32` addresses fails without a trace or claims one
region. -/
theorem ttSetupNocDma_cases {u : IatuUnit} (hok : SlotsOk u.slots) (owner : Handle)
    (topDown : Bool) {size : ℕ} (hsize : size < 2 ^ 32) (target : ℕ) :
    let result := ttSetupNocDma u owner topDown size target
    (result.status ≠ .success ∧ result.region = none ∧ result.unit = u) ∨
      ∃ slot base, result.status = .success ∧ result.region = some slot ∧
        SetUp u result.unit owner topDown size target slot base := by
  by_cases hzero : size = 0
  · left
    simp [ttSetupNocDma, hzero]
  · cases hclaim : ttIatuFindAndClaim u.slots owner topDown size with
    | none =>
      left
      simp [ttSetupNocDma, hzero, hclaim]
    | some res =>
      obtain ⟨slot, base, slots⟩ := res
      obtain ⟨hunused, hfind, rfl⟩ := ttIatuFindAndClaim_eq_some hclaim
      have hpos : 0 < size := Nat.pos_of_ne_zero hzero
      obtain ⟨hfit, _⟩ := findBase_sound hok hpos (by omega) hfind
      have hconf := ttBhConfigureOutboundAtu_of_small target hpos (by omega) hfit
      right
      simp only [ttSetupNocDma, hzero, if_false, hclaim, claim_limit hpos hfit, hconf, if_true]
      refine ⟨slot, base, trivial, rfl, hpos, hunused, hfind, ?_, ?_⟩ <;>
        simp only [IatuUnit.writes_eq]

/-- On an empty table every aperture of fewer than `2 ^ 32` addresses is set up. -/
theorem ttSetupNocDma_empty (regs : Fin 16 → AtuRegs) (owner : Handle) (topDown : Bool)
    {size : ℕ} (hpos : 0 < size) (hsize : size < 2 ^ 32) (target : ℕ) :
    (ttSetupNocDma ⟨fun _ => .empty, regs⟩ owner topDown size target).status = .success := by
  have hok : SlotsOk fun _ => .empty :=
    ⟨fun _ h => (Bool.false_ne_true h).elim, fun _ h => (Bool.false_ne_true h).elim,
      fun _ _ _ h => (Bool.false_ne_true h).elim⟩
  have hspans : usedSpans (fun _ => .empty) = [] := rfl
  have hslot : firstUnused (fun _ => .empty) = some 0 := rfl
  obtain ⟨base, hfind⟩ : ∃ base, findBase (fun _ => .empty) topDown size = some base := by
    cases topDown with
    | true =>
      have hroom : ¬ nocDmaLimit + 1 < size := by
        unfold nocDmaLimit
        omega
      simp [findBase, hspans, gapTopDown, hroom]
    | false =>
      have hroom : u64Sub (u64 size) 1 ≤ nocDmaLimit := by
        unfold u64Sub u64 nocDmaLimit
        omega
      simp [findBase, hspans, gapBottomUp, hroom]
  obtain ⟨hfit, _⟩ := findBase_sound hok hpos (by omega) hfind
  have hconf := ttBhConfigureOutboundAtu_of_small target hpos (by omega) hfit
  have hne : size ≠ 0 := hpos.ne'
  simp [ttSetupNocDma, ttIatuFindAndClaim, hne, hslot, hfind, claim_limit hpos hfit, hconf]

section SetUp

variable {u u' : IatuUnit} {owner : Handle} {topDown : Bool} {size target : ℕ} {slot : Fin 16}
  {base : ℕ}

/-- A set-up keeps the used ranges apart and inside the space. -/
theorem SetUp.ok (h : SetUp u u' owner topDown size target slot base) (hok : SlotsOk u.slots)
    (hsize : size < 2 ^ 32) : SlotsOk u'.slots := by
  rw [h.slots]
  exact hok.claim h.pos (by omega) h.found

/-- A set-up of whole pages keeps the used ranges page-aligned. -/
theorem SetUp.aligned (h : SetUp u u' owner topDown size target slot base) (hok : SlotsOk u.slots)
    (hsize : size < 2 ^ 32) (hpage : pageSize ∣ size) (hal : PageAligned u.slots) :
    PageAligned u'.slots := by
  obtain ⟨hfit, _⟩ := findBase_sound hok h.pos (by omega) h.found
  have hbase : pageSize ∣ base := by
    have htop : pageSize ∣ nocDmaLimit + 1 := by decide
    rcases findBase_edge hok h.pos (by omega) h.found with rfl | hedge | ⟨i, hi, hedge | hedge⟩
    · exact Nat.dvd_zero _
    · exact (Nat.dvd_add_left hpage).mp (hedge ▸ htop)
    · rw [hedge]
      exact (hal i hi).2
    · exact (Nat.dvd_add_left hpage).mp (hedge ▸ (hal i hi).1)
  intro i hi
  rw [h.slots] at hi ⊢
  by_cases hslot : i = slot
  · subst hslot
    simp only [claimSlot_self, claim_limit h.pos hfit]
    refine ⟨hbase, ?_⟩
    have hpos := h.pos
    rw [show base + size - 1 + 1 = base + size by omega]
    exact Nat.dvd_add hbase hpage
  · rw [claimSlot_of_ne hslot] at hi ⊢
    exact hal i hi

/-- A set-up adds its region to the list of its handle. -/
theorem SetUp.holds (h : SetUp u u' owner topDown size target slot base) {l : List (Fin 16)}
    (hl : Holds u.slots owner l) : Holds u'.slots owner (slot :: l) := by
  have hnot : slot ∉ l := by
    intro hmem
    have := ((hl.mem slot).mp hmem).1
    rw [h.unused] at this
    cases this
  refine ⟨List.nodup_cons.mpr ⟨hnot, hl.nodup⟩, ?_⟩
  intro r
  rw [h.slots]
  by_cases hr : r = slot
  · subst hr
    simp
  · simp only [List.mem_cons, hr, false_or, claimSlot_of_ne hr]
    exact hl.mem r

/-- A set-up leaves the lists of the other handles alone. -/
theorem SetUp.holds_other (h : SetUp u u' owner topDown size target slot base) {F : Handle}
    (hF : F ≠ owner) {l : List (Fin 16)} (hl : Holds u.slots F l) : Holds u'.slots F l := by
  refine ⟨hl.nodup, ?_⟩
  intro r
  rw [h.slots, hl.mem r]
  by_cases hr : r = slot
  · subst hr
    simp [h.unused, Ne.symm hF]
  · rw [claimSlot_of_ne hr]

/-- After a set-up of at least two addresses the region is enabled and maps its
range to the target. -/
theorem SetUp.decode (h : SetUp u u' owner topDown size target slot base) (hok : SlotsOk u.slots)
    (hsize : size < 2 ^ 32) (htwo : 1 < size) (htarget : target < 2 ^ 64) :
    (u'.regs slot).enabled = true ∧ (u'.regs slot).target = target ∧
      (u'.regs slot).limit + 1 = (u'.regs slot).base + size := by
  obtain ⟨hfit, _⟩ := findBase_sound hok h.pos (by omega) h.found
  unfold nocDmaLimit at hfit
  have hdec := atuWrites_take_decode (u.regs slot) base (base + size - 1) target
    (k := 9) (by omega) (by omega) (by omega) htarget
  have hfull : (atuWrites base (base + size - 1) target).take 9 =
      atuWrites base (base + size - 1) target := rfl
  rw [hfull] at hdec
  obtain ⟨hen, hb, hl, ht⟩ := hdec
  rw [h.regs, Function.update_self, hb, hl, ht, hen]
  refine ⟨by simp; omega, rfl, by omega⟩

end SetUp

section Teardown

variable {u : IatuUnit} {detached : Bool}

/-- The table after a teardown. -/
theorem ttTeardownNocDma_slots (detached : Bool) (u : IatuUnit) (r : Fin 16) :
    (ttTeardownNocDma detached u (some r)).slots = Function.update u.slots r .empty := by
  cases detached <;> simp [ttTeardownNocDma, IatuUnit.clear, IatuUnit.writes_eq]

/-- The registers of the other regions after a teardown. -/
theorem ttTeardownNocDma_regs_of_ne {r r' : Fin 16} (h : r' ≠ r) :
    (ttTeardownNocDma detached u (some r)).regs r' = u.regs r' := by
  cases detached <;> simp [ttTeardownNocDma, IatuUnit.clear, IatuUnit.writes_eq, h]

/-- A teardown on an attached device disables the region. -/
theorem ttTeardownNocDma_disabled (u : IatuUnit) (r : Fin 16) :
    ((ttTeardownNocDma false u (some r)).regs r).enabled = false := by
  have hdec := (atuWrites_take_decode (u.regs r) 0 0 0 (k := 9)
    (by omega) (by omega) (by omega) (by omega)).1
  have hfull : (atuWrites 0 0 0).take 9 = atuWrites 0 0 0 := rfl
  rw [hfull] at hdec
  have hconf : (ttBhConfigureOutboundAtu 0 0 0).2 = atuWrites 0 0 0 := by
    simp [ttBhConfigureOutboundAtu]
  simp only [ttTeardownNocDma, IatuUnit.clear, IatuUnit.writes_eq, hconf, Bool.false_eq_true,
    if_false, Function.update_self]
  simpa using hdec

/-- A teardown keeps the used ranges apart and inside the space. -/
theorem SlotsOk.teardown (hok : SlotsOk u.slots) (region : Option (Fin 16)) :
    SlotsOk (ttTeardownNocDma detached u region).slots := by
  cases region with
  | none => exact hok
  | some r =>
    rw [ttTeardownNocDma_slots]
    exact hok.release rfl

/-- A teardown keeps the used ranges page-aligned. -/
theorem PageAligned.teardown (hal : PageAligned u.slots) (region : Option (Fin 16)) :
    PageAligned (ttTeardownNocDma detached u region).slots := by
  cases region with
  | none => exact hal
  | some r =>
    intro i hi
    rw [ttTeardownNocDma_slots] at hi ⊢
    by_cases hir : i = r
    · subst hir
      simp [IatuSlot.empty] at hi
    · rw [Function.update_of_ne hir] at hi ⊢
      exact hal i hi

/-- The list does not depend on its order. -/
theorem Holds.perm {slots : IatuTable} {F : Handle} {l l' : List (Fin 16)} (hl : Holds slots F l)
    (hperm : l.Perm l') : Holds slots F l' :=
  ⟨hperm.nodup_iff.mp hl.nodup, fun r => by rw [← hperm.mem_iff, hl.mem r]⟩

/-- A teardown of a listed region removes it from the list of its handle. -/
theorem Holds.teardown {F : Handle} {region : Option (Fin 16)} {l : List (Fin 16)}
    (hl : Holds u.slots F (region.toList ++ l)) :
    Holds (ttTeardownNocDma detached u region).slots F l := by
  cases region with
  | none => exact hl
  | some r =>
    have hnodup : (r :: l).Nodup := hl.nodup
    obtain ⟨hnot, hrest⟩ := List.nodup_cons.mp hnodup
    refine ⟨hrest, ?_⟩
    intro r'
    rw [ttTeardownNocDma_slots]
    by_cases hr : r' = r
    · subst hr
      simp [hnot, IatuSlot.empty]
    · rw [Function.update_of_ne hr, ← hl.mem r']
      simp [hr]

/-- A teardown of a region of one handle leaves the lists of the others alone. -/
theorem Holds.teardown_other {F G : Handle} (hFG : G ≠ F) {region : Option (Fin 16)}
    {l l' : List (Fin 16)} (hl : Holds u.slots F (region.toList ++ l)) (hl' : Holds u.slots G l') :
    Holds (ttTeardownNocDma detached u region).slots G l' := by
  cases region with
  | none => exact hl'
  | some r =>
    refine ⟨hl'.nodup, ?_⟩
    intro r'
    rw [ttTeardownNocDma_slots]
    by_cases hr : r' = r
    · subst hr
      have howner := ((hl.mem r').mp (by simp)).2
      rw [Function.update_self, hl'.mem r', howner]
      simp [IatuSlot.empty, Ne.symm hFG]
    · rw [Function.update_of_ne hr, hl'.mem r']

end Teardown

/-- What a request that may ask for an aperture leaves: nothing was claimed, or one
region was set up for the handle. -/
def Opened (u u' : IatuUnit) (F : Handle) (size target : ℕ) : Option (Fin 16) → Prop
  | none => u' = u
  | some slot => ∃ topDown base, SetUp u u' F topDown size target slot base

/-- A set-up fails without a trace or opens one region. -/
theorem ttSetupNocDma_opened {u : IatuUnit} (hok : SlotsOk u.slots) (F : Handle) (topDown : Bool)
    {size : ℕ} (hsize : size < 2 ^ 32) (target : ℕ) :
    let result := ttSetupNocDma u F topDown size target
    Opened u result.unit F size target result.region := by
  intro result
  rcases ttSetupNocDma_cases hok F topDown hsize target with
    ⟨_, hregion, hunit⟩ | ⟨slot, base, _, hregion, hset⟩
  · show Opened u (ttSetupNocDma u F topDown size target).unit F size target
      (ttSetupNocDma u F topDown size target).region
    rw [hregion]
    exact hunit
  · show Opened u (ttSetupNocDma u F topDown size target).unit F size target
      (ttSetupNocDma u F topDown size target).region
    rw [hregion]
    exact ⟨topDown, base, hset⟩

/-- The table of regions agrees with the lists of the handles: the used ranges are
disjoint, inside the space and made of whole pages, every used region has an owner,
and the list of a handle names its regions. -/
structure Apertures (u : IatuUnit) (regions : Handle → List (Fin 16)) : Prop where
  /-- The used ranges are disjoint and inside the space. -/
  ok : SlotsOk u.slots
  /-- The used ranges are made of whole pages. -/
  aligned : PageAligned u.slots
  /-- A used region has an owner. -/
  owned : ∀ r, (u.slots r).used = true → ∃ F, (u.slots r).owner = some F
  /-- The list of a handle names its regions, each once. -/
  holds : ∀ F, Holds u.slots F (regions F)

section Apertures

variable {u u' : IatuUnit} {regions regions' : Handle → List (Fin 16)} {F : Handle}
  {region : Option (Fin 16)} {detached : Bool}

/-- The lists do not depend on their order. -/
theorem Apertures.congr (h : Apertures u regions) (hperm : ∀ F, (regions F).Perm (regions' F)) :
    Apertures u regions' :=
  ⟨h.ok, h.aligned, h.owned, fun F => (h.holds F).perm (hperm F)⟩

/-- Opening an aperture adds its region to the list of its handle. -/
theorem Apertures.opened (h : Apertures u regions) {size target : ℕ} (hsize : size < 2 ^ 32)
    (hpage : pageSize ∣ size) (hopen : Opened u u' F size target region) :
    Apertures u' (Function.update regions F (region.toList ++ regions F)) := by
  cases region with
  | none =>
    cases hopen
    simpa using h
  | some slot =>
    obtain ⟨topDown, base, hset⟩ := hopen
    refine ⟨hset.ok h.ok hsize, hset.aligned h.ok hsize hpage h.aligned, ?_, ?_⟩
    · intro r hr
      rw [hset.slots] at hr ⊢
      by_cases hslot : r = slot
      · subst hslot
        exact ⟨F, by simp⟩
      · rw [claimSlot_of_ne hslot] at hr ⊢
        exact h.owned r hr
    · intro G
      by_cases hG : G = F
      · subst hG
        rw [Function.update_self]
        exact hset.holds (h.holds G)
      · rw [Function.update_of_ne hG]
        exact hset.holds_other hG (h.holds G)

/-- Tearing an aperture down removes its region from the list of its handle. -/
theorem Apertures.teardown (h : Apertures u regions) (detached : Bool)
    (region : Option (Fin 16)) {l : List (Fin 16)} (hperm : (regions F).Perm (region.toList ++ l)) :
    Apertures (ttTeardownNocDma detached u region) (Function.update regions F l) := by
  have hF := (h.holds F).perm hperm
  refine ⟨h.ok.teardown region, h.aligned.teardown region, ?_, ?_⟩
  · intro r hr
    cases region with
    | none => exact h.owned r hr
    | some slot =>
      rw [ttTeardownNocDma_slots] at hr ⊢
      by_cases hslot : r = slot
      · subst hslot
        simp [IatuSlot.empty] at hr
      · rw [Function.update_of_ne hslot] at hr ⊢
        exact h.owned r hr
  · intro G
    by_cases hG : G = F
    · subst hG
      rw [Function.update_self]
      exact hF.teardown
    · rw [Function.update_of_ne hG]
      exact Holds.teardown_other hG hF (h.holds G)

/-- An aperture that is opened and torn down again leaves the lists as they were. -/
theorem Apertures.undone (h : Apertures u regions) {size target : ℕ} (hsize : size < 2 ^ 32)
    (hpage : pageSize ∣ size) (hopen : Opened u u' F size target region) :
    Apertures (ttTeardownNocDma detached u' region) regions := by
  have h' := (h.opened hsize hpage hopen).teardown detached region (F := F) (l := regions F)
    (by rw [Function.update_self])
  rwa [Function.update_idem, Function.update_eq_self] at h'

end Apertures

end TtKmd
