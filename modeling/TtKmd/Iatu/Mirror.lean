import TtKmd.Iatu.Ownership

/-!
# The registers mirror the table

The table keeps the base and the limit of a region, the registers keep them in halves
together with the target and the enable bit. `Mirrors` says that the two agree. Most
steps only give regions up: what is claimed afterwards was claimed before with the same
registers, and what is given up is disabled. `GivesUp` says this of a step, and it
composes.
-/

namespace TtKmd

/-- The registers agree with the table. -/
structure Mirrors (u : IatuUnit) : Prop where
  /-- The claimed regions are the enabled ones. -/
  enabled : ∀ r, (u.regs r).enabled = (u.slots r).used
  /-- The base registers of a claimed region decode to its base. -/
  base : ∀ r, (u.slots r).used = true → (u.regs r).base = (u.slots r).base
  /-- The limit registers of a claimed region decode to its limit. -/
  limit : ∀ r, (u.slots r).used = true → (u.regs r).limit = (u.slots r).limit

/-- A step that gives regions up on an attached device and claims none. -/
structure GivesUp (u u' : IatuUnit) : Prop where
  /-- A region that is still claimed is as it was. -/
  kept : ∀ r, (u'.slots r).used = true → u'.slots r = u.slots r ∧ u'.regs r = u.regs r
  /-- A region that is not claimed is disabled, or nothing happened to it. -/
  idle : ∀ r, (u'.slots r).used = false →
    (u'.regs r).enabled = false ∨ ((u.slots r).used = false ∧ u'.regs r = u.regs r)

/-- A region maps a range of the given size to the given host address. -/
structure Serves (u : IatuUnit) (r : Fin 16) (size address : ℕ) : Prop where
  /-- The target registers. -/
  target : (u.regs r).target = address
  /-- The size of the range. -/
  size : (u.slots r).limit + 1 = (u.slots r).base + size

section GivesUp

variable {u u' u'' : IatuUnit}

/-- Nothing happened. -/
theorem GivesUp.refl (u : IatuUnit) : GivesUp u u where
  kept := fun _ _ => ⟨rfl, rfl⟩
  idle := fun _ hr => .inr ⟨hr, rfl⟩

/-- One step after another. -/
theorem GivesUp.trans (h : GivesUp u u') (h' : GivesUp u' u'') : GivesUp u u'' := by
  refine ⟨?_, ?_⟩
  · intro r hr
    obtain ⟨hslot', hregs'⟩ := h'.kept r hr
    obtain ⟨hslot, hregs⟩ := h.kept r (by rw [← hslot']; exact hr)
    exact ⟨hslot'.trans hslot, hregs'.trans hregs⟩
  · intro r hr
    rcases h'.idle r hr with hdisabled | ⟨hunused, hregs'⟩
    · exact .inl hdisabled
    · rcases h.idle r hunused with hdisabled | ⟨hfree, hregs⟩
      · exact .inl (by rw [hregs']; exact hdisabled)
      · exact .inr ⟨hfree, hregs'.trans hregs⟩

/-- A teardown on an attached device gives its region up. -/
theorem givesUp_teardown (u : IatuUnit) (region : Option (Fin 16)) :
    GivesUp u (ttTeardownNocDma false u region) := by
  cases region with
  | none => exact .refl u
  | some slot =>
    refine ⟨?_, ?_⟩
    · intro r hr
      have hslot : r ≠ slot := by
        rintro rfl
        rw [ttTeardownNocDma_slots, Function.update_self] at hr
        cases hr
      exact ⟨by rw [ttTeardownNocDma_slots, Function.update_of_ne hslot],
        ttTeardownNocDma_regs_of_ne hslot⟩
    · intro r hr
      by_cases hslot : r = slot
      · subst hslot
        exact .inl (ttTeardownNocDma_disabled u r)
      · rw [ttTeardownNocDma_slots, Function.update_of_ne hslot] at hr
        exact .inr ⟨hr, ttTeardownNocDma_regs_of_ne hslot⟩

/-- An aperture that is opened and torn down again. -/
theorem givesUp_undone {F : Handle} {size target : ℕ} {region : Option (Fin 16)}
    (hopen : Opened u u' F size target region) :
    GivesUp u (ttTeardownNocDma false u' region) := by
  cases region with
  | none =>
    cases hopen
    exact .refl u
  | some slot =>
    obtain ⟨topDown, base, hset⟩ := hopen
    have hother : ∀ r, r ≠ slot →
        (ttTeardownNocDma false u' (some slot)).slots r = u.slots r ∧
          (ttTeardownNocDma false u' (some slot)).regs r = u.regs r := by
      intro r hr
      rw [ttTeardownNocDma_slots, Function.update_of_ne hr, hset.slots, claimSlot_of_ne hr,
        ttTeardownNocDma_regs_of_ne hr, hset.regs, Function.update_of_ne hr]
      exact ⟨rfl, rfl⟩
    refine ⟨?_, ?_⟩
    · intro r hr
      refine hother r ?_
      rintro rfl
      rw [ttTeardownNocDma_slots, Function.update_self] at hr
      cases hr
    · intro r hr
      by_cases hslot : r = slot
      · subst hslot
        exact .inl (ttTeardownNocDma_disabled u' r)
      · obtain ⟨hs, hregs⟩ := hother r hslot
        exact .inr ⟨by rw [← hs]; exact hr, hregs⟩

/-- An aperture that is opened and torn down again leaves the same regions claimed. -/
theorem undone_used {F : Handle} {size target : ℕ} {region : Option (Fin 16)}
    (hopen : Opened u u' F size target region) (r : Fin 16) :
    ((ttTeardownNocDma false u' region).slots r).used = (u.slots r).used := by
  cases region with
  | none =>
    cases hopen
    rfl
  | some slot =>
    obtain ⟨topDown, base, hset⟩ := hopen
    rw [ttTeardownNocDma_slots]
    by_cases hr : r = slot
    · rw [hr, Function.update_self, hset.unused]
      rfl
    · rw [Function.update_of_ne hr, hset.slots, claimSlot_of_ne hr]

/-- A region that is enabled after a step that gives regions up is as it was. -/
theorem GivesUp.undisturbed (h : GivesUp u u') {r : Fin 16}
    (hr : (u'.regs r).enabled = true) : u'.regs r = u.regs r := by
  cases hused : (u'.slots r).used with
  | true => exact (h.kept r hused).2
  | false =>
    rcases h.idle r hused with hdisabled | ⟨_, hregs⟩
    · rw [hdisabled] at hr
      cases hr
    · exact hregs

/-- A step that gives regions up keeps the mirror. -/
theorem Mirrors.givesUp (h : Mirrors u) (hs : GivesUp u u') : Mirrors u' := by
  refine ⟨?_, ?_, ?_⟩
  · intro r
    cases hr : (u'.slots r).used with
    | true =>
      obtain ⟨hslot, hregs⟩ := hs.kept r hr
      rw [hregs, h.enabled r, ← hslot, hr]
    | false =>
      rcases hs.idle r hr with hdisabled | ⟨hunused, hregs⟩
      · exact hdisabled
      · rw [hregs, h.enabled r, hunused]
  · intro r hr
    obtain ⟨hslot, hregs⟩ := hs.kept r hr
    rw [hslot] at hr ⊢
    rw [hregs, h.base r hr]
  · intro r hr
    obtain ⟨hslot, hregs⟩ := hs.kept r hr
    rw [hslot] at hr ⊢
    rw [hregs, h.limit r hr]

/-- A region that is still claimed serves what it served. -/
theorem Serves.givesUp {r : Fin 16} {size address : ℕ} (h : Serves u r size address)
    (hs : GivesUp u u') (hr : (u'.slots r).used = true) : Serves u' r size address := by
  obtain ⟨hslot, hregs⟩ := hs.kept r hr
  exact ⟨by rw [hregs]; exact h.target, by rw [hslot]; exact h.size⟩

end GivesUp

section Opened

variable {u u' : IatuUnit} {F : Handle} {size target : ℕ} {region : Option (Fin 16)}

/-- Opening an aperture touches an unclaimed region only. -/
theorem Opened.kept (hopen : Opened u u' F size target region) {r : Fin 16}
    (hr : (u.slots r).used = true) : u'.slots r = u.slots r ∧ u'.regs r = u.regs r := by
  cases region with
  | none =>
    cases hopen
    exact ⟨rfl, rfl⟩
  | some slot =>
    obtain ⟨topDown, base, hset⟩ := hopen
    have hslot : r ≠ slot := by
      rintro rfl
      rw [hset.unused] at hr
      cases hr
    rw [hset.slots, claimSlot_of_ne hslot, hset.regs, Function.update_of_ne hslot]
    exact ⟨rfl, rfl⟩

/-- The registers of a region that was just set up. -/
theorem SetUp.mirror {topDown : Bool} {slot : Fin 16} {base : ℕ}
    (h : SetUp u u' F topDown size target slot base) (hok : SlotsOk u.slots) (htwo : 1 < size)
    (hsize : size < 2 ^ 32) (htarget : target < 2 ^ 64) :
    (u'.regs slot).enabled = true ∧ (u'.slots slot).used = true ∧
      (u'.slots slot).base = base ∧
      (u'.regs slot).base = (u'.slots slot).base ∧
      (u'.regs slot).limit = (u'.slots slot).limit ∧ Serves u' slot size target := by
  obtain ⟨hfit, _⟩ := findBase_sound hok h.pos (by omega) h.found
  have hlimit := claim_limit h.pos hfit
  have hslot : u'.slots slot = ⟨true, some F, base, base + size - 1, (u.slots slot).target⟩ := by
    rw [h.slots, claimSlot_self, hlimit]
  unfold nocDmaLimit at hfit
  obtain ⟨hen, hb, hl, ht⟩ := atuWrites_take_decode (u.regs slot) base (base + size - 1) target
    (k := 9) (by omega) (by omega) (by omega) htarget
  have hregs : u'.regs slot =
      (u.regs slot).writes ((atuWrites base (base + size - 1) target).take 9) := by
    rw [h.regs, Function.update_self]
    rfl
  rw [hregs, hslot, hen, hb, hl]
  refine ⟨by simp; omega, rfl, rfl, rfl, rfl, ?_, ?_⟩
  · rw [hregs]
    exact ht
  · rw [hslot]
    show base + size - 1 + 1 = base + size
    omega

/-- Opening an aperture keeps the mirror. -/
theorem Mirrors.opened (h : Mirrors u) (hok : SlotsOk u.slots) (htwo : 1 < size)
    (hsize : size < 2 ^ 32) (htarget : target < 2 ^ 64)
    (hopen : Opened u u' F size target region) : Mirrors u' := by
  cases region with
  | none =>
    cases hopen
    exact h
  | some slot =>
    obtain ⟨topDown, base, hset⟩ := hopen
    obtain ⟨hen, hused, _, hb, hl, _⟩ := hset.mirror hok htwo hsize htarget
    have hother : ∀ r, r ≠ slot → u'.slots r = u.slots r ∧ u'.regs r = u.regs r := by
      intro r hr
      rw [hset.slots, claimSlot_of_ne hr, hset.regs, Function.update_of_ne hr]
      exact ⟨rfl, rfl⟩
    refine ⟨?_, ?_, ?_⟩
    · intro r
      by_cases hr : r = slot
      · rw [hr, hen, hused]
      · rw [(hother r hr).1, (hother r hr).2, h.enabled r]
    · intro r hu
      by_cases hr : r = slot
      · rw [hr, hb]
      · rw [(hother r hr).1] at hu ⊢
        rw [(hother r hr).2, h.base r hu]
    · intro r hu
      by_cases hr : r = slot
      · rw [hr, hl]
      · rw [(hother r hr).1] at hu ⊢
        rw [(hother r hr).2, h.limit r hu]

/-- A region serves what it served when another one is opened. -/
theorem Serves.opened {r : Fin 16} {size' address : ℕ} (h : Serves u r size' address)
    (hopen : Opened u u' F size target region) (hr : (u.slots r).used = true) :
    Serves u' r size' address := by
  obtain ⟨hslot, hregs⟩ := hopen.kept hr
  exact ⟨by rw [hregs]; exact h.target, by rw [hslot]; exact h.size⟩

/-- The NOC address that a set-up reports is that of the base of its region. -/
theorem ttSetupNocDma_nocAddress (hok : SlotsOk u.slots) (owner : Handle) (topDown : Bool)
    (hsize : size < 2 ^ 32) (target : ℕ) {slot : Fin 16}
    (hslot : (ttSetupNocDma u owner topDown size target).region = some slot) :
    (ttSetupNocDma u owner topDown size target).nocAddress =
      2 ^ 60 + ((ttSetupNocDma u owner topDown size target).unit.slots slot).base := by
  by_cases hzero : size = 0
  · simp [ttSetupNocDma, hzero] at hslot
  cases hclaim : ttIatuFindAndClaim u.slots owner topDown size with
  | none => simp [ttSetupNocDma, hzero, hclaim] at hslot
  | some res =>
    obtain ⟨slot', base, slots⟩ := res
    obtain ⟨_, hfind, rfl⟩ := ttIatuFindAndClaim_eq_some hclaim
    have hpos : 0 < size := Nat.pos_of_ne_zero hzero
    obtain ⟨hfit, _⟩ := findBase_sound hok hpos (by omega) hfind
    have hconf := ttBhConfigureOutboundAtu_of_small target hpos (by omega) hfit
    simp only [ttSetupNocDma, hzero, if_false, hclaim, claim_limit hpos hfit, hconf, if_true,
      Option.some.injEq] at hslot ⊢
    subst hslot
    have haddr : u64 (nocPcieOffset + base) = 2 ^ 60 + base := by
      have hoff : nocPcieOffset = 2 ^ 60 := by decide
      rw [hoff]
      unfold nocDmaLimit at hfit
      unfold u64
      omega
    rw [haddr, IatuUnit.writes_eq]
    dsimp only
    rw [claimSlot_self]

end Opened

end TtKmd
