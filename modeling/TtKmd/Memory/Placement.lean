import TtKmd.Memory.Effects

/-!
# Where buffers, locked pages and regions are

An outbound region translates NOC addresses into a span of host memory. It is named by
the record that opened it: a DMA buffer, a pinning that is backed by a buffer, or a
pinning with locked pages. `Aimed` says that every claimed region translates into the
memory of a record that names it; `Placed` says that the buffers are apart from one
another and from locked pages. Both are stated for arbitrary sets of records, so that
they can be used for records that are in no list.
-/

namespace TtKmd

open Lib

/-- The bus addresses of a buffer. -/
def DmaBuf.span (b : DmaBuf) : Span := ⟨b.logical, b.logical + b.size - 1⟩

/-- The bus addresses of pages that were locked, from their first frame on. -/
def lockedSpan (pfn size : ℕ) : Span := ⟨pfn * pageSize, pfn * pageSize + size - 1⟩

/-- The host addresses a region translates to. -/
def AtuRegs.span (regs : AtuRegs) : Span := ⟨regs.target, regs.target + (regs.limit - regs.base)⟩

/-- A region translates some NOC address to one in the span. -/
def AtuRegs.Reaches (regs : AtuRegs) (s : Span) : Prop :=
  ∃ a h, regs.translate a = some h ∧ s.lo ≤ h ∧ h ≤ s.hi

/-- A region reaches nothing apart from its own span. -/
theorem AtuRegs.not_reaches {regs : AtuRegs} {s : Span} (h : regs.span.Apart s) :
    ¬regs.Reaches s := by
  rintro ⟨a, host, htranslate, hlo, hhi⟩
  obtain ⟨_, hbase, hlimit, rfl⟩ := AtuRegs.translate_eq_some.mp htranslate
  simp only [AtuRegs.span, Span.Apart] at h
  omega

section Regions

variable {u u' : IatuUnit} {F : Handle} {size target : ℕ} {region : Option (Fin 16)}
  {regs : Fin 16 → AtuRegs} {names names' : Fin 16 → Span → Prop}

/-- A region that is not claimed is disabled, or as it was at power-up. -/
def Idle (regs : Fin 16 → AtuRegs) (u : IatuUnit) : Prop :=
  ∀ r, (u.slots r).used = false → (u.regs r).enabled = false ∨ u.regs r = regs r

/-- A claimed region translates into a span that it is named with. -/
def Aimed (names : Fin 16 → Span → Prop) (u : IatuUnit) : Prop :=
  ∀ r, (u.slots r).used = true → ∃ s, names r s ∧ (u.regs r).span.Within s

/-- Opening an aperture claims its region. -/
theorem Idle.opened (h : Idle regs u) (hopen : Opened u u' F size target region) :
    Idle regs u' := by
  cases region with
  | none =>
    cases hopen
    exact h
  | some slot =>
    obtain ⟨topDown, base, hset⟩ := hopen
    intro r hr
    rw [hset.slots] at hr
    by_cases hslot : r = slot
    · subst hslot
      simp at hr
    · rw [claimSlot_of_ne hslot] at hr
      rw [hset.regs, Function.update_of_ne hslot]
      exact h r hr

/-- A teardown disables its region. -/
theorem Idle.teardown (h : Idle regs u) (region : Option (Fin 16)) :
    Idle regs (ttTeardownNocDma false u region) := by
  cases region with
  | none => exact h
  | some slot =>
    intro r hr
    by_cases hslot : r = slot
    · subst hslot
      exact .inl (ttTeardownNocDma_disabled u r)
    · rw [ttTeardownNocDma_slots, Function.update_of_ne hslot] at hr
      rw [ttTeardownNocDma_regs_of_ne hslot]
      exact h r hr

/-- The registers of a region that was just opened. -/
theorem Opened.span {slot : Fin 16} (hok : SlotsOk u.slots) (hsize : ApertureSize size)
    (htarget : target < 2 ^ 64) (hopen : Opened u u' F size target (some slot)) :
    (u'.regs slot).span = ⟨target, target + size - 1⟩ := by
  obtain ⟨topDown, base, hset⟩ := hopen
  obtain ⟨_, ht, hlimit⟩ := hset.decode hok hsize.2.1 hsize.1 htarget
  have hpos := hset.pos
  simp only [AtuRegs.span, ht, Span.mk.injEq, true_and]
  omega

/-- Opening an aperture, with a name for its region. -/
theorem Aimed.opened (h : Aimed names u) (hok : SlotsOk u.slots) (hsize : ApertureSize size)
    (htarget : target < 2 ^ 64) (hopen : Opened u u' F size target region)
    (hkeep : ∀ r s, names r s → names' r s)
    (hnew : ∀ r, region = some r →
      ∃ s, names' r s ∧ (⟨target, target + size - 1⟩ : Span).Within s) : Aimed names' u' := by
  intro r hr
  cases region with
  | none =>
    cases hopen
    obtain ⟨s, hs, hwithin⟩ := h r hr
    exact ⟨s, hkeep r s hs, hwithin⟩
  | some slot =>
    by_cases hslot : r = slot
    · subst hslot
      rw [hopen.span hok hsize htarget]
      exact hnew r rfl
    · obtain ⟨topDown, base, hset⟩ := hopen
      rw [hset.slots, claimSlot_of_ne hslot] at hr
      rw [hset.regs, Function.update_of_ne hslot]
      obtain ⟨s, hs, hwithin⟩ := h r hr
      exact ⟨s, hkeep r s hs, hwithin⟩

/-- After a teardown the names of the other regions are enough. -/
theorem Aimed.teardown (h : Aimed names u) (region : Option (Fin 16))
    (hkeep : ∀ r s, region ≠ some r → names r s → names' r s) :
    Aimed names' (ttTeardownNocDma false u region) := by
  intro r hr
  cases region with
  | none =>
    obtain ⟨s, hs, hwithin⟩ := h r hr
    exact ⟨s, hkeep r s nofun hs, hwithin⟩
  | some slot =>
    rw [ttTeardownNocDma_slots] at hr
    by_cases hslot : r = slot
    · subst hslot
      simp [IatuSlot.empty] at hr
    · rw [Function.update_of_ne hslot] at hr
      rw [ttTeardownNocDma_regs_of_ne hslot]
      obtain ⟨s, hs, hwithin⟩ := h r hr
      refine ⟨s, hkeep r s ?_ hs, hwithin⟩
      rintro ⟨⟩
      exact hslot rfl

/-- An aperture that is opened and torn down again leaves the other regions alone. -/
theorem Aimed.undone (h : Aimed names u) (hopen : Opened u u' F size target region) :
    Aimed names (ttTeardownNocDma false u' region) := by
  cases region with
  | none =>
    cases hopen
    exact h
  | some slot =>
    obtain ⟨topDown, base, hset⟩ := hopen
    intro r hr
    rw [ttTeardownNocDma_slots] at hr
    by_cases hslot : r = slot
    · subst hslot
      simp [IatuSlot.empty] at hr
    · rw [Function.update_of_ne hslot, hset.slots, claimSlot_of_ne hslot] at hr
      rw [ttTeardownNocDma_regs_of_ne hslot, hset.regs, Function.update_of_ne hslot]
      exact h r hr

end Regions

/-- The spans a region is named with: by a buffer, by a pinning that is backed by a
buffer, or by a pinning with locked pages. -/
inductive Names (live : Handle → DmaBuf → Prop) (pins : Handle → Pinning → Prop) (r : Fin 16) :
    Span → Prop
  | buf (G : Handle) (b : DmaBuf) : live G b → b.iatuRegion = some r → Names live pins r b.span
  | backed (G : Handle) (b : DmaBuf) (p : Pinning) : live G b → pins G p →
      p.iatuRegion = some r → p.backingDmaBuf = some b.id → Names live pins r b.span
  | locked (G : Handle) (p : Pinning) (pfn : ℕ) : pins G p → p.iatuRegion = some r →
      p.mdl = some pfn → Names live pins r (lockedSpan pfn p.size)

/-- The live buffers and the locked pages are where they should be. -/
structure Placed (live : Handle → DmaBuf → Prop) (pins : Handle → Pinning → Prop)
    (nextBuf : ℕ) : Prop where
  /-- A live buffer has an identity that was given out. -/
  given : ∀ G b, live G b → b.id < nextBuf
  /-- A live buffer fits into the address space. -/
  fits : ∀ G b, live G b → 0 < b.size ∧ b.logical + b.size ≤ 2 ^ 64
  /-- A live buffer is known by its identity. -/
  unique : ∀ G G' b b', live G b → live G' b' → b.id = b'.id → G = G' ∧ b = b'
  /-- Two live buffers are apart. -/
  apart : ∀ G G' b b', live G b → live G' b' → b.id ≠ b'.id → b.span.Apart b'.span
  /-- Locked pages with an aperture are apart from the live buffers. -/
  locked : ∀ G p pfn, pins G p → p.iatuRegion ≠ none → p.mdl = some pfn →
    ∀ G' b, live G' b → (lockedSpan pfn p.size).Apart b.span

section Placed

variable {live live' : Handle → DmaBuf → Prop} {pins pins' : Handle → Pinning → Prop}
  {nextBuf : ℕ} {r : Fin 16} {s : Span}

/-- More records, more names. -/
theorem Names.mono (h : Names live pins r s) (hlive : ∀ G b, live G b → live' G b)
    (hpins : ∀ G p, p.iatuRegion = some r → pins G p → pins' G p) : Names live' pins' r s := by
  cases h with
  | buf G b hb hr => exact .buf G b (hlive G b hb) hr
  | backed G b p hb hp hr hback => exact .backed G b p (hlive G b hb) (hpins G p hr hp) hr hback
  | locked G p pfn hp hr hmdl => exact .locked G p pfn (hpins G p hr hp) hr hmdl

/-- Fewer records are still in their places. -/
theorem Placed.mono (h : Placed live pins nextBuf) (hlive : ∀ G b, live' G b → live G b)
    (hpins : ∀ G p, pins' G p → pins G p) : Placed live' pins' nextBuf where
  given := fun G b hb => h.given G b (hlive G b hb)
  fits := fun G b hb => h.fits G b (hlive G b hb)
  unique := fun G G' b b' hb hb' => h.unique G G' b b' (hlive G b hb) (hlive G' b' hb')
  apart := fun G G' b b' hb hb' => h.apart G G' b b' (hlive G b hb) (hlive G' b' hb')
  locked := fun G p pfn hp hr hmdl G' b hb =>
    h.locked G p pfn (hpins G p hp) hr hmdl G' b (hlive G' b hb)

/-- A new buffer that is apart from everything. -/
theorem Placed.allocate (h : Placed live pins nextBuf) {F : Handle} {b : DmaBuf}
    (hid : b.id = nextBuf) (hfits : 0 < b.size ∧ b.logical + b.size ≤ 2 ^ 64)
    (hbufs : ∀ G b', live G b' → b'.span.Apart b.span)
    (hpages : ∀ G p pfn, pins G p → p.mdl = some pfn → (lockedSpan pfn p.size).Apart b.span)
    (hlive : ∀ G b', live' G b' → live G b' ∨ (G = F ∧ b' = b)) :
    Placed live' pins (nextBuf + 1) := by
  refine ⟨?_, ?_, ?_, ?_, ?_⟩
  · intro G b' hb'
    rcases hlive G b' hb' with hold | ⟨_, rfl⟩
    · exact Nat.lt_succ_of_lt (h.given G b' hold)
    · omega
  · intro G b' hb'
    rcases hlive G b' hb' with hold | ⟨_, rfl⟩
    · exact h.fits G b' hold
    · exact hfits
  · intro G G' b₁ b₂ hb₁ hb₂ heq
    rcases hlive G b₁ hb₁ with hold₁ | ⟨rfl, rfl⟩ <;> rcases hlive G' b₂ hb₂ with hold₂ | ⟨rfl, rfl⟩
    · exact h.unique G G' b₁ b₂ hold₁ hold₂ heq
    · have := h.given G b₁ hold₁
      omega
    · have := h.given G' b₂ hold₂
      omega
    · exact ⟨rfl, rfl⟩
  · intro G G' b₁ b₂ hb₁ hb₂ hne
    rcases hlive G b₁ hb₁ with hold₁ | ⟨rfl, rfl⟩ <;> rcases hlive G' b₂ hb₂ with hold₂ | ⟨rfl, rfl⟩
    · exact h.apart G G' b₁ b₂ hold₁ hold₂ hne
    · exact hbufs G b₁ hold₁
    · exact (hbufs G' b₂ hold₂).symm
    · exact absurd rfl hne
  · intro G p pfn hp hr hmdl G' b' hb'
    rcases hlive G' b' hb' with hold | ⟨_, rfl⟩
    · exact h.locked G p pfn hp hr hmdl G' b' hold
    · exact hpages G p pfn hp hmdl

/-- A new pinning that is backed, or locks pages apart from the live buffers. -/
theorem Placed.pin (h : Placed live pins nextBuf) {F : Handle} {p : Pinning}
    (hpages : ∀ pfn, p.iatuRegion ≠ none → p.mdl = some pfn →
      ∀ G b, live G b → (lockedSpan pfn p.size).Apart b.span)
    (hpins : ∀ G q, pins' G q → pins G q ∨ (G = F ∧ q = p)) : Placed live pins' nextBuf := by
  refine ⟨h.given, h.fits, h.unique, h.apart, ?_⟩
  intro G q pfn hq hr hmdl
  rcases hpins G q hq with hold | ⟨_, rfl⟩
  · exact h.locked G q pfn hold hr hmdl
  · exact hpages pfn hr hmdl

/-- The names that a region keeps when a buffer goes: nothing refers to the buffer, and
the region is not its own. -/
theorem Names.without (h : Names live pins r s) (hplaced : Placed live pins nextBuf) {F : Handle}
    {b : DmaBuf} (hb : live F b) (hregion : b.iatuRegion ≠ some r)
    (hfree : ∀ p, pins F p → p.iatuRegion ≠ none → p.backingDmaBuf ≠ some b.id) :
    Names (fun G b' => live G b' ∧ b'.id ≠ b.id) pins r s := by
  cases h with
  | buf G b' hb' hr =>
    refine .buf G b' ⟨hb', ?_⟩ hr
    intro hid
    obtain ⟨_, rfl⟩ := hplaced.unique G F b' b hb' hb hid
    exact hregion hr
  | backed G b' p hb' hp hr hback =>
    refine .backed G b' p ⟨hb', ?_⟩ hp hr hback
    intro hid
    obtain ⟨rfl, rfl⟩ := hplaced.unique G F b' b hb' hb hid
    exact hfree p hp (by rw [hr]; nofun) hback
  | locked G p pfn hp hr hmdl => exact .locked G p pfn hp hr hmdl

/-- These names are apart from the buffer. -/
theorem Names.apart {F : Handle} {b : DmaBuf}
    (h : Names (fun G b' => live G b' ∧ b'.id ≠ b.id) pins r s)
    (hplaced : Placed live pins nextBuf) (hb : live F b) : s.Apart b.span := by
  cases h with
  | buf G b' hb' hr => exact hplaced.apart G F b' b hb'.1 hb hb'.2
  | backed G b' p hb' hp hr hback => exact hplaced.apart G F b' b hb'.1 hb hb'.2
  | locked G p pfn hp hr hmdl => exact hplaced.locked G p pfn hp (by rw [hr]; nofun) hmdl F b hb

end Placed

end TtKmd
