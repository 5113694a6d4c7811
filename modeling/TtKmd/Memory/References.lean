import TtKmd.Memory.Interleaving
import TtKmd.Memory.Placement

/-!
# Nothing is released while something refers to it

A buffer is referred to by the views of it and by the enabled regions that translate
into its memory; a window is referred to by its views. The busy checks of
`FREE_DMA_BUF_EX` and `FREE_TLB` walk the lists of the handle. What they do not see is
a record that `UNMAP` or `UNPIN_PAGES` has unlinked and not torn down yet, a view of a
window that `ALLOCATE_TLB` is about to take back, and a pinning that locked the pages
of a buffer of another handle. Where no step meets one of these, nothing is released
too early, in any interleaving.

The device is attached: on a detached one the requests are refused.
-/

namespace TtKmd

open Lib

/-- A buffer is in a slot of a handle. -/
def MemWorld.Live (w : MemWorld) (G : Handle) (b : DmaBuf) : Prop := b ∈ (w.mem.file G).bufs

/-- A pinning is in the list of a handle, or unlinked and not torn down. -/
def MemWorld.Pins (w : MemWorld) (G : Handle) (p : Pinning) : Prop :=
  p ∈ (w.mem.file G).pinnings ∨ .unpin G p ∈ w.pending

/-- A view is mapped: it is in the list of a handle, or unlinked and not torn down. -/
def MemWorld.Mapped (w : MemWorld) (G : Handle) (v : UserMapping) : Prop :=
  v ∈ (w.mem.file G).mappings ∨ .unmap G v ∈ w.pending

/-- What the operating system promises. A common buffer fits into the address space,
and is apart from the live ones and from the locked pages; frames have bus addresses. -/
def OsOk (w : MemWorld) : MemEvent → Prop
  | .start _ (.allocateDmaBuf _ i env) => ∀ logical physical,
      env.commonBuffer = some (logical, physical) →
        logical + i.requestedSize ≤ 2 ^ 64 ∧
        (∀ G b, w.Live G b → b.span.Apart ⟨logical, logical + i.requestedSize - 1⟩) ∧
        ∀ G p pfn, w.Pins G p → p.mdl = some pfn →
          (lockedSpan pfn p.size).Apart ⟨logical, logical + i.requestedSize - 1⟩
  | .start _ (.pinPages _ _ env) => ∀ pfns, env.pfns = some pfns → pfns.headD 0 * pageSize < 2 ^ 64
  | _ => True

/-- The step meets none of the references that the busy checks do not see. -/
def Unreferenced (w : MemWorld) : MemEvent → Prop
  -- the buffer has no view and no aperture that was unlinked and not torn down
  | .start F (.freeDmaBufEx _ i) => ∀ b, (w.mem.file F).dmaBufs i.bufIndex = some b →
      (∀ v, .unmap F v ∈ w.pending → v.dmaBuf ≠ some b.id) ∧
      ∀ p, .unpin F p ∈ w.pending → p.iatuRegion ≠ none → p.backingDmaBuf ≠ some b.id
  -- the window has no view that was unlinked and not torn down
  | .start F (.freeTlb _ id) => ∀ v, .unmap F v ∈ w.pending → v.tlbId ≠ some id
  -- pages that are locked for an aperture are not those of a live buffer
  | .start F (.pinPages _ i env) => i.flags &&& 6 ≠ 0 →
      ttFindDmaBufView (w.mem.file F) i.virtualAddress i.size = none →
        ∀ pfns, env.pfns = some pfns →
          ∀ G b, w.Live G b → (lockedSpan (pfns.headD 0) i.size).Apart b.span
  -- nobody has mapped the window that is taken back
  | .finish (.allocateTlb _ id false) => ∀ G v, w.Mapped G v → v.tlbId ≠ some id
  | _ => True

/-- Every reference is to something live. -/
structure Referenced (regs : Fin 16 → AtuRegs) (w : MemWorld) : Prop where
  /-- The books agree. -/
  books : w.Books
  /-- The buffers and the locked pages are in their places. -/
  placed : Placed w.Live w.Pins w.mem.nextBuf
  /-- A view of a buffer is of a live one of the same handle. -/
  viewed : ∀ G v, w.Mapped G v → ∀ id, v.dmaBuf = some id → ∃ b, w.Live G b ∧ b.id = id
  /-- A view of a window is of one that the handle owns. -/
  windows : ∀ G v, w.Mapped G v → ∀ id, v.tlbId = some id →
    w.mem.tlbUsed id = true ∧ w.mem.tlbOwner id = some G
  /-- A claimed region translates into a buffer or into locked pages. -/
  aimed : Aimed (Names w.Live w.Pins) w.mem.iatu
  /-- The other regions are idle. -/
  idle : Idle regs w.mem.iatu

section Frames

variable {w w' : MemWorld}

/-- The same slots, the same live buffers. -/
theorem live_congr (h : ∀ G, (w'.mem.file G).bufs = (w.mem.file G).bufs) : w'.Live = w.Live := by
  funext G b
  rw [MemWorld.Live, MemWorld.Live, h G]

/-- The same lists and the same unlinked pinnings, the same pinnings. -/
theorem pins_congr (h : ∀ G, (w'.mem.file G).pinnings = (w.mem.file G).pinnings)
    (hpend : ∀ G p, .unpin G p ∈ w'.pending ↔ .unpin G p ∈ w.pending) : w'.Pins = w.Pins := by
  funext G p
  rw [MemWorld.Pins, MemWorld.Pins, h G, hpend G p]

/-- The same lists and the same unlinked views, the same views. -/
theorem mapped_congr (h : ∀ G, (w'.mem.file G).mappings = (w.mem.file G).mappings)
    (hpend : ∀ G v, .unmap G v ∈ w'.pending ↔ .unmap G v ∈ w.pending) :
    w'.Mapped = w.Mapped := by
  funext G v
  rw [MemWorld.Mapped, MemWorld.Mapped, h G, hpend G v]

end Frames

section Steps

variable {c : MemoryConfig} {regs : Fin 16 → AtuRegs} {w w' : MemWorld} {F : Handle}

/-- A step that keeps the buffers, the pinnings and the regions, and maps nothing but
views of live buffers and of windows that are owned. -/
theorem Referenced.quiet (h : Referenced regs w) (hbooks : w'.Books) (hlive : w'.Live = w.Live)
    (hpins : w'.Pins = w.Pins) (hnext : w'.mem.nextBuf = w.mem.nextBuf)
    (hiatu : w'.mem.iatu = w.mem.iatu)
    (hviewed : ∀ G v, w'.Mapped G v → ∀ id, v.dmaBuf = some id → ∃ b, w.Live G b ∧ b.id = id)
    (hwindows : ∀ G v, w'.Mapped G v → ∀ id, v.tlbId = some id →
      w'.mem.tlbUsed id = true ∧ w'.mem.tlbOwner id = some G) : Referenced regs w' where
  books := hbooks
  placed := by
    rw [hlive, hpins, hnext]
    exact h.placed
  viewed := by
    rw [hlive]
    exact hviewed
  windows := hwindows
  aimed := by
    rw [hlive, hpins, hiatu]
    exact h.aimed
  idle := by
    rw [hiatu]
    exact h.idle

/-- A request that opened an aperture and gave up. -/
theorem Referenced.undone (h : Referenced regs w) {m' : MemoryState} {size : ℕ}
    (hbooks : MemWorld.Books { w with mem := m' }) (hm : Undone false w.mem m' F size) :
    Referenced regs { w with mem := m' } := by
  obtain ⟨u', target, region, hopen, rfl⟩ := hm
  exact ⟨hbooks, h.placed, h.viewed, h.windows, h.aimed.undone hopen,
    (h.idle.opened hopen).teardown region⟩

/-- The entries of a window without views change. -/
theorem Referenced.setWindow (h : Referenced regs w) {id : ℕ} {used : Bool}
    {owner : Option Handle} {l : List Pending}
    (hbooks : MemWorld.Books { w with
      mem := { w.mem with
        tlbUsed := Function.update w.mem.tlbUsed id used
        tlbOwner := Function.update w.mem.tlbOwner id owner }
      pending := l })
    (hpins : ∀ G p, .unpin G p ∈ l ↔ .unpin G p ∈ w.pending)
    (hviews : ∀ G v, .unmap G v ∈ l ↔ .unmap G v ∈ w.pending)
    (hfree : ∀ G v, w.Mapped G v → v.tlbId ≠ some id) :
    Referenced regs { w with
      mem := { w.mem with
        tlbUsed := Function.update w.mem.tlbUsed id used
        tlbOwner := Function.update w.mem.tlbOwner id owner }
      pending := l } := by
  have hmapped : MemWorld.Mapped { w with
      mem := { w.mem with
        tlbUsed := Function.update w.mem.tlbUsed id used
        tlbOwner := Function.update w.mem.tlbOwner id owner }
      pending := l } = w.Mapped := mapped_congr (fun _ => rfl) hviews
  refine h.quiet hbooks rfl (pins_congr (fun _ => rfl) hpins) rfl rfl ?_ ?_
  · rw [hmapped]
    exact h.viewed
  · rw [hmapped]
    intro G v hv id' hid'
    obtain ⟨hused, howner⟩ := h.windows G v hv id' hid'
    have hne : id' ≠ id := by
      rintro rfl
      exact hfree G v hv hid'
    exact ⟨(Function.update_of_ne hne _ _).trans hused,
      (Function.update_of_ne hne _ _).trans howner⟩

/-- The first section of `ALLOCATE_TLB` claims a window without views. -/
theorem Referenced.allocateTlb (h : Referenced regs w) (hF : F < w.nextFile) (io : Io)
    (size : ℕ) : Referenced regs (w.start c false F (.allocateTlb io size)) := by
  have hbooks : (w.start c false F (.allocateTlb io size)).Books := h.books.start hF _
  rcases start_allocateTlb_cases c false w F io size with hw | ⟨id, _, hfree, hw⟩
  · rw [hw]
    exact h
  · rw [hw] at hbooks ⊢
    refine h.setWindow hbooks (by simp) (by simp) ?_
    intro G v hv hid
    have hused := (h.windows G v hv id hid).1
    rw [hfree] at hused
    cases hused

/-- A window without views is released. -/
theorem Referenced.releaseTlb (h : Referenced regs w) {id : ℕ} {l : List Pending}
    (hbooks : MemWorld.Books { w with mem := releaseTlb w.mem id, pending := l })
    (hpins : ∀ G p, .unpin G p ∈ l ↔ .unpin G p ∈ w.pending)
    (hviews : ∀ G v, .unmap G v ∈ l ↔ .unmap G v ∈ w.pending)
    (hfree : ∀ G v, w.Mapped G v → v.tlbId ≠ some id) :
    Referenced regs { w with mem := TtKmd.releaseTlb w.mem id, pending := l } :=
  h.setWindow hbooks hpins hviews hfree

/-- `FREE_TLB` of a window that has no unlinked view. -/
theorem Referenced.freeTlb (h : Referenced regs w) (hF : F < w.nextFile) {io : Io} {id : ℕ}
    (hcond : Unreferenced w (.start F (.freeTlb io id))) :
    Referenced regs (w.start c false F (.freeTlb io id)) := by
  have hbooks : (w.start c false F (.freeTlb io id)).Books := h.books.start hF _
  simp only [MemWorld.start] at hbooks ⊢
  rcases ttIoctlFreeTlb_cases w.mem F io id with ⟨_, hm⟩ | ⟨_, howner, hlisted, hm⟩
  · rw [hm]
    exact h
  · rw [hm] at hbooks ⊢
    refine h.releaseTlb hbooks (fun _ _ => Iff.rfl) (fun _ _ => Iff.rfl) ?_
    intro G v hv hid
    obtain rfl : G = F := Option.some.inj ((h.windows G v hv id hid).2.symm.trans howner)
    rcases hv with hv | hv
    · exact hlisted v hv hid
    · exact hcond v hv hid

/-- `MAP` creates views of live buffers and of windows that are owned. -/
theorem Referenced.map (h : Referenced regs w) (hF : F < w.nextFile) (io : Io) (i : MapIn)
    (env : MapEnv) : Referenced regs (w.start c false F (.map io i env)) := by
  have hbooks : (w.start c false F (.map io i env)).Books := h.books.start hF _
  simp only [MemWorld.start] at hbooks ⊢
  rcases ttIoctlMap_cases c w.mem F io i env with hm | ⟨_, v, hv, _, hm⟩
  · rw [hm]
    exact h
  rw [hm] at hbooks ⊢
  have hold : ∀ G x, MemWorld.Mapped { w with mem := w.mem.setFile F { w.mem.file F with
      mappings := (w.mem.file F).mappings ++ [v] } } G x → w.Mapped G x ∨ (G = F ∧ x = v) := by
    rintro G x (hx | hx)
    · by_cases hG : G = F
      · subst hG
        rw [MemoryState.setFile_self] at hx
        rcases List.mem_append.mp hx with hx | hx
        · exact .inl (.inl hx)
        · exact .inr ⟨rfl, List.mem_singleton.mp hx⟩
      · rw [MemoryState.setFile_of_ne hG] at hx
        exact .inl (.inl hx)
    · exact .inl (.inr hx)
  refine h.quiet hbooks (live_congr (MemoryState.setFile_proj FileMemory.bufs rfl))
    (pins_congr (MemoryState.setFile_proj FileMemory.pinnings rfl) fun _ _ => Iff.rfl) rfl rfl ?_ ?_
  · intro G x hx id hid
    rcases hold G x hx with hx | ⟨rfl, rfl⟩
    · exact h.viewed G x hx id hid
    · rcases hv with ⟨_, _, b, hb, href, _⟩ | ⟨_, hnone, _⟩
      · rw [hid] at href
        exact ⟨b, hb, (Option.some.inj href).symm⟩
      · rw [hnone] at hid
        cases hid
  · intro G x hx id hid
    rcases hold G x hx with hx | ⟨rfl, rfl⟩
    · exact h.windows G x hx id hid
    · rcases hv with ⟨_, hnone, _⟩ | ⟨_, _, hown⟩
      · rw [hnone] at hid
        cases hid
      · exact (hown id hid).2

/-- The first section of `UNMAP` leaves the view mapped. -/
theorem Referenced.unmap (h : Referenced regs w) (hF : F < w.nextFile) (io : Io)
    (userVa reserved : ℕ) : Referenced regs (w.start c false F (.unmap io userVa reserved)) := by
  have hbooks : (w.start c false F (.unmap io userVa reserved)).Books := h.books.start hF _
  rcases start_unmap_cases c false w F io userVa reserved with hw | ⟨v, l, hperm, hw⟩
  · rw [hw]
    exact h
  rw [hw] at hbooks ⊢
  have hold : ∀ G x, MemWorld.Mapped { w with
      mem := w.mem.setFile F { w.mem.file F with mappings := l }
      pending := .unmap F v :: w.pending } G x → w.Mapped G x := by
    rintro G x (hx | hx)
    · by_cases hG : G = F
      · subst hG
        rw [MemoryState.setFile_self] at hx
        exact .inl (hperm.mem_iff.mpr (List.mem_cons_of_mem _ hx))
      · rw [MemoryState.setFile_of_ne hG] at hx
        exact .inl hx
    · rcases List.mem_cons.mp hx with heq | hx
      · cases heq
        exact .inl (hperm.mem_iff.mpr (List.mem_cons_self ..))
      · exact .inr hx
  exact h.quiet hbooks (live_congr (MemoryState.setFile_proj FileMemory.bufs rfl))
    (pins_congr (MemoryState.setFile_proj FileMemory.pinnings rfl) (by simp)) rfl rfl
    (fun G x hx => h.viewed G x (hold G x hx)) (fun G x hx => h.windows G x (hold G x hx))

/-- The first section of `UNPIN_PAGES` leaves the aperture open. -/
theorem Referenced.unpinPages (h : Referenced regs w) (hF : F < w.nextFile) (io : Io)
    (i : UnpinPagesIn) : Referenced regs (w.start c false F (.unpinPages io i)) := by
  have hbooks : (w.start c false F (.unpinPages io i)).Books := h.books.start hF _
  rcases start_unpinPages_cases c false w F io i with hw | ⟨p, l, hperm, hw⟩
  · rw [hw]
    exact h
  rw [hw] at hbooks ⊢
  have hpins : MemWorld.Pins { w with
      mem := w.mem.setFile F { w.mem.file F with pinnings := l }
      pending := .unpin F p :: w.pending } = w.Pins := by
    funext G q
    unfold MemWorld.Pins
    by_cases hG : G = F
    · subst hG
      rw [MemoryState.setFile_self, hperm.mem_iff]
      simp only [List.mem_cons, Pending.unpin.injEq, true_and, eq_iff_iff]
      tauto
    · rw [MemoryState.setFile_of_ne hG]
      simp [hG]
  have hmapped : MemWorld.Mapped { w with
      mem := w.mem.setFile F { w.mem.file F with pinnings := l }
      pending := .unpin F p :: w.pending } = w.Mapped :=
    mapped_congr (MemoryState.setFile_proj FileMemory.mappings rfl) (by simp)
  refine h.quiet hbooks (live_congr (MemoryState.setFile_proj FileMemory.bufs rfl)) hpins rfl rfl
    ?_ ?_
  · rw [hmapped]
    exact h.viewed
  · rw [hmapped]
    exact h.windows

/-- `ALLOCATE_DMA_BUF` gets memory that is apart from everything. -/
theorem Referenced.allocateDmaBuf (h : Referenced regs w) (hF : F < w.nextFile) {io : Io}
    {i : AllocateDmaBufIn} {env : DmaBufEnv}
    (hos : OsOk w (.start F (.allocateDmaBuf io i env))) :
    Referenced regs (w.start c false F (.allocateDmaBuf io i env)) := by
  have hbooks : (w.start c false F (.allocateDmaBuf io i env)).Books := h.books.start hF _
  simp only [MemWorld.start] at hbooks ⊢
  have hok : SlotsOk w.mem.iatu.slots := h.books.apertures.ok
  rcases ttIoctlAllocateDmaBuf_cases c false F io hok i env with
    (hm | ⟨_, hundone⟩) | ⟨_, b, u', hall⟩
  · rw [hm]
    exact h
  · exact h.undone hbooks hundone
  rw [hall.mem] at hbooks ⊢
  obtain ⟨hfit, hbufs, hpages⟩ := hos _ _ hall.memory
  rw [← hall.size] at hfit hbufs hpages
  have hpos : 0 < b.size := lt_trans Nat.zero_lt_one hall.sizeOk.1
  -- the world afterwards
  set w' : MemWorld := { w with
    mem := { w.mem.setFile F { w.mem.file F with
        dmaBufs := Function.update (w.mem.file F).dmaBufs i.bufIndex (some b) } with
      iatu := u', dmaBufBytes := w.mem.dmaBufBytes + b.size, nextBuf := w.mem.nextBuf + 1 } }
    with hw'
  have hlive : ∀ G b', w'.Live G b' ↔ (G = F ∧ b' = b) ∨ w.Live G b' := fun _ _ =>
    MemoryState.mem_bufs_insert hall.index hall.empty
  have hkept : ∀ G b', w.Live G b' → w'.Live G b' := fun G b' hb' => (hlive G b').mpr (.inr hb')
  have hpins : w'.Pins = w.Pins :=
    pins_congr (MemoryState.setFile_proj FileMemory.pinnings rfl) fun _ _ => Iff.rfl
  have hmapped : w'.Mapped = w.Mapped :=
    mapped_congr (MemoryState.setFile_proj FileMemory.mappings rfl) fun _ _ => Iff.rfl
  refine ⟨hbooks, ?_, ?_, ?_, ?_, h.idle.opened hall.aperture⟩
  · rw [hpins]
    exact h.placed.allocate hall.id ⟨hpos, hfit⟩ hbufs hpages
      fun G b' hb' => ((hlive G b').mp hb').symm
  · rw [hmapped]
    intro G v hv id hid
    obtain ⟨b', hb', hbid⟩ := h.viewed G v hv id hid
    exact ⟨b', hkept G b' hb', hbid⟩
  · rw [hmapped]
    exact h.windows
  · rw [hpins]
    refine h.aimed.opened hok hall.sizeOk (by omega) hall.aperture
      (fun r s hs => hs.mono hkept fun _ _ _ hp => hp) ?_
    intro r hr
    have hb : w'.Live F b := (hlive F b).mpr (.inl ⟨rfl, rfl⟩)
    exact ⟨b.span, .buf F b hb hr, le_rfl, le_rfl⟩

/-- The span a new pinning has, and that it is inside the address space. -/
theorem Pinned.span (h : Referenced regs w) {i : PinPagesIn} {env : PinEnv} {p : Pinning}
    {target : ℕ} {m' : MemoryState} {u' : IatuUnit} {io : Io}
    (hos : OsOk w (.start F (.pinPages io i env)))
    (hpin : Pinned w.mem m' F i env p target u') :
    target < 2 ^ 64 ∧
      ((∃ b, w.Live F b ∧ p.backingDmaBuf = some b.id ∧
          (⟨target, target + p.size - 1⟩ : Span).Within b.span) ∨
        ∃ pfn, p.mdl = some pfn ∧
          (⟨target, target + p.size - 1⟩ : Span) = lockedSpan pfn p.size) := by
  rcases hpin.pages with ⟨_, id, offset, hback, hfind, htarget⟩ | ⟨_, _, pfns, hpfns, hmdl, htarget⟩
  · obtain ⟨v, hv, hdma, hbuf, hlen⟩ := ttFindDmaBufView_eq_some hfind
    obtain ⟨b, hb, href, hsize⟩ := (h.books.files F).view v hv hdma
    obtain rfl : id = b.id := Option.some.inj (hbuf.symm.trans href)
    have hfound : (w.mem.file F).findBuf b.id = some b :=
      FileMemory.findBuf_eq hb fun b' hb' hid => (h.placed.unique F F b' b hb' hb hid).2
    rw [hfound] at htarget
    have hat : target = b.logical + offset := htarget
    obtain ⟨_, hfit⟩ := h.placed.fits F b hb
    have hpos := hpin.sizeOk.1
    refine ⟨by omega, .inl ⟨b, hb, hback, ?_⟩⟩
    unfold Span.Within DmaBuf.span
    dsimp only
    omega
  · refine ⟨?_, .inr ⟨pfns.headD 0, hmdl, ?_⟩⟩
    · rw [htarget]
      exact hos pfns hpfns
    · rw [htarget]
      rfl

/-- `PIN_PAGES` of pages that are not those of a live buffer. -/
theorem Referenced.pinPages (h : Referenced regs w) (hF : F < w.nextFile) {io : Io}
    {i : PinPagesIn} {env : PinEnv} (hos : OsOk w (.start F (.pinPages io i env)))
    (hcond : Unreferenced w (.start F (.pinPages io i env))) :
    Referenced regs (w.start c false F (.pinPages io i env)) := by
  have hbooks : (w.start c false F (.pinPages io i env)).Books := h.books.start hF _
  simp only [MemWorld.start] at hbooks ⊢
  have hok : SlotsOk w.mem.iatu.slots := h.books.apertures.ok
  rcases ttIoctlPinPages_cases c false F io hok i env with
    (hm | ⟨_, hundone⟩) | ⟨_, p, target, u', hpin⟩
  · rw [hm]
    exact h
  · exact h.undone hbooks hundone
  obtain ⟨htarget, hspan⟩ := hpin.span h hos
  rw [hpin.mem] at hbooks ⊢
  set w' : MemWorld := { w with
    mem := MemoryState.setFile { w.mem with iatu := u' } F { w.mem.file F with
      pinnings := (w.mem.file F).pinnings ++ [p] } } with hw'
  have hpins : ∀ G q, w'.Pins G q ↔ w.Pins G q ∨ (G = F ∧ q = p) := by
    intro G q
    unfold MemWorld.Pins
    by_cases hG : G = F
    · subst hG
      have hself : (w'.mem.file G).pinnings = (w.mem.file G).pinnings ++ [p] := by
        rw [hw', MemoryState.setFile_self]
      rw [hself]
      simp only [List.mem_append, List.mem_singleton, true_and]
      tauto
    · have hother : w'.mem.file G = w.mem.file G := MemoryState.setFile_of_ne hG _
      rw [hother]
      simp [hG, hw']
  have hlive : w'.Live = w.Live :=
    live_congr (MemoryState.setFile_proj FileMemory.bufs (F := F) rfl)
  have hmapped : w'.Mapped = w.Mapped :=
    mapped_congr (MemoryState.setFile_proj FileMemory.mappings (F := F) rfl) fun _ _ => Iff.rfl
  refine ⟨hbooks, ?_, ?_, ?_, ?_, h.idle.opened hpin.aperture⟩
  · rw [hlive]
    refine h.placed.pin (p := p) (F := F) ?_ (fun G q hq => (hpins G q).mp hq)
    intro pfn hregion hmdl G b hb
    rcases hpin.pages with ⟨hnone, _⟩ | ⟨_, hview, pfns, hpfns, hmdl', _⟩
    · rw [hnone] at hmdl
      cases hmdl
    · rw [hmdl'] at hmdl
      rw [← Option.some.inj hmdl, hpin.size]
      rw [hpin.virtualAddress, hpin.size] at hview
      exact hcond (hpin.asked hregion) hview pfns hpfns G b hb
  · rw [hmapped, hlive]
    exact h.viewed
  · rw [hmapped]
    exact h.windows
  · rw [hlive]
    refine h.aimed.opened hok hpin.sizeOk htarget hpin.aperture
      (fun r s hs => hs.mono (fun _ _ hb => hb) fun G q _ hq => (hpins G q).mpr (.inl hq)) ?_
    intro r hr
    have hp : w'.Pins F p := (hpins F p).mpr (.inr ⟨rfl, rfl⟩)
    rcases hspan with ⟨b, hb, hback, hwithin⟩ | ⟨pfn, hmdl, heq⟩
    · exact ⟨b.span, .backed F b p hb hp hr hback, hwithin⟩
    · exact ⟨_, .locked F p pfn hp hr hmdl, heq ▸ ⟨le_rfl, le_rfl⟩⟩

/-- A buffer that passes the busy check and the condition is referred to by no view and
by no pinning with an aperture. -/
theorem Referenced.unreferenced (h : Referenced regs w) {io : Io} {i : FreeDmaBufExIn}
    (hcond : Unreferenced w (.start F (.freeDmaBufEx io i))) {b : DmaBuf}
    (hi : i.bufIndex < maxDmaBufs) (hb : (w.mem.file F).dmaBufs i.bufIndex = some b)
    (href : bufReferenced (w.mem.file F) b = false) :
    (∀ G v, w.Mapped G v → v.dmaBuf ≠ some b.id) ∧
      ∀ p, w.Pins F p → p.iatuRegion ≠ none → p.backingDmaBuf ≠ some b.id := by
  obtain ⟨hviews, hpins⟩ := hcond b hb
  simp only [bufReferenced, Bool.or_eq_false_iff, List.any_eq_false, beq_iff_eq] at href
  have hlive : w.Live F b := FileMemory.mem_bufs.mpr ⟨_, hi, hb⟩
  refine ⟨?_, ?_⟩
  · intro G v hv hid
    obtain ⟨b', hb', hbid⟩ := h.viewed G v hv b.id hid
    obtain ⟨rfl, _⟩ := h.placed.unique G F b' b hb' hlive hbid
    rcases hv with hv | hv
    · exact href.1 v hv hid
    · exact hviews v hv hid
  · rintro p (hp | hp) hregion hid
    · exact href.2 p hp hid
    · exact hpins p hp hregion hid

/-- `FREE_DMA_BUF_EX` of a buffer that nothing unlinked refers to. -/
theorem Referenced.freeDmaBufEx (h : Referenced regs w) (hF : F < w.nextFile) {io : Io}
    {i : FreeDmaBufExIn} (hcond : Unreferenced w (.start F (.freeDmaBufEx io i))) :
    Referenced regs (w.start c false F (.freeDmaBufEx io i)) := by
  have hbooks : (w.start c false F (.freeDmaBufEx io i)).Books := h.books.start hF _
  simp only [MemWorld.start] at hbooks ⊢
  rcases ttIoctlFreeDmaBufEx_cases false w.mem F io i with ⟨_, hm⟩ | ⟨_, b, hi, hb, href, hm⟩
  · rw [hm]
    exact h
  obtain ⟨hviews, hbacked⟩ := h.unreferenced hcond hi hb href
  have hgone : w.Live F b := FileMemory.mem_bufs.mpr ⟨_, hi, hb⟩
  have hperm := FileMemory.bufs_remove hi hb
  rw [hm] at hbooks ⊢
  set w' : MemWorld := { w with mem := ttDmaBufDestroy false (w.mem.setFile F { w.mem.file F with
    dmaBufs := Function.update (w.mem.file F).dmaBufs i.bufIndex none }) b } with hw'
  have hself : (w.mem.file F).bufs.Perm (b :: (w'.mem.file F).bufs) := by
    show List.Perm _ (b :: ((w.mem.setFile F _).file F).bufs)
    rw [MemoryState.setFile_self]
    exact hperm
  have hother : ∀ G, G ≠ F → w'.mem.file G = w.mem.file G := fun G hG =>
    MemoryState.setFile_of_ne hG _
  have hlive : ∀ G b', w'.Live G b' → w.Live G b' := by
    intro G b' hb'
    unfold MemWorld.Live at hb' ⊢
    by_cases hG : G = F
    · subst hG
      exact hself.mem_iff.mpr (List.mem_cons_of_mem _ hb')
    · rwa [hother G hG] at hb'
  have hkept : ∀ G b', w.Live G b' ∧ b'.id ≠ b.id → w'.Live G b' := by
    rintro G b' ⟨hb', hne⟩
    unfold MemWorld.Live at hb' ⊢
    by_cases hG : G = F
    · subst hG
      rcases List.mem_cons.mp (hself.mem_iff.mp hb') with rfl | hrest
      · exact absurd rfl hne
      · exact hrest
    · rwa [hother G hG]
  have hpins : w'.Pins = w.Pins :=
    pins_congr (MemoryState.setFile_proj FileMemory.pinnings (F := F) rfl) fun _ _ => Iff.rfl
  have hmapped : w'.Mapped = w.Mapped :=
    mapped_congr (MemoryState.setFile_proj FileMemory.mappings (F := F) rfl) fun _ _ => Iff.rfl
  refine ⟨hbooks, ?_, ?_, ?_, ?_, h.idle.teardown _⟩
  · rw [hpins]
    exact h.placed.mono hlive fun _ _ hp => hp
  · rw [hmapped]
    intro G v hv id hid
    obtain ⟨b', hb', rfl⟩ := h.viewed G v hv id hid
    refine ⟨b', hkept G b' ⟨hb', ?_⟩, rfl⟩
    intro hsame
    exact hviews G v hv (hsame ▸ hid)
  · rw [hmapped]
    exact h.windows
  · rw [hpins]
    refine h.aimed.teardown _ ?_
    intro r s hregion hs
    exact (hs.without h.placed hgone hregion hbacked).mono hkept fun _ _ _ hp => hp

/-- The rest of `UNPIN_PAGES` closes the aperture. -/
theorem Referenced.finish_unpin (h : Referenced regs w) {p : Pinning}
    (hp : .unpin F p ∈ w.pending) : Referenced regs (w.finish false (.unpin F p)) := by
  have hmapped : (w.finish false (.unpin F p)).Mapped = w.Mapped :=
    mapped_congr (fun _ => rfl) fun G v => List.mem_erase_of_ne nofun
  refine ⟨h.books.finish hp, ?_, ?_, ?_, ?_, h.idle.teardown _⟩
  · refine h.placed.mono (fun _ _ hb => hb) ?_
    rintro G q (hq | hq)
    · exact .inl hq
    · exact .inr (List.mem_of_mem_erase hq)
  · rw [hmapped]
    exact h.viewed
  · rw [hmapped]
    exact h.windows
  · refine h.aimed.teardown _ ?_
    intro r s hregion hs
    refine hs.mono (fun _ _ hb => hb) ?_
    rintro G q hr (hq | hq)
    · exact .inl hq
    · refine .inr ((List.mem_erase_of_ne ?_).mpr hq)
      rintro ⟨⟩
      exact hregion hr

/-- The rest of a request keeps the references. -/
theorem Referenced.finish (h : Referenced regs w) {p : Pending} (hp : p ∈ w.pending)
    (hcond : Unreferenced w (.finish p)) : Referenced regs (w.finish false p) := by
  have hbooks : (w.finish false p).Books := h.books.finish hp
  cases p with
  | unmap F v =>
    have hold : ∀ G x, (w.finish false (.unmap F v)).Mapped G x → w.Mapped G x := by
      rintro G x (hx | hx)
      · exact .inl hx
      · exact .inr (List.mem_of_mem_erase hx)
    refine h.quiet hbooks rfl (pins_congr (fun _ => rfl) fun G q => List.mem_erase_of_ne nofun) rfl
      rfl ?_ ?_
    · intro G x hx
      exact h.viewed G x (hold G x hx)
    · intro G x hx
      exact h.windows G x (hold G x hx)
  | unpin F p => exact h.finish_unpin hp
  | allocateTlb F id ok =>
    cases ok with
    | true =>
      have hmapped : (w.finish false (.allocateTlb F id true)).Mapped = w.Mapped :=
        mapped_congr (fun _ => rfl) fun G v => List.mem_erase_of_ne nofun
      refine h.quiet hbooks rfl (pins_congr (fun _ => rfl) fun G q => List.mem_erase_of_ne nofun)
        rfl rfl ?_ ?_
      · rw [hmapped]
        exact h.viewed
      · rw [hmapped]
        exact h.windows
    | false =>
      exact h.releaseTlb hbooks (fun G q => List.mem_erase_of_ne nofun)
        (fun G v => List.mem_erase_of_ne nofun) hcond

/-- Every step that meets no hidden reference keeps the references. -/
theorem Referenced.next (h : Referenced regs w) {e : MemEvent} (hos : OsOk w e)
    (hcond : Unreferenced w e) (hstep : w.next c false e = some w') : Referenced regs w' := by
  cases e with
  | create =>
    cases hstep
    exact ⟨Bookkeeping.create h.books, h.placed, h.viewed, h.windows, h.aimed, h.idle⟩
  | start F r =>
    obtain ⟨hF, rfl⟩ := guard_of_eq_some hstep
    cases r with
    | allocateTlb io size => exact h.allocateTlb hF io size
    | freeTlb io id => exact h.freeTlb hF hcond
    | allocateDmaBuf io i env => exact h.allocateDmaBuf hF hos
    | freeDmaBufEx io i => exact h.freeDmaBufEx hF hcond
    | map io i env => exact h.map hF io i env
    | unmap io userVa reserved => exact h.unmap hF io userVa reserved
    | pinPages io i env => exact h.pinPages hF hos hcond
    | unpinPages io i => exact h.unpinPages hF io i
  | finish p =>
    obtain ⟨hp, rfl⟩ := guard_of_eq_some hstep
    exact h.finish hp hcond

/-- A started device refers to nothing. -/
theorem Referenced.started (c : MemoryConfig) (regs : Fin 16 → AtuRegs) :
    Referenced regs (.started c regs) := by
  have hlive : ∀ G b, ¬(MemWorld.started c regs).Live G b := by
    intro G b hb
    have hnone : b ∈ FileMemory.init.bufs := hb
    rw [FileMemory.bufs_init] at hnone
    cases hnone
  have hpins : ∀ G p, ¬(MemWorld.started c regs).Pins G p := by
    rintro G p (hp | hp)
    all_goals cases hp
  have hviews : ∀ G v, ¬(MemWorld.started c regs).Mapped G v := by
    rintro G v (hv | hv)
    all_goals cases hv
  refine ⟨MemWorld.Books.started c regs, ⟨?_, ?_, ?_, ?_, ?_⟩, ?_, ?_, ?_, ?_⟩
  · exact fun G b hb => absurd hb (hlive G b)
  · exact fun G b hb => absurd hb (hlive G b)
  · exact fun G _ b _ hb => absurd hb (hlive G b)
  · exact fun G _ b _ hb => absurd hb (hlive G b)
  · exact fun G p _ hp => absurd hp (hpins G p)
  · exact fun G v hv => absurd hv (hviews G v)
  · exact fun G v hv => absurd hv (hviews G v)
  · intro r hr
    cases hr
  · exact fun r _ => .inr rfl

end Steps

/-- The buffer that a step destroys. -/
def MemWorld.destroys (w : MemWorld) : MemEvent → Option DmaBuf
  | .start F (.freeDmaBufEx io i) =>
      if (ttIoctlFreeDmaBufEx false w.mem F io i).status = .success then
        (w.mem.file F).dmaBufs i.bufIndex
      else none
  | _ => none

/-- The steps of the requests on an attached device, with the answers an operating
system may give. -/
def osStep (c : MemoryConfig) : MemWorld → MemEvent → MemWorld → Prop :=
  restrict (partialGraph (MemWorld.next c false)) OsOk

/-- In a run whose steps meet no hidden reference, every mapped view of a window is of
one that its handle owns; and a step that destroys a buffer finds no mapped view of it,
and leaves no enabled region that translates into it, except for regions that still
have their power-up registers. -/
theorem nothing_released_while_referenced {c : MemoryConfig} {regs : Fin 16 → AtuRegs}
    {es : List MemEvent} {w : MemWorld}
    (hrun : Run (restrict (osStep c) Unreferenced) (.started c regs) es w) :
    (∀ G v id, w.Mapped G v → v.tlbId = some id →
        w.mem.tlbUsed id = true ∧ w.mem.tlbOwner id = some G) ∧
      ∀ e w' b, restrict (osStep c) Unreferenced w e w' → w.destroys e = some b →
        (∀ G v, w.Mapped G v → v.dmaBuf ≠ some b.id) ∧
          ∀ r, (w'.mem.iatu.regs r).Reaches b.span →
            (w'.mem.iatu.slots r).used = false ∧ w'.mem.iatu.regs r = regs r := by
  have h : Referenced regs w :=
    hrun.invariant (fun _ _ _ h hstep => h.next hstep.2.1 hstep.1 hstep.2.2)
      (Referenced.started c regs)
  refine ⟨fun G v id hv hid => h.windows G v hv id hid, ?_⟩
  rintro e w' b ⟨hcond, hos, hstep⟩ hdestroys
  have h' : Referenced regs w' := h.next hos hcond hstep
  unfold MemWorld.destroys at hdestroys
  split at hdestroys
  swap
  · cases hdestroys
  rename_i F io i
  split at hdestroys
  swap
  · cases hdestroys
  rename_i hsuccess
  obtain ⟨-, rfl⟩ := guard_of_eq_some hstep
  obtain ⟨b', hi, hb', href, hiatu⟩ := ttIoctlFreeDmaBufEx_success hsuccess
  obtain rfl : b = b' := Option.some.inj (hdestroys.symm.trans hb')
  obtain ⟨hviews, hbacked⟩ := h.unreferenced hcond hi hb' href
  refine ⟨hviews, ?_⟩
  intro r hreaches
  have hlive : w.Live F b := FileMemory.mem_bufs.mpr ⟨_, hi, hb'⟩
  cases hused : ((w.start c false F (.freeDmaBufEx io i)).mem.iatu.slots r).used with
  | true =>
    have haimed : Aimed (Names (fun G b' => w.Live G b' ∧ b'.id ≠ b.id) w.Pins)
        (ttTeardownNocDma false w.mem.iatu b.iatuRegion) :=
      h.aimed.teardown _ fun r s hregion hs => hs.without h.placed hlive hregion hbacked
    rw [← hiatu] at haimed
    obtain ⟨s, hs, hwithin⟩ := haimed r hused
    exact absurd hreaches (AtuRegs.not_reaches (hwithin.apart (hs.apart h.placed hlive)))
  | false =>
    refine ⟨rfl, ?_⟩
    rcases h'.idle r hused with hdisabled | hpower
    · obtain ⟨a, host, htranslate, _⟩ := hreaches
      rw [(AtuRegs.translate_eq_some.mp htranslate).1] at hdisabled
      cases hdisabled
    · exact hpower

/-- Where nothing is live and nothing is pinned, a common buffer may lie anywhere. -/
theorem osOk_of_empty {w : MemWorld} {F : Handle} {io : Io} {i : AllocateDmaBufIn}
    {env : DmaBufEnv} (hfiles : ∀ G, w.mem.file G = .init) (hpending : w.pending = [])
    (hfits : ∀ logical physical, env.commonBuffer = some (logical, physical) →
      logical + i.requestedSize ≤ 2 ^ 64) : OsOk w (.start F (.allocateDmaBuf io i env)) := by
  intro logical physical henv
  refine ⟨hfits logical physical henv, ?_, ?_⟩
  · intro G b hb
    rw [MemWorld.Live, hfiles G, FileMemory.bufs_init] at hb
    cases hb
  · rintro G p pfn (hp | hp)
    · rw [hfiles G] at hp
      cases hp
    · rw [hpending] at hp
      cases hp

/-- A handle gets a page with an aperture, maps it and a window, and unmaps the page. -/
def unmappedPage : List MemEvent :=
  [.create,
   .start 0 (.allocateDmaBuf ⟨24, 64⟩ ⟨4096, 3, true⟩ ⟨some (0x10000, 0x10000), true⟩),
   .start 0 (.map ⟨16, 24⟩ ⟨mmapOffsetDmaBuf + 3 * 2 ^ 32, 4096⟩ ⟨true, true, some 0x5000, 7⟩),
   .start 0 (.allocateTlb ⟨16, 48⟩ (2 ^ 21)),
   .finish (.allocateTlb 0 0 true),
   .start 0 (.map ⟨16, 24⟩ ⟨6 * 2 ^ 36, 4096⟩ ⟨true, true, some 0x9000, 7⟩),
   .start 0 (.unmap ⟨16, 0⟩ 0x5000 0),
   .finish (.unmap 0 ⟨0x5000, 4096, 0x10000, none, true, some 0, 7⟩)]

/-- The handle releases the page. -/
def releasePage : MemEvent := .start 0 (.freeDmaBufEx ⟨8, 0⟩ ⟨3, 0⟩)

/-- The page is released with no view of it and no region that translates into it. -/
theorem nothing_released_while_referenced_unmappedPage :
    ∃ w w' b, Run (restrict (osStep blackholeConfig) Unreferenced)
        (.started blackholeConfig fun _ _ => 0) unmappedPage w ∧
      restrict (osStep blackholeConfig) Unreferenced w releasePage w' ∧
      w.destroys releasePage = some b ∧ w.mem.tlbOwner 0 = some 0 ∧
      (∀ G v, w.Mapped G v → v.dmaBuf ≠ some b.id) ∧
      ∀ r, (w'.mem.iatu.regs r).Reaches b.span →
        (w'.mem.iatu.slots r).used = false ∧ w'.mem.iatu.regs r = fun _ => 0 := by
  obtain ⟨w, w', b, hrun, hstep, hdestroys, howner⟩ : ∃ w w' b,
      Run (restrict (osStep blackholeConfig) Unreferenced)
        (.started blackholeConfig fun _ _ => 0) unmappedPage w ∧
      restrict (osStep blackholeConfig) Unreferenced w releasePage w' ∧
      w.destroys releasePage = some b ∧ w.mem.tlbOwner 0 = some 0 := by
    refine ⟨_, _, _, .cons ⟨trivial, trivial, rfl⟩ (.cons ⟨trivial, ?_, rfl⟩
      (.cons ⟨trivial, trivial, rfl⟩ (.cons ⟨trivial, trivial, rfl⟩
      (.cons ⟨trivial, trivial, rfl⟩ (.cons ⟨trivial, trivial, rfl⟩
      (.cons ⟨trivial, trivial, rfl⟩ (.cons ⟨trivial, trivial, rfl⟩ (.nil _)))))))),
      ⟨?_, trivial, rfl⟩, rfl, rfl⟩
    · refine osOk_of_empty (fun _ => rfl) rfl ?_
      rintro _ _ ⟨⟩
      decide
    · intro b _
      refine ⟨?_, ?_⟩
      · intro v hv
        cases hv
      · intro p hp
        cases hp
  obtain ⟨_, hfree⟩ := nothing_released_while_referenced hrun
  obtain ⟨hviews, hregions⟩ := hfree releasePage w' b hstep hdestroys
  exact ⟨w, w', b, hrun, hstep, hdestroys, howner, hviews, hregions⟩

/-- `UNMAP` has unlinked the view of the page and not torn it down. -/
def unlinkedPage : List MemEvent :=
  [.create,
   .start 0 (.allocateDmaBuf ⟨24, 64⟩ ⟨4096, 3, false⟩ ⟨some (0x10000, 0x10000), true⟩),
   .start 0 (.map ⟨16, 24⟩ ⟨mmapOffsetDmaBuf + 3 * 2 ^ 32, 4096⟩ ⟨true, true, some 0x5000, 7⟩),
   .start 0 (.unmap ⟨16, 0⟩ 0x5000 0)]

/-- `UNMAP` has unlinked the view of a window and not torn it down. -/
def unlinkedWindow : List MemEvent :=
  [.create,
   .start 0 (.allocateTlb ⟨16, 48⟩ (2 ^ 21)),
   .finish (.allocateTlb 0 0 true),
   .start 0 (.map ⟨16, 24⟩ ⟨6 * 2 ^ 36, 4096⟩ ⟨true, true, some 0x9000, 7⟩),
   .start 0 (.unmap ⟨16, 0⟩ 0x9000 0)]

/-- The page is destroyed, and the window freed, while the view is mapped. -/
theorem unlinked_released :
    (∃ w w' b v, Run (osStep blackholeConfig) (.started blackholeConfig fun _ _ => 0)
        unlinkedPage w ∧ osStep blackholeConfig w releasePage w' ∧
      w.destroys releasePage = some b ∧ w'.Mapped 0 v ∧ v.dmaBuf = some b.id) ∧
    ∃ w w' v, Run (osStep blackholeConfig) (.started blackholeConfig fun _ _ => 0)
        unlinkedWindow w ∧ osStep blackholeConfig w (.start 0 (.freeTlb ⟨4, 0⟩ 0)) w' ∧
      w'.Mapped 0 v ∧ v.tlbId = some 0 ∧ w'.mem.tlbUsed 0 = false := by
  constructor
  · refine ⟨_, _, _, ⟨0x5000, 4096, 0x10000, none, true, some 0, 7⟩, .cons ⟨trivial, rfl⟩
      (.cons ⟨?_, rfl⟩ (.cons ⟨trivial, rfl⟩ (.cons ⟨trivial, rfl⟩ (.nil _)))), ⟨trivial, rfl⟩, rfl,
      .inr (List.mem_cons_self ..), rfl⟩
    refine osOk_of_empty (fun _ => rfl) rfl ?_
    rintro _ _ ⟨⟩
    decide
  · exact ⟨_, _, ⟨0x9000, 4096, 0, some 0, false, none, 7⟩, .cons ⟨trivial, rfl⟩
      (.cons ⟨trivial, rfl⟩ (.cons ⟨trivial, rfl⟩ (.cons ⟨trivial, rfl⟩
      (.cons ⟨trivial, rfl⟩ (.nil _))))), ⟨trivial, rfl⟩, .inr (List.mem_cons_self ..), rfl, rfl⟩

end TtKmd
