import TtKmd.Memory.Effects
import Mathlib.Algebra.BigOperators.Fin
import Mathlib.Tactic.Ring

/-!
# The books of the memory requests

Five structures describe one set of resources: the buffer slots, the mapping list
and the pinning list of every handle, the device's table of outbound regions, and
the count of buffer bytes. `Bookkeeping` says that they agree. The regions of
pinnings that are unlinked but not torn down yet are in no list; they are kept
apart, as the `extra` regions of their handle.
-/

namespace TtKmd

open Lib

/-- The records of a handle refer to live buffers of the same handle. -/
structure FileOk (f : FileMemory) : Prop where
  /-- A view of a DMA buffer is of a live one, and not longer. -/
  view : ∀ v ∈ f.mappings, v.isDmaBuf = true →
    ∃ b ∈ f.bufs, v.dmaBuf = some b.id ∧ v.length ≤ b.size
  /-- A view of a BAR or of a window names no buffer. -/
  plain : ∀ v ∈ f.mappings, v.isDmaBuf = false → v.dmaBuf = none
  /-- A backed pinning is backed by a live buffer. -/
  backing : ∀ p ∈ f.pinnings, ∀ id, p.backingDmaBuf = some id → ∃ b ∈ f.bufs, b.id = id

/-- The regions of every handle: those its records name and the `extra` ones. -/
def allRegions (m : MemoryState) (extra : Handle → List (Fin 16)) (F : Handle) : List (Fin 16) :=
  (m.file F).regions ++ extra F

/-- The books agree. The handles are the numbers below `n`. -/
structure Bookkeeping (n : ℕ) (extra : Handle → List (Fin 16)) (m : MemoryState) : Prop where
  /-- The table of regions agrees with the records. -/
  apertures : Apertures m.iatu (allRegions m extra)
  /-- The records refer to live buffers. -/
  files : ∀ F, FileOk (m.file F)
  /-- The count of buffer bytes. -/
  bytes : m.dmaBufBytes = ∑ F ∈ Finset.range n, (m.file F).bytes
  /-- A handle that was never opened has nothing. -/
  fresh : ∀ F, n ≤ F → m.file F = FileMemory.init

/-- A handle that has no views, no pinnings and no buffers. -/
structure FileMemory.Empty (f : FileMemory) : Prop where
  /-- No views. -/
  mappings : f.mappings = []
  /-- No pinnings. -/
  pinnings : f.pinnings = []
  /-- No buffers. -/
  bufs : f.bufs = []

section Files

variable {f : FileMemory} {i : ℕ} {b : DmaBuf}

/-- A new file context has no records. -/
theorem FileMemory.bufs_init : FileMemory.init.bufs = [] := by
  simp [FileMemory.bufs, FileMemory.init]

/-- A new file context is empty. -/
theorem FileMemory.Empty.init : FileMemory.init.Empty := ⟨rfl, rfl, FileMemory.bufs_init⟩

/-- An empty handle names no region. -/
theorem FileMemory.Empty.regions {f : FileMemory} (h : f.Empty) : f.regions = [] := by
  rw [FileMemory.regions, h.bufs, h.pinnings]
  rfl

/-- An empty handle has no bytes. -/
theorem FileMemory.Empty.bytes {f : FileMemory} (h : f.Empty) : f.bytes = 0 := by
  rw [FileMemory.bytes, h.bufs]
  rfl

/-- A new file context is in order. -/
theorem FileOk.init : FileOk FileMemory.init := by
  constructor <;> simp [FileMemory.init]

/-- Whatever the buffers are, only their number of bytes depends on them. -/
theorem FileMemory.bytes_perm {f g : FileMemory} (h : f.bufs.Perm g.bufs) : f.bytes = g.bytes :=
  (h.map _).sum_eq

/-- The bytes of a handle with one more buffer. -/
theorem FileMemory.bytes_of_perm_cons {f g : FileMemory} (h : g.bufs.Perm (b :: f.bufs)) :
    g.bytes = f.bytes + b.size := by
  unfold FileMemory.bytes
  rw [(h.map _).sum_eq, List.map_cons, List.sum_cons, add_comm]

/-- The regions of a handle with one more buffer. -/
theorem FileMemory.regions_of_perm_cons {f g : FileMemory} (h : g.bufs.Perm (b :: f.bufs))
    (hp : g.pinnings = f.pinnings) :
    g.regions.Perm (b.iatuRegion.toList ++ f.regions) := by
  unfold FileMemory.regions
  rw [hp, ← List.append_assoc]
  apply List.Perm.append_right
  refine (h.filterMap _).trans ?_
  cases hr : b.iatuRegion <;> simp [hr]

/-- The regions of a handle with one more pinning. -/
theorem FileMemory.regions_of_pinnings {f g : FileMemory} {p : Pinning} (hb : g.bufs = f.bufs)
    (hp : g.pinnings.Perm (p :: f.pinnings)) :
    g.regions.Perm (p.iatuRegion.toList ++ f.regions) := by
  unfold FileMemory.regions
  rw [hb]
  refine ((hp.filterMap _).append_left _).trans ?_
  cases hr : p.iatuRegion with
  | none => simp [hr]
  | some r =>
    rw [List.filterMap_cons_some hr]
    exact List.perm_middle

/-- A handle with a buffer more keeps its references. -/
theorem FileOk.insert_buf (h : FileOk f) (hi : i < maxDmaBufs) (hf : f.dmaBufs i = none) :
    FileOk { f with dmaBufs := Function.update f.dmaBufs i (some b) } := by
  have hmem : ∀ b' ∈ f.bufs,
      b' ∈ ({ f with dmaBufs := Function.update f.dmaBufs i (some b) } : FileMemory).bufs := by
    intro b' hb'
    exact (FileMemory.bufs_insert hi hf b).mem_iff.mpr (List.mem_cons_of_mem _ hb')
  refine ⟨?_, h.plain, ?_⟩
  · intro v hv hdma
    obtain ⟨b', hb', href⟩ := h.view v hv hdma
    exact ⟨b', hmem b' hb', href⟩
  · intro p hp id hid
    obtain ⟨b', hb', href⟩ := h.backing p hp id hid
    exact ⟨b', hmem b' hb', href⟩

/-- A buffer that no record refers to can go. -/
theorem FileOk.remove_buf (h : FileOk f) (hi : i < maxDmaBufs) (hf : f.dmaBufs i = some b)
    (href : bufReferenced f b = false) :
    FileOk { f with dmaBufs := Function.update f.dmaBufs i none } := by
  simp only [bufReferenced, Bool.or_eq_false_iff, List.any_eq_false, beq_iff_eq] at href
  obtain ⟨hviews, hpins⟩ := href
  have hperm := FileMemory.bufs_remove hi hf
  refine ⟨?_, h.plain, ?_⟩
  · intro v hv hdma
    obtain ⟨b', hb', hid, hlen⟩ := h.view v hv hdma
    rcases List.mem_cons.mp (hperm.mem_iff.mp hb') with rfl | hrest
    · exact absurd hid (hviews v hv)
    · exact ⟨b', hrest, hid, hlen⟩
  · intro p hp id hid
    obtain ⟨b', hb', rfl⟩ := h.backing p hp id hid
    rcases List.mem_cons.mp (hperm.mem_iff.mp hb') with rfl | hrest
    · exact absurd hid (hpins p hp)
    · exact ⟨b', hrest, rfl⟩

/-- Fewer records refer to no more. -/
theorem FileOk.mono (h : FileOk f) {vs : List UserMapping} {ps : List Pinning}
    (hvs : ∀ v ∈ vs, v ∈ f.mappings) (hps : ∀ p ∈ ps, p ∈ f.pinnings) :
    FileOk { f with mappings := vs, pinnings := ps } :=
  ⟨fun v hv => h.view v (hvs v hv), fun v hv => h.plain v (hvs v hv),
    fun p hp => h.backing p (hps p hp)⟩

/-- A view that `MAP` may create keeps the references. -/
theorem FileOk.insert_view {m : MemoryState} {F : Handle} {v : UserMapping} (h : FileOk (m.file F))
    (hv : ViewOk m F v) :
    FileOk { m.file F with mappings := (m.file F).mappings ++ [v] } := by
  refine ⟨?_, ?_, h.backing⟩
  · intro w hw hdma
    rcases List.mem_append.mp hw with hold | hnew
    · exact h.view w hold hdma
    · obtain rfl := List.mem_singleton.mp hnew
      rcases hv with ⟨_, _, hbuf⟩ | ⟨hno, _⟩
      · exact hbuf
      · rw [hno] at hdma
        cases hdma
  · intro w hw hplain
    rcases List.mem_append.mp hw with hold | hnew
    · exact h.plain w hold hplain
    · obtain rfl := List.mem_singleton.mp hnew
      rcases hv with ⟨hyes, _⟩ | ⟨_, hnone, _⟩
      · rw [hyes] at hplain
        cases hplain
      · exact hnone

/-- A pinning that `PIN_PAGES` may register keeps the references. -/
theorem FileOk.insert_pinning {env : PinEnv} {p : Pinning} {target : ℕ} (h : FileOk f)
    (hp : PinTarget f env p target) : FileOk { f with pinnings := f.pinnings ++ [p] } := by
  refine ⟨h.view, h.plain, ?_⟩
  intro q hq id hid
  rcases List.mem_append.mp hq with hold | hnew
  · exact h.backing q hold id hid
  · obtain rfl := List.mem_singleton.mp hnew
    rcases hp with ⟨_, id', offset, hback, hfind, _⟩ | ⟨hnone, _⟩
    · rw [hid] at hback
      cases hback
      obtain ⟨v, hv, hdma, hbuf, _⟩ := ttFindDmaBufView_eq_some hfind
      obtain ⟨b', hb', href, _⟩ := h.view v hv hdma
      rw [hbuf] at href
      cases href
      exact ⟨b', hb', rfl⟩
    · rw [hnone] at hid
      cases hid

end Files

section Requests

variable {n : ℕ} {extra extra' : Handle → List (Fin 16)} {m m' : MemoryState} {F : Handle}
  {c : MemoryConfig} {detached : Bool} {io : Io}

/-- The books of a started device agree. -/
theorem Bookkeeping.started (c : MemoryConfig) (regs : Fin 16 → AtuRegs) :
    Bookkeeping 0 (fun _ => []) (.started c regs) := by
  refine ⟨⟨⟨?_, ?_, ?_⟩, ?_, ?_, ?_⟩, fun _ => FileOk.init, rfl, fun _ _ => rfl⟩
  · intro i hi
    cases hi
  · intro i hi
    cases hi
  · intro i j _ hi
    cases hi
  · intro i hi
    cases hi
  · intro i hi
    cases hi
  · intro F
    have hnone : allRegions (.started c regs) (fun _ => []) F = [] := by
      rw [allRegions, List.append_nil]
      exact FileMemory.Empty.init.regions
    rw [hnone]
    exact ⟨List.nodup_nil, fun r => by simp [MemoryState.started, IatuSlot.empty]⟩

/-- The `extra` regions do not depend on their order. -/
theorem Bookkeeping.congr (h : Bookkeeping n extra m) (hperm : ∀ F, (extra F).Perm (extra' F)) :
    Bookkeeping n extra' m :=
  ⟨h.apertures.congr fun F => (hperm F).append_left _, h.files, h.bytes, h.fresh⟩

/-- A new handle has nothing. -/
theorem Bookkeeping.create (h : Bookkeeping n extra m) : Bookkeeping (n + 1) extra m := by
  refine ⟨h.apertures, h.files, ?_, fun G hG => h.fresh G (by omega)⟩
  rw [Finset.sum_range_succ, h.fresh n le_rfl, FileMemory.Empty.init.bytes, add_zero]
  exact h.bytes

/-- A change of one handle's memory, with the table and the count that go with it. -/
theorem Bookkeeping.change (h : Bookkeeping n extra m) (hF : F < n) {f : FileMemory}
    {l : List (Fin 16)} (hfile : m'.file = Function.update m.file F f)
    (hap : Apertures m'.iatu (Function.update (allRegions m extra) F l))
    (hl : l.Perm (f.regions ++ extra' F)) (hextra : ∀ G, G ≠ F → extra' G = extra G)
    (hok : FileOk f) (hbytes : m'.dmaBufBytes = m.dmaBufBytes + (f.bytes - (m.file F).bytes)) :
    Bookkeeping n extra' m' := by
  have hother : ∀ G, G ≠ F → m'.file G = m.file G := fun G hG => by
    rw [hfile, Function.update_of_ne hG]
  have hself : m'.file F = f := by rw [hfile, Function.update_self]
  refine ⟨hap.congr ?_, ?_, ?_, ?_⟩
  · intro G
    by_cases hG : G = F
    · subst hG
      rw [Function.update_self, allRegions, hself]
      exact hl
    · rw [Function.update_of_ne hG, allRegions, allRegions, hother G hG, hextra G hG]
  · intro G
    by_cases hG : G = F
    · subst hG
      rw [hself]
      exact hok
    · rw [hother G hG]
      exact h.files G
  · have hsum : ∀ g : Handle → FileMemory, (∑ G ∈ Finset.range n, (g G).bytes) =
        (g F).bytes + ∑ G ∈ (Finset.range n).erase F, (g G).bytes := fun g =>
      (Finset.add_sum_erase _ (fun G => (g G).bytes) (Finset.mem_range.mpr hF)).symm
    have hrest : ∑ G ∈ (Finset.range n).erase F, (m'.file G).bytes =
        ∑ G ∈ (Finset.range n).erase F, (m.file G).bytes := by
      refine Finset.sum_congr rfl ?_
      intro G hG
      rw [hother G (Finset.ne_of_mem_erase hG)]
    rw [hbytes, h.bytes, hsum m.file, hsum m'.file, hrest, hself]
    omega
  · intro G hG
    rw [hother G (ne_of_gt (lt_of_lt_of_le hF hG))]
    exact h.fresh G hG

/-- A change of one handle's views. -/
theorem Bookkeeping.views (h : Bookkeeping n extra m) (hF : F < n) {vs : List UserMapping}
    (hok : FileOk { m.file F with mappings := vs }) :
    Bookkeeping n extra (m.setFile F { m.file F with mappings := vs }) := by
  refine h.change hF rfl (l := allRegions m extra F) ?_ (List.Perm.refl _) (fun _ _ => rfl) hok ?_
  · rw [Function.update_eq_self]
    exact h.apertures
  · show m.dmaBufBytes = m.dmaBufBytes + ((m.file F).bytes - (m.file F).bytes)
    omega

/-- An aperture that is opened and torn down again does not matter. -/
theorem Bookkeeping.undone (h : Bookkeeping n extra m) {size : ℕ} (hsize : ApertureSize size)
    (hm : Undone detached m m' F size) : Bookkeeping n extra m' := by
  obtain ⟨u', target, region, hopen, rfl⟩ := hm
  exact ⟨h.apertures.undone hsize.2.1 hsize.2.2 hopen, h.files, h.bytes, h.fresh⟩

/-- `ALLOCATE_DMA_BUF` keeps the books. -/
theorem Bookkeeping.allocateDmaBuf (h : Bookkeeping n extra m) (hF : F < n) (i : AllocateDmaBufIn)
    (env : DmaBufEnv) :
    Bookkeeping n extra (ttIoctlAllocateDmaBuf c detached m F io i env).mem := by
  rcases ttIoctlAllocateDmaBuf_cases c detached F io
    h.apertures.ok i env with (hm | ⟨hsize, hm⟩) | ⟨_, b, u', hall⟩
  · rw [hm]
    exact h
  · exact h.undone hsize hm
  · have hperm := FileMemory.bufs_insert hall.index hall.empty b
    rw [hall.mem]
    refine h.change hF rfl (h.apertures.opened hall.sizeOk.2.1 hall.sizeOk.2.2 hall.aperture) ?_
      (fun _ _ => rfl) ((h.files F).insert_buf hall.index hall.empty) ?_
    · rw [allRegions, ← List.append_assoc]
      exact (FileMemory.regions_of_perm_cons hperm rfl).symm.append_right _
    · rw [FileMemory.bytes_of_perm_cons hperm]
      show m.dmaBufBytes + b.size = m.dmaBufBytes + ((m.file F).bytes + b.size - (m.file F).bytes)
      omega

/-- A buffer that leaves its slot is destroyed with its aperture and its bytes. -/
theorem Bookkeeping.destroy (h : Bookkeeping n extra m) (detached : Bool) (hF : F < n) {i : ℕ}
    {b : DmaBuf}
    (hi : i < maxDmaBufs) (hb : (m.file F).dmaBufs i = some b)
    (hok : FileOk { m.file F with dmaBufs := Function.update (m.file F).dmaBufs i none }) :
    Bookkeeping n extra (ttDmaBufDestroy detached (m.setFile F { m.file F with
      dmaBufs := Function.update (m.file F).dmaBufs i none }) b) := by
  have hperm := FileMemory.bufs_remove hi hb
  refine h.change hF rfl (h.apertures.teardown detached b.iatuRegion ?_) (List.Perm.refl _)
    (fun _ _ => rfl) hok ?_
  · rw [allRegions, ← List.append_assoc]
    exact (FileMemory.regions_of_perm_cons hperm rfl).append_right _
  · have hbytes := FileMemory.bytes_of_perm_cons hperm
    show m.dmaBufBytes - b.size = m.dmaBufBytes + (FileMemory.bytes _ - FileMemory.bytes _)
    rw [hbytes]
    ring

/-- `FREE_DMA_BUF_EX` keeps the books. -/
theorem Bookkeeping.freeDmaBufEx (h : Bookkeeping n extra m) (hF : F < n) (i : FreeDmaBufExIn) :
    Bookkeeping n extra (ttIoctlFreeDmaBufEx detached m F io i).mem := by
  rcases ttIoctlFreeDmaBufEx_cases detached m F io i with
    ⟨_, hm⟩ | ⟨_, b, hi, hb, href, hm⟩
  · rw [hm]
    exact h
  · rw [hm]
    exact h.destroy detached hF hi hb ((h.files F).remove_buf hi hb href)

/-- `MAP` keeps the books. -/
theorem Bookkeeping.map (h : Bookkeeping n extra m) (hF : F < n) (i : MapIn) (env : MapEnv) :
    Bookkeeping n extra (ttIoctlMap c m F io i env).mem := by
  rcases ttIoctlMap_cases c m F io i env with hm | ⟨_, v, hv, _, hm⟩
  · rw [hm]
    exact h
  · rw [hm]
    exact h.views hF ((h.files F).insert_view hv)

/-- The section of `UNMAP` keeps the books. -/
theorem Bookkeeping.unlinkView (h : Bookkeeping n extra m) (hF : F < n) (userVa : ℕ) :
    Bookkeeping n extra (unmapSection m F userVa).2 := by
  rcases unmapSection_cases (m := m) (F := F) userVa with hm | ⟨v, l, hperm, hm⟩
  · rw [hm]
    exact h
  · rw [hm]
    refine h.views hF ((h.files F).mono ?_ (fun p hp => hp))
    intro w hw
    exact hperm.mem_iff.mpr (List.mem_cons_of_mem _ hw)

/-- `PIN_PAGES` keeps the books. -/
theorem Bookkeeping.pinPages (h : Bookkeeping n extra m) (hF : F < n) (i : PinPagesIn)
    (env : PinEnv) : Bookkeeping n extra (ttIoctlPinPages c detached m F io i env).mem := by
  rcases ttIoctlPinPages_cases c detached F io h.apertures.ok i env with
    (hm | ⟨hsize, hm⟩) | ⟨_, p, target, u', hpin⟩
  · rw [hm]
    exact h
  · exact h.undone hsize hm
  · rw [hpin.mem]
    refine h.change hF rfl (h.apertures.opened hpin.sizeOk.2.1 hpin.sizeOk.2.2 hpin.aperture) ?_
      (fun _ _ => rfl) ((h.files F).insert_pinning hpin.pages) ?_
    · have hregions := FileMemory.regions_of_pinnings (f := m.file F)
        (g := { m.file F with pinnings := (m.file F).pinnings ++ [p] }) rfl
        (List.perm_append_singleton p _)
      rw [allRegions, ← List.append_assoc]
      exact hregions.symm.append_right _
    · show m.dmaBufBytes = m.dmaBufBytes + ((m.file F).bytes - (m.file F).bytes)
      omega

/-- Pinnings that are unlinked leave their regions behind. -/
theorem Bookkeeping.unlink (h : Bookkeeping n extra m) (hF : F < n) {f : FileMemory}
    {l : List (Fin 16)} (hbufs : f.bufs = (m.file F).bufs)
    (hregions : (m.file F).regions.Perm (f.regions ++ l)) (hok : FileOk f) :
    Bookkeeping n (Function.update extra F (l ++ extra F)) (m.setFile F f) := by
  refine h.change hF rfl (l := allRegions m extra F) ?_ ?_
    (fun G hG => Function.update_of_ne hG _ _)
    hok ?_
  · rw [Function.update_eq_self]
    exact h.apertures
  · rw [Function.update_self, allRegions, ← List.append_assoc]
    exact hregions.append_right _
  · rw [FileMemory.bytes_perm (List.Perm.of_eq hbufs)]
    show m.dmaBufBytes = _
    omega

/-- A region that is left behind is torn down. -/
theorem Bookkeeping.destroyPinning (h : Bookkeeping n extra m) (detached : Bool) {p : Pinning}
    {l : List (Fin 16)}
    (hextra : (extra F).Perm (p.iatuRegion.toList ++ l)) :
    Bookkeeping n (Function.update extra F l) (ttDestroyPinning detached m p) := by
  have hap := h.apertures.teardown detached p.iatuRegion (F := F)
    (l := (m.file F).regions ++ l) ?_
  · refine ⟨hap.congr ?_, h.files, h.bytes, h.fresh⟩
    intro G
    by_cases hG : G = F
    · subst hG
      rw [Function.update_self, allRegions, Function.update_self]
      exact List.Perm.refl _
    · rw [Function.update_of_ne hG, allRegions, allRegions, Function.update_of_ne hG]
      exact List.Perm.refl _
  · rw [allRegions]
    refine (hextra.append_left _).trans ?_
    rw [← List.append_assoc, ← List.append_assoc]
    exact List.perm_append_comm.append_right _

/-- The section of `UNPIN_PAGES` leaves the region of the pinning behind. -/
theorem Bookkeeping.unlinkPinning (h : Bookkeeping n extra m) (hF : F < n) {p : Pinning}
    {l : List Pinning} (hperm : (m.file F).pinnings.Perm (p :: l)) :
    Bookkeeping n (Function.update extra F (p.iatuRegion.toList ++ extra F))
      (m.setFile F { m.file F with pinnings := l }) := by
  have hregions := FileMemory.regions_of_pinnings (f := { m.file F with pinnings := l })
    (g := m.file F) rfl hperm
  refine h.unlink hF rfl (hregions.trans List.perm_append_comm)
    ((h.files F).mono (fun _ hv => hv) ?_)
  intro q hq
  exact hperm.mem_iff.mpr (List.mem_cons_of_mem _ hq)

/-- `UNMAP` keeps the books. -/
theorem Bookkeeping.unmap (h : Bookkeeping n extra m) (hF : F < n) (userVa reserved : ℕ) :
    Bookkeeping n extra (ttIoctlUnmap m F io userVa reserved).mem := by
  rcases ttIoctlUnmap_mem m F io userVa reserved with hm | hm
  · rw [hm]
    exact h
  · rw [hm]
    exact h.unlinkView hF userVa

/-- `UNPIN_PAGES` keeps the books. -/
theorem Bookkeeping.unpinPages (h : Bookkeeping n extra m) (hF : F < n) (i : UnpinPagesIn) :
    Bookkeeping n extra (ttIoctlUnpinPages detached m F io i).mem := by
  rcases ttIoctlUnpinPages_mem detached m F io i with hm | ⟨p, hp, hm⟩
  · rw [hm]
    exact h
  · rw [hm]
    rcases unpinSection_cases (m := m) (F := F) i with hsec | ⟨q, l, hperm, hsec⟩
    · rw [hsec] at hp
      cases hp
    · rw [hsec] at hp ⊢
      cases hp
      have hdone := (h.unlinkPinning hF hperm).destroyPinning detached (F := F) (p := p)
        (l := extra F) (by rw [Function.update_self])
      rwa [Function.update_idem, Function.update_eq_self] at hdone

/-- Regions that are left behind are torn down one after another. -/
theorem Bookkeeping.destroyPinnings (detached : Bool) {ps : List Pinning} {l : List (Fin 16)}
    (h : Bookkeeping n (Function.update extra F (ps.filterMap (·.iatuRegion) ++ l)) m) :
    Bookkeeping n (Function.update extra F l) (ps.foldl (ttDestroyPinning detached) m) := by
  induction ps generalizing m with
  | nil => exact h
  | cons p ps ih =>
    rw [List.foldl_cons]
    apply ih
    have hone := h.destroyPinning detached (F := F) (p := p)
      (l := ps.filterMap (·.iatuRegion) ++ l) ?_
    · rwa [Function.update_idem] at hone
    · rw [Function.update_self]
      cases hr : p.iatuRegion <;> simp [hr]

/-- `TtMemoryProcessExit` keeps the books. -/
theorem Bookkeeping.processExit (h : Bookkeeping n extra m) (detached : Bool) (hF : F < n) :
    Bookkeeping n extra (ttMemoryProcessExit detached m F) := by
  have hunlink := h.unlink hF (f := { m.file F with mappings := [], pinnings := [] })
    (l := (m.file F).pinnings.filterMap (·.iatuRegion)) rfl ?_
    ((h.files F).mono (by simp) (by simp))
  · have hall := hunlink.destroyPinnings detached
    rwa [Function.update_eq_self] at hall
  · show ((m.file F).bufs.filterMap _ ++ _).Perm (((m.file F).bufs.filterMap _ ++ []) ++ _)
    rw [List.append_nil]

end Requests

section Cleanup

variable {n : ℕ} {extra : Handle → List (Fin 16)} {m : MemoryState} {F G : Handle}
  {detached : Bool}

/-- Tearing pinnings down changes the outbound regions only. -/
theorem foldl_destroyPinning (detached : Bool) (ps : List Pinning) (m : MemoryState) :
    ∃ u', ps.foldl (ttDestroyPinning detached) m = { m with iatu := u' } := by
  induction ps generalizing m with
  | nil => exact ⟨m.iatu, rfl⟩
  | cons p ps ih =>
    obtain ⟨u', hu'⟩ := ih (ttDestroyPinning detached m p)
    exact ⟨u', hu'⟩

/-- What `TtMemoryProcessExit` leaves. -/
theorem ttMemoryProcessExit_eq (detached : Bool) (m : MemoryState) (F : Handle) :
    ∃ u', ttMemoryProcessExit detached m F =
      { m.setFile F { m.file F with mappings := [], pinnings := [] } with iatu := u' } :=
  foldl_destroyPinning detached _ _

/-- One round over the slots. -/
theorem cleanupDmaBuf_cases (detached : Bool) (m : MemoryState) (F : Handle) (i : ℕ) :
    ((m.file F).dmaBufs i = none ∧ cleanupDmaBuf detached F m i = m) ∨
      ∃ b, (m.file F).dmaBufs i = some b ∧
        cleanupDmaBuf detached F m i = ttDmaBufDestroy detached (m.setFile F { m.file F with
          dmaBufs := Function.update (m.file F).dmaBufs i none }) b := by
  simp only [cleanupDmaBuf]
  cases hb : (m.file F).dmaBufs i with
  | none => exact .inl ⟨rfl, rfl⟩
  | some b => exact .inr ⟨b, rfl, rfl⟩

/-- What the rounds over some slots leave of a handle without views and pinnings. -/
structure Drained (m m' : MemoryState) (F : Handle) (slots : List ℕ) : Prop where
  /-- No views. -/
  mappings : (m'.file F).mappings = []
  /-- No pinnings. -/
  pinnings : (m'.file F).pinnings = []
  /-- The slots are empty. -/
  empty : ∀ i, i ∈ slots ∨ (m.file F).dmaBufs i = none → (m'.file F).dmaBufs i = none
  /-- The other handles are untouched. -/
  others : ∀ G, G ≠ F → m'.file G = m.file G
  /-- The windows are untouched. -/
  tlbUsed : m'.tlbUsed = m.tlbUsed
  /-- The owners of the windows are untouched. -/
  tlbOwner : m'.tlbOwner = m.tlbOwner
  /-- The counter of identities is untouched. -/
  nextBuf : m'.nextBuf = m.nextBuf

/-- The rounds over the slots keep the books and empty the slots. -/
theorem Bookkeeping.cleanupDmaBufs (detached : Bool) (hF : F < n) {slots : List ℕ}
    (hslots : ∀ i ∈ slots, i < maxDmaBufs) (h : Bookkeeping n extra m)
    (hviews : (m.file F).mappings = []) (hpins : (m.file F).pinnings = []) :
    Bookkeeping n extra (slots.foldl (cleanupDmaBuf detached F) m) ∧
      Drained m (slots.foldl (cleanupDmaBuf detached F) m) F slots := by
  induction slots generalizing m with
  | nil => exact ⟨h, hviews, hpins, by simp, fun _ _ => rfl, rfl, rfl, rfl⟩
  | cons i slots ih =>
    rw [List.foldl_cons]
    have hrest : ∀ j ∈ slots, j < maxDmaBufs := fun j hj => hslots j (List.mem_cons_of_mem _ hj)
    rcases cleanupDmaBuf_cases detached m F i with ⟨hb, hm⟩ | ⟨b, hb, hm⟩
    · rw [hm]
      obtain ⟨hbooks, hdr⟩ := ih hrest h hviews hpins
      refine ⟨hbooks, { hdr with empty := ?_ }⟩
      rintro j (hj | hj)
      · rcases List.mem_cons.mp hj with rfl | hj
        · exact hdr.empty j (.inr hb)
        · exact hdr.empty j (.inl hj)
      · exact hdr.empty j (.inr hj)
    · have hok : FileOk { m.file F with
          dmaBufs := Function.update (m.file F).dmaBufs i none } := by
        constructor <;> simp [hviews, hpins]
      have hstep := h.destroy detached hF (hslots i (List.mem_cons_self ..)) hb hok
      rw [← hm] at hstep
      have hfile : (cleanupDmaBuf detached F m i).file F =
          { m.file F with dmaBufs := Function.update (m.file F).dmaBufs i none } := by
        rw [hm]
        exact MemoryState.setFile_self _
      have hother : ∀ G, G ≠ F → (cleanupDmaBuf detached F m i).file G = m.file G := by
        intro G hG
        rw [hm]
        exact MemoryState.setFile_of_ne hG _
      obtain ⟨hbooks, hdr⟩ := ih hrest hstep (by rw [hfile]; exact hviews)
        (by rw [hfile]; exact hpins)
      refine ⟨hbooks, hdr.mappings, hdr.pinnings, ?_, ?_, ?_, ?_, ?_⟩
      · rintro j hj
        by_cases hji : j = i
        · subst hji
          exact hdr.empty j (.inr (by rw [hfile]; exact Function.update_self _ _ _))
        · rcases hj with hj | hj
          · exact hdr.empty j (.inl (List.mem_of_ne_of_mem hji hj))
          · refine hdr.empty j (.inr ?_)
            rw [hfile]
            exact (Function.update_of_ne hji _ _).trans hj
      · intro G hG
        rw [hdr.others G hG, hother G hG]
      · rw [hdr.tlbUsed, hm]
        rfl
      · rw [hdr.tlbOwner, hm]
        rfl
      · rw [hdr.nextBuf, hm]
        rfl

/-- The section of `TtMemoryFileCleanup` under the file lock keeps the books and
empties the handle. -/
theorem Bookkeeping.drain (h : Bookkeeping n extra m) (detached : Bool) (hF : F < n) :
    Bookkeeping n extra (cleanupFileSection detached m F) ∧
      ((cleanupFileSection detached m F).file F).Empty ∧
      (∀ G, G ≠ F → (cleanupFileSection detached m F).file G = m.file G) ∧
      (cleanupFileSection detached m F).tlbUsed = m.tlbUsed ∧
      (cleanupFileSection detached m F).tlbOwner = m.tlbOwner ∧
      (cleanupFileSection detached m F).nextBuf = m.nextBuf := by
  have hexit := h.processExit detached hF
  obtain ⟨u', hu'⟩ := ttMemoryProcessExit_eq detached m F
  have hfile : (ttMemoryProcessExit detached m F).file F =
      { m.file F with mappings := [], pinnings := [] } := by
    rw [hu']
    exact MemoryState.setFile_self _
  obtain ⟨hbooks, hdr⟩ := hexit.cleanupDmaBufs detached hF
    (fun i (hi : i ∈ List.range maxDmaBufs) => List.mem_range.mp hi) (by rw [hfile])
    (by rw [hfile])
  rw [cleanupFileSection]
  refine ⟨hbooks, ⟨hdr.mappings, hdr.pinnings, ?_⟩, ?_, ?_, ?_, ?_⟩
  · rw [FileMemory.bufs, List.filterMap_eq_nil_iff]
    intro i hi
    exact hdr.empty i (.inl hi)
  · intro G hG
    rw [hdr.others G hG, hu']
    exact MemoryState.setFile_of_ne hG _
  · rw [hdr.tlbUsed, hu']
    rfl
  · rw [hdr.tlbOwner, hu']
    rfl
  · rw [hdr.nextBuf, hu']
    rfl

/-- Requests that touch windows only keep the books. -/
theorem Bookkeeping.windows (h : Bookkeeping n extra m) (used : ℕ → Bool)
    (owner : ℕ → Option Handle) :
    Bookkeeping n extra { m with tlbUsed := used, tlbOwner := owner } :=
  ⟨h.apertures, h.files, h.bytes, h.fresh⟩

/-- `TtMemoryFileCleanup` keeps the books. -/
theorem Bookkeeping.fileCleanup (h : Bookkeeping n extra m) (hF : F < n) :
    Bookkeeping n extra (ttMemoryFileCleanup detached m F) :=
  (h.drain detached hF).1.windows _ _

/-- One round of `TtResetZapMappings` keeps the books. -/
theorem Bookkeeping.zap (h : Bookkeeping n extra m) (hF : F < n) :
    Bookkeeping n extra (zapFile m F) :=
  h.views hF ((h.files F).mono (fun _ hv => List.mem_of_mem_filter hv) (fun _ hp => hp))

/-- `TtResetZapMappings` keeps the books. -/
theorem Bookkeeping.zapAll {fileList : List Handle} (h : Bookkeeping n extra m)
    (hlist : ∀ F ∈ fileList, F < n) : Bookkeeping n extra (ttResetZapMappings m fileList) := by
  induction fileList generalizing m with
  | nil => exact h
  | cons F rest ih =>
    exact ih (h.zap (hlist F (List.mem_cons_self ..)))
      (fun G hG => hlist G (List.mem_cons_of_mem _ hG))

end Cleanup

end TtKmd
