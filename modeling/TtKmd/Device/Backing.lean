import TtKmd.Device.Mirror
import TtKmd.Device.Isolation
import TtKmd.Memory.References

/-!
# The device address of a backed pinning

A range inside a view of a DMA buffer of the handle is pinned without locking a page: its
device address is the bus address of the buffer plus the offset of the range in the view.
This is the address of the same bytes because `MAP` lets a view of a buffer begin at the
first byte of the buffer only, which is an invariant of the runs of the device.
-/

namespace TtKmd

open Lib

/-- A step that creates no view and no buffer. -/
structure Fewer (m m' : MemoryState) : Prop where
  /-- There is no new view. -/
  views : ∀ G v, v ∈ (m'.file G).mappings → v ∈ (m.file G).mappings
  /-- There is no new buffer. -/
  bufs : ∀ G b, b ∈ (m'.file G).bufs → b ∈ (m.file G).bufs
  /-- The counter of identities. -/
  nextBuf : m'.nextBuf = m.nextBuf

section Fewer

variable {m m' m'' : MemoryState} {F : Handle}

/-- Nothing happened. -/
theorem Fewer.refl (m : MemoryState) : Fewer m m := ⟨fun _ _ hv => hv, fun _ _ hb => hb, rfl⟩

/-- One step after another. -/
theorem Fewer.trans (h : Fewer m m') (h' : Fewer m' m'') : Fewer m m'' where
  views := fun G v hv => h.views G v (h'.views G v hv)
  bufs := fun G b hb => h.bufs G b (h'.bufs G b hb)
  nextBuf := h'.nextBuf.trans h.nextBuf

/-- What is not in the records of the handles does not matter. -/
theorem Fewer.of_file (hfile : m'.file = m.file) (hnext : m'.nextBuf = m.nextBuf) : Fewer m m' :=
  ⟨fun _ _ hv => hfile ▸ hv, fun _ _ hb => hfile ▸ hb, hnext⟩

/-- A change of the pinnings of one handle. -/
theorem fewer_setFile {f : FileMemory} (hviews : f.mappings = (m.file F).mappings)
    (hbufs : f.bufs = (m.file F).bufs) : Fewer m (m.setFile F f) where
  views := fun G v hv => by rwa [MemoryState.setFile_proj FileMemory.mappings hviews] at hv
  bufs := fun G b hb => by rwa [MemoryState.setFile_proj FileMemory.bufs hbufs] at hb
  nextBuf := rfl

/-- A teardown creates nothing. -/
theorem TearsDown.fewer {detached : Bool} (h : TearsDown detached m m') : Fewer m m' :=
  ⟨h.views, h.bufs, h.nextBuf⟩

end Fewer

/-- A view of a buffer begins at its first byte, and is not longer. -/
def ViewBacked (f : FileMemory) (v : UserMapping) : Prop :=
  v.isDmaBuf = true →
    ∃ b ∈ f.bufs, v.dmaBuf = some b.id ∧ v.length ≤ b.size ∧ v.physical = b.physical

/-- What a request does to the views and the buffers: it creates none, or one. -/
inductive RecordsAfter (m m' : MemoryState) (F : Handle) : Request → Prop
  | fewer {r : Request} : Fewer m m' → RecordsAfter m m' F r
  | allocated {io : Io} {i : AllocateDmaBufIn} {env : DmaBufEnv} {b : DmaBuf} {u' : IatuUnit} :
      Allocated m m' F i env b u' → RecordsAfter m m' F (.allocateDmaBuf io i env)
  | mapped {io : Io} {i : MapIn} {env : MapEnv} {v : UserMapping} : ViewBacked (m.file F) v →
      env.userVa = some v.userVa → v.length = i.length →
      m' = m.setFile F { m.file F with mappings := (m.file F).mappings ++ [v] } →
      RecordsAfter m m' F (.map io i env)

section Requests

variable {d d' : DeviceContext} {F : Handle}

/-- A token resolves to the first byte of a buffer, when it is one of a buffer. -/
theorem viewBacked_of_resolve {c : MemoryConfig} {m : MemoryState} {mmapOffset length userVa : ℕ}
    {target : MapTarget} {process : Process}
    (h : ttResolveMapTarget c m F mmapOffset length = .ok target) :
    ViewBacked (m.file F) ⟨userVa, length, target.physical, target.tlbId,
      decide (mmapOffset ≥ mmapOffsetDmaBuf), target.dmaBuf, process⟩ := by
  intro hdma
  have hdma' : mmapOffset ≥ mmapOffsetDmaBuf := by simpa using hdma
  unfold ttResolveMapTarget at h
  rw [if_pos hdma'] at h
  obtain ⟨-, hindex, b, hb, hlength, rfl⟩ := resolveDmaBuf_eq_ok.mp h
  exact ⟨b, FileMemory.mem_bufs.mpr ⟨_, hindex, hb⟩, rfl, hlength, rfl⟩

/-- What `MAP` does to the views. -/
theorem map_records (c : MemoryConfig) (m : MemoryState) (F : Handle) (io : Io) (i : MapIn)
    (env : MapEnv) (process : Process) :
    RecordsAfter m (ttIoctlMap c m F io i { env with process }).mem F (.map io i env) := by
  unfold ttIoctlMap
  split
  · exact .fewer (.refl m)
  split
  · exact .fewer (.refl m)
  split
  · exact .fewer (.refl m)
  rename_i target htarget
  split
  · exact .fewer (.refl m)
  split
  · exact .fewer (.refl m)
  rename_i userVa huserVa
  split
  · exact .fewer (.refl m)
  · exact .mapped (viewBacked_of_resolve htarget) huserVa rfl rfl

/-- What the handlers do to the views and the buffers. -/
theorem handle_records (hok : SlotsOk d.mem.iatu.slots) (caller : Process) (r : Request) :
    RecordsAfter d.mem (handle d F caller r).device.mem F r := by
  by_cases hr : r.creates = false
  · exact .fewer (handle_tearsDown d F caller r hr).fewer
  cases r with
  | allocateDmaBuf io i env =>
    show RecordsAfter d.mem (ttIoctlAllocateDmaBuf d.config d.detached d.mem F io i env).mem F _
    rcases ttIoctlAllocateDmaBuf_cases d.config d.detached F io hok i env with
      (hm | ⟨_, u', _, _, _, hm⟩) | ⟨_, b, u', hall⟩
    · rw [hm]
      exact .fewer (.refl _)
    · rw [hm]
      exact .fewer (.of_file rfl rfl)
    · exact .allocated hall
  | map io i env => exact map_records d.config d.mem F io i env caller
  | pinPages io i env =>
    show RecordsAfter d.mem (ttIoctlPinPages d.config d.detached d.mem F io i env).mem F _
    rcases ttIoctlPinPages_cases d.config d.detached F io hok i env with
      (hm | ⟨_, u', _, _, _, hm⟩) | ⟨_, p, target, u', hpin⟩
    · rw [hm]
      exact .fewer (.refl _)
    · rw [hm]
      exact .fewer (.of_file rfl rfl)
    · rw [hpin.mem]
      refine .fewer (Fewer.trans ?_ (fewer_setFile rfl rfl))
      exact .of_file rfl rfl
  | _ => exact absurd rfl hr

/-- What the requests do to the views and the buffers. -/
theorem dispatch_records (hok : SlotsOk d.mem.iatu.slots) (caller : Process) (r : Request) :
    RecordsAfter d.mem (dispatch d F caller r).device.mem F r := by
  unfold dispatch
  split
  · exact .fewer (.refl _)
  split
  · exact .fewer (.refl _)
  · exact handle_records hok caller r

end Requests

/-! ## Runs -/

/-- The ranges that the operating system hands out lie in the 64-bit address space. -/
def AddressesFit (_ : DeviceContext) : Event → Prop
  | .request _ _ (.allocateDmaBuf _ i env) => ∀ logical physical,
      env.commonBuffer = some (logical, physical) → logical + i.requestedSize ≤ 2 ^ 64
  | .request _ _ (.map _ i env) => ∀ userVa,
      env.userVa = some userVa → userVa + i.length ≤ 2 ^ 64
  | _ => True

/-- The invariant of the views of buffers. -/
structure Backed (d : DeviceContext) : Prop where
  /-- The books agree. -/
  resources : Resources d
  /-- The buffers are known. -/
  known : BufsKnown d.mem
  /-- A view of a buffer begins at its first byte. -/
  backed : ∀ G, ∀ v ∈ (d.mem.file G).mappings, ViewBacked (d.mem.file G) v
  /-- A view lies in the address space. -/
  fits : ∀ G, ∀ v ∈ (d.mem.file G).mappings, v.userVa + v.length ≤ 2 ^ 64

section Runs

variable {d d' : DeviceContext} {F : Handle}

/-- A step that creates nothing keeps the invariant. -/
theorem Backed.fewer (h : Backed d) (hfewer : Fewer d.mem d'.mem) (hres : Resources d') :
    Backed d' where
  resources := hres
  known := h.known.fewer hfewer.bufs hfewer.nextBuf
  backed := fun G v hv hdma => by
    -- the buffer of the view is still there, since the books agree
    obtain ⟨b, hb, hid, hlen⟩ := (hres.books.files G).view v hv hdma
    obtain ⟨b', hb', hid', -, hphysical⟩ := h.backed G v (hfewer.views G v hv) hdma
    have hsame : b'.id = b.id := Option.some.inj (hid'.symm.trans hid)
    obtain rfl := h.known.unique G b' b hb' (hfewer.bufs G b hb) hsame
    exact ⟨b', hb, hid, hlen, hphysical⟩
  fits := fun G v hv => h.fits G v (hfewer.views G v hv)

/-- A new buffer keeps the invariant. -/
theorem Backed.allocated (h : Backed d) {i : AllocateDmaBufIn} {env : DmaBufEnv} {b : DmaBuf}
    {u' : IatuUnit} (hall : Allocated d.mem d'.mem F i env b u')
    (hfit : b.logical + b.size ≤ 2 ^ 64) (hres : Resources d') : Backed d' := by
  have hviews : ∀ G, (d'.mem.file G).mappings = (d.mem.file G).mappings := by
    rw [hall.mem]
    exact MemoryState.setFile_proj FileMemory.mappings rfl
  refine ⟨hres, h.known.allocated hall hfit, ?_, ?_⟩
  · intro G v hv hdma
    obtain ⟨b', hb', href⟩ := h.backed G v (hviews G ▸ hv) hdma
    exact ⟨b', hall.mem_bufs.mpr (.inr hb'), href⟩
  · exact fun G v hv => h.fits G v (hviews G ▸ hv)

/-- A new view keeps the invariant. -/
theorem Backed.mapped (h : Backed d) {v : UserMapping} (hbacked : ViewBacked (d.mem.file F) v)
    (hfit : v.userVa + v.length ≤ 2 ^ 64)
    (hm : d'.mem = d.mem.setFile F { d.mem.file F with
      mappings := (d.mem.file F).mappings ++ [v] }) (hres : Resources d') : Backed d' := by
  have hbufs : ∀ G, (d'.mem.file G).bufs = (d.mem.file G).bufs := by
    rw [hm]
    exact MemoryState.setFile_proj FileMemory.bufs rfl
  have hviews : ∀ G, ∀ u ∈ (d'.mem.file G).mappings,
      u ∈ (d.mem.file G).mappings ∨ (G = F ∧ u = v) := by
    intro G u hu
    rw [hm] at hu
    by_cases hG : G = F
    · subst hG
      rw [MemoryState.setFile_self] at hu
      exact (List.mem_append.mp hu).imp_right fun hnew => ⟨rfl, List.mem_singleton.mp hnew⟩
    · rw [MemoryState.setFile_of_ne hG] at hu
      exact .inl hu
  have hsame : ∀ G u, ViewBacked (d.mem.file G) u → ViewBacked (d'.mem.file G) u := by
    intro G u hu hdma
    rw [hbufs G]
    exact hu hdma
  have hnext : d'.mem.nextBuf = d.mem.nextBuf := by
    rw [hm]
    rfl
  refine ⟨hres, h.known.fewer (fun G _ hb => hbufs G ▸ hb) hnext, ?_, ?_⟩
  · intro G u hu
    rcases hviews G u hu with hold | ⟨rfl, rfl⟩
    · exact hsame G u (h.backed G u hold)
    · exact hsame G u hbacked
  · intro G u hu
    rcases hviews G u hu with hold | ⟨-, rfl⟩
    · exact h.fits G u hold
    · exact hfit

/-- Every step of the device keeps the invariant. -/
theorem Backed.next (h : Backed d) {e : Event} (hfit : AddressesFit d e)
    (hstep : d.next e = some d') : Backed d' := by
  have hres := h.resources.next hstep
  by_cases hreq : ∀ F caller r, e ≠ .request F caller r
  · exact h.fewer (next_tearsDown hstep hreq).fewer hres
  simp only [ne_eq, not_forall, not_not] at hreq
  obtain ⟨F, caller, r, rfl⟩ := hreq
  obtain ⟨-, rfl⟩ := DeviceContext.next_request hstep
  have hrecords := dispatch_records (F := F) h.resources.books.apertures.ok caller r
  cases hrecords with
  | fewer hfewer => exact h.fewer hfewer hres
  | allocated hall =>
    refine h.allocated hall ?_ hres
    have := hfit _ _ hall.memory
    rwa [← hall.size] at this
  | mapped hbacked huserVa hlength hm =>
    refine h.mapped hbacked ?_ hm hres
    have := hfit _ huserVa
    rwa [← hlength] at this

/-- A started device has no views. -/
theorem Backed.started (config : MemoryConfig) (subsysVendorId subsysId : ℕ)
    (needsHwInit : Bool) (regs : Fin 16 → AtuRegs) :
    Backed (.started config subsysVendorId subsysId needsHwInit regs) := by
  have hnone := DeviceContext.notMem_bufs_started config subsysVendorId subsysId needsHwInit regs
  exact ⟨.started config subsysVendorId subsysId needsHwInit regs, .of_none hnone,
    fun G v hv => absurd hv List.not_mem_nil, fun G v hv => absurd hv List.not_mem_nil⟩

end Runs

/-! ## The device address -/

/-- The range `[va, va + size)` lies in the view. -/
def UserMapping.Contains (v : UserMapping) (va size : ℕ) : Prop :=
  v.userVa ≤ va ∧ va + size ≤ v.userVa + v.length

/-- A view of a DMA buffer that contains the range. -/
def ViewOfBuffer (f : FileMemory) (va size : ℕ) : Prop :=
  ∃ v ∈ f.mappings, v.isDmaBuf = true ∧ v.Contains va size

/-- The pinning is backed by the buffer of a view that contains the range: no page is locked,
and byte `k` of the range is the same byte of the buffer for the device and for the CPU. -/
def PinnedThroughView (f : FileMemory) (i : PinPagesIn) (address : ℕ) (p : Pinning) : Prop :=
  ∃ v ∈ f.mappings, ∃ b ∈ f.bufs, v.isDmaBuf = true ∧ v.dmaBuf = some b.id ∧
    v.Contains i.virtualAddress i.size ∧ i.virtualAddress + i.size ≤ 2 ^ 64 ∧
    address = b.logical + (i.virtualAddress - v.userVa) ∧ address + i.size ≤ 2 ^ 64 ∧
    address + i.size ≤ b.logical + b.size ∧
    (∀ k < i.size, ∃ j < b.size, address + k = b.logical + j ∧
      v.physical + (i.virtualAddress + k - v.userVa) = b.physical + j) ∧
    p.mdl = none ∧ p.backingDmaBuf = some b.id

/-- The pinning has locked pages, and their physical address is given to the device. -/
def PinnedRaw (c : MemoryConfig) (address : ℕ) (p : Pinning) : Prop :=
  c.dmaIdentityKnown = true ∧ c.dmaIdentityMapped = true ∧
    ∃ pfn, p.mdl = some pfn ∧ address = pfn * pageSize ∧ p.backingDmaBuf = none

section Address

variable {d : DeviceContext} {F : Handle} {io : Io} {i : PinPagesIn} {env : PinEnv}

/-- The view the search ends at. -/
theorem ttFindDmaBufView_view {f : FileMemory} {va size id offset : ℕ}
    (h : ttFindDmaBufView f va size = some (id, offset)) :
    ∃ v ∈ f.mappings, v.isDmaBuf = true ∧ v.dmaBuf = some id ∧ v.Contains va size ∧
      offset = va - v.userVa := by
  obtain ⟨v, hv, hfound⟩ := List.exists_of_findSome?_eq_some h
  cases hbuf : v.dmaBuf with
  | none => simp [hbuf] at hfound
  | some b =>
    simp only [hbuf] at hfound
    split at hfound
    · rename_i hin
      cases hfound
      exact ⟨v, hv, hin.1, hbuf, ⟨hin.2.1, by omega⟩, rfl⟩
    · cases hfound

/-- The search ends at a view exactly when one contains the range. -/
theorem Backed.find_iff (h : Backed d) (va size : ℕ) :
    (∃ r, ttFindDmaBufView (d.mem.file F) va size = some r) ↔
      ViewOfBuffer (d.mem.file F) va size := by
  constructor
  · rintro ⟨⟨id, offset⟩, hfind⟩
    obtain ⟨v, hv, hdma, -, hin, -⟩ := ttFindDmaBufView_view hfind
    exact ⟨v, hv, hdma, hin⟩
  · rintro ⟨v, hv, hdma, hlo, hhi⟩
    rw [← Option.isSome_iff_exists]
    unfold ttFindDmaBufView
    rw [List.findSome?_isSome_iff]
    obtain ⟨b, -, hbuf, -⟩ := h.backed F v hv hdma
    refine ⟨v, hv, ?_⟩
    simp only [hbuf]
    rw [if_pos ⟨hdma, hlo, by omega, by omega⟩]
    rfl

/-- `PIN_PAGES` goes past the test of the domain when there is a view, or the domain is known
to be identity-mapped. -/
theorem ttIoctlPinPages_domain {c : MemoryConfig} {detached : Bool} {m : MemoryState}
    (hs : (ttIoctlPinPages c detached m F io i env).status = .success)
    (hnone : ttFindDmaBufView (m.file F) i.virtualAddress i.size = none) :
    c.dmaIdentityKnown = true ∧ c.dmaIdentityMapped = true := by
  unfold ttIoctlPinPages at hs
  split at hs
  · rename_i hcheck
    exact absurd hs hcheck
  dsimp only at hs
  split at hs
  · cases hs
  split at hs
  · cases hs
  · rename_i hdomain
    simp only [hnone, true_and, not_or, Bool.not_eq_true', Bool.not_eq_false] at hdomain
    exact hdomain

/-- The record and the answer of a pinning whose aperture could be set up. -/
theorem pinPagesLocked_success {detached : Bool} {m : MemoryState} {backing : Option ℕ}
    {target : ℕ} {mdl : Option ℕ}
    (hs : (pinPagesLocked detached m F io i backing target mdl).status = .success) :
    ∃ nocAddress region,
      (pinPagesLocked detached m F io i backing target mdl).out = some ⟨target, nocAddress⟩ ∧
      ((pinPagesLocked detached m F io i backing target mdl).mem.file F).pinnings =
        (m.file F).pinnings ++ [⟨i.virtualAddress, i.size, mdl, backing, region⟩] := by
  unfold pinPagesLocked at hs ⊢
  dsimp only at hs ⊢
  split at hs
  · rename_i hfails
    exact absurd hs hfails
  rename_i hok
  rw [if_neg hok]
  split at hs
  · cases hs
  rename_i hfits
  rw [if_neg hfits]
  exact ⟨_, _, rfl, congrArg FileMemory.pinnings (MemoryState.setFile_self _)⟩

/-- The address of a range in a view is that of its bytes in the buffer. -/
theorem Backed.pinnedThroughView (h : Backed d) {id offset : ℕ} {p : Pinning}
    (hfind : ttFindDmaBufView (d.mem.file F) i.virtualAddress i.size = some (id, offset))
    (hmdl : p.mdl = none) (hback : p.backingDmaBuf = some id) :
    PinnedThroughView (d.mem.file F) i
      (((d.mem.file F).findBuf id).elim 0 (·.logical) + offset) p := by
  obtain ⟨v, hv, hdma, hbuf, ⟨hlo, hhi⟩, rfl⟩ := ttFindDmaBufView_view hfind
  obtain ⟨b, hb, hid, hlength, hphysical⟩ := h.backed F v hv hdma
  obtain rfl : id = b.id := Option.some.inj (hbuf.symm.trans hid)
  have hfound : (d.mem.file F).findBuf b.id = some b :=
    FileMemory.findBuf_eq hb fun b' hb' hsame => h.known.unique F b' b hb' hb hsame
  have hbus := h.known.fits F b hb
  have hview := h.fits F v hv
  rw [hfound]
  refine ⟨v, hv, b, hb, hdma, hid, ⟨hlo, hhi⟩, by omega, rfl, ?_, ?_, ?_, hmdl, hback⟩
  · show b.logical + (i.virtualAddress - v.userVa) + i.size ≤ 2 ^ 64
    omega
  · show b.logical + (i.virtualAddress - v.userVa) + i.size ≤ b.logical + b.size
    omega
  · intro k hk
    refine ⟨i.virtualAddress - v.userVa + k, by omega, ?_, by omega⟩
    show b.logical + (i.virtualAddress - v.userVa) + k = _
    omega

/-- In every run of the device, a view of a buffer is found exactly when one contains the
range; and a successful `PIN_PAGES` adds one pinning, which is backed by the buffer of such a
view, or there is none and the locked pages are given to a device whose DMA domain is known
to be identity-mapped. -/
theorem backed_pin_address {config : MemoryConfig} {subsysVendorId subsysId : ℕ}
    {needsHwInit : Bool} {regs : Fin 16 → AtuRegs} {es : List Event}
    (hrun : Run (restrict (partialGraph DeviceContext.next) AddressesFit)
      (.started config subsysVendorId subsysId needsHwInit regs) es d) (F : Handle) :
    (∀ va size, (∃ r, ttFindDmaBufView (d.mem.file F) va size = some r) ↔
      ViewOfBuffer (d.mem.file F) va size) ∧
    ∀ io i env, (ttIoctlPinPages d.config d.detached d.mem F io i env).status = .success →
      ∃ out p, (ttIoctlPinPages d.config d.detached d.mem F io i env).out = some out ∧
        ((ttIoctlPinPages d.config d.detached d.mem F io i env).mem.file F).pinnings =
          (d.mem.file F).pinnings ++ [p] ∧
        p.virtualAddress = i.virtualAddress ∧ p.size = i.size ∧
        (PinnedThroughView (d.mem.file F) i out.physicalAddress p ∨
          ¬ViewOfBuffer (d.mem.file F) i.virtualAddress i.size ∧
            PinnedRaw d.config out.physicalAddress p) := by
  have h : Backed d := hrun.invariant (fun _ _ _ h hstep => h.next hstep.1 hstep.2)
    (.started config subsysVendorId subsysId needsHwInit regs)
  refine ⟨fun va size => h.find_iff va size, ?_⟩
  intro io i env hs
  obtain ⟨-, target, mdl, htarget, hreply⟩ := ttIoctlPinPages_of_success hs
  have hlocked := hs
  rw [hreply] at hlocked
  obtain ⟨nocAddress, region, hout, hpinnings⟩ := pinPagesLocked_success hlocked
  rw [hreply]
  refine ⟨_, _, hout, hpinnings, rfl, rfl, ?_⟩
  cases hfind : ttFindDmaBufView (d.mem.file F) i.virtualAddress i.size with
  | some view =>
    obtain ⟨id, offset⟩ := view
    rw [hfind] at htarget
    cases htarget
    exact .inl (h.pinnedThroughView hfind rfl rfl)
  | none =>
    obtain ⟨hknown, hmapped⟩ := ttIoctlPinPages_domain hs hfind
    rcases pinPagesTarget_cases htarget region with ⟨-, id, offset, -, hview, -⟩ |
      ⟨-, -, pfns, -, hmdl, haddress⟩
    · rw [hfind] at hview
      cases hview
    · refine .inr ⟨fun hview => ?_, hknown, hmapped, _, hmdl, haddress, rfl⟩
      obtain ⟨r, hr⟩ := (h.find_iff i.virtualAddress i.size).mpr hview
      rw [hfind] at hr
      cases hr

end Address

/-- A buffer of two pages, and a view of it. -/
def viewedBuffer : List Event :=
  [.create 7,
   .request 0 7 (.allocateDmaBuf ⟨24, 64⟩ ⟨8192, 3, false⟩ ⟨some (0x10000, 0x30000), true⟩),
   .request 0 7 (.map ⟨16, 24⟩ ⟨mmapOffsetDmaBuf + 3 * 2 ^ 32, 8192⟩ ⟨true, true, some 0x5000, 7⟩)]

/-- The pinning of the second page of that view. -/
def secondPage : PinPagesIn := ⟨16, 0, 0x6000, 4096⟩

/-- It is pinned at the second page of the buffer. -/
theorem backed_pin_address_viewedBuffer :
    ∃ d out p, Run (restrict (partialGraph DeviceContext.next) AddressesFit)
        (.started blackholeConfig 0 0 false fun _ _ => 0) viewedBuffer d ∧
      (ttIoctlPinPages d.config d.detached d.mem 0 ⟨24, 40⟩ secondPage ⟨true, true, none⟩).out =
        some out ∧ out.physicalAddress = 0x11000 ∧
      PinnedThroughView (d.mem.file 0) secondPage out.physicalAddress p := by
  have hrun : Run (restrict (partialGraph DeviceContext.next) AddressesFit)
      (.started blackholeConfig 0 0 false fun _ _ => 0) viewedBuffer _ :=
    .cons ⟨trivial, rfl⟩
      (.cons ⟨fun _ _ hbuf => (by cases hbuf; decide), rfl⟩
        (.cons ⟨fun _ hva => (by cases hva; decide), rfl⟩ (.nil _)))
  obtain ⟨hfound, hpin⟩ := backed_pin_address hrun 0
  obtain ⟨out, p, hout, -, -, -, hthrough | ⟨hnone, -⟩⟩ :=
    hpin ⟨24, 40⟩ secondPage ⟨true, true, none⟩ rfl
  · refine ⟨_, out, p, hrun, hout, ?_, hthrough⟩
    cases hout
    rfl
  · exact absurd ((hfound secondPage.virtualAddress secondPage.size).mp ⟨(0, 0x1000), rfl⟩) hnone

end TtKmd
