import TtKmd.Device.Generation
import TtKmd.Device.Resources
import TtKmd.Iatu.Mirror

/-!
# Teardown

Requests, the exit of a process, a close and a reset take records away in the same few
steps: a record of a handle goes, a region is torn down, a window is released. `TearsDown`
says once what all of them do to the records and to the regions.
-/

namespace TtKmd

open Lib

/-- A step that takes records away and creates none. An attached device gives regions up;
a detached one keeps what its registers hold. -/
structure TearsDown (detached : Bool) (m m' : MemoryState) : Prop where
  /-- The regions of an attached device. -/
  regions : detached = false → GivesUp m.iatu m'.iatu
  /-- There is no new view. -/
  views : ∀ G v, v ∈ (m'.file G).mappings → v ∈ (m.file G).mappings
  /-- There is no new buffer. -/
  bufs : ∀ G b, b ∈ (m'.file G).bufs → b ∈ (m.file G).bufs
  /-- There is no new pinning. -/
  pinnings : ∀ G p, p ∈ (m'.file G).pinnings → p ∈ (m.file G).pinnings
  /-- The counter of identities. -/
  nextBuf : m'.nextBuf = m.nextBuf

section TearsDown

variable {detached : Bool} {m m' m'' : MemoryState} {F : Handle}

/-- Nothing happened. -/
theorem TearsDown.refl (m : MemoryState) : TearsDown detached m m :=
  ⟨fun _ => .refl _, fun _ _ hv => hv, fun _ _ hb => hb, fun _ _ hp => hp, rfl⟩

/-- One step after another. -/
theorem TearsDown.trans (h : TearsDown detached m m') (h' : TearsDown detached m' m'') :
    TearsDown detached m m'' where
  regions := fun hdet => (h.regions hdet).trans (h'.regions hdet)
  views := fun G v hv => h.views G v (h'.views G v hv)
  bufs := fun G b hb => h.bufs G b (h'.bufs G b hb)
  pinnings := fun G p hp => h.pinnings G p (h'.pinnings G p hp)
  nextBuf := h'.nextBuf.trans h.nextBuf

/-- What no record names does not matter. -/
theorem TearsDown.of_file (hfile : m'.file = m.file) (hiatu : m'.iatu = m.iatu)
    (hnext : m'.nextBuf = m.nextBuf) : TearsDown detached m m' where
  regions := fun _ => by
    rw [hiatu]
    exact .refl _
  views := fun _ _ hv => hfile ▸ hv
  bufs := fun _ _ hb => hfile ▸ hb
  pinnings := fun _ _ hp => hfile ▸ hp
  nextBuf := hnext

/-- Records of one handle go. -/
theorem tearsDown_setFile {f : FileMemory} (hviews : f.mappings ⊆ (m.file F).mappings)
    (hbufs : f.bufs ⊆ (m.file F).bufs) (hpins : f.pinnings ⊆ (m.file F).pinnings) :
    TearsDown detached m (m.setFile F f) := by
  refine ⟨fun _ => .refl _, fun G => ?_, fun G => ?_, fun G => ?_, rfl⟩ <;>
    by_cases hG : G = F
  all_goals first
    | subst hG
      rw [MemoryState.setFile_self]
      assumption
    | rw [MemoryState.setFile_of_ne hG]
      exact fun _ h => h

/-- A region goes. -/
theorem tearsDown_region (m : MemoryState) (region : Option (Fin 16)) :
    TearsDown detached m { m with iatu := ttTeardownNocDma detached m.iatu region } where
  regions := fun hdet => by
    rw [hdet]
    exact givesUp_teardown m.iatu region
  views := fun _ _ hv => hv
  bufs := fun _ _ hb => hb
  pinnings := fun _ _ hp => hp
  nextBuf := rfl

/-- A buffer goes, with its region. -/
theorem tearsDown_destroy {i : ℕ} (b : DmaBuf) :
    TearsDown detached m (ttDmaBufDestroy detached (m.setFile F { m.file F with
      dmaBufs := Function.update (m.file F).dmaBufs i none }) b) := by
  have hslots : TearsDown detached m (m.setFile F { m.file F with
      dmaBufs := Function.update (m.file F).dmaBufs i none }) := by
    refine tearsDown_setFile (List.Subset.refl _) (fun b' hb' => ?_) (List.Subset.refl _)
    obtain ⟨j, hj, hslot⟩ := FileMemory.mem_bufs.mp hb'
    by_cases hji : j = i
    · subst hji
      simp at hslot
    · exact FileMemory.mem_bufs.mpr ⟨j, hj, by simpa [hji] using hslot⟩
  have hdown := hslots.trans (tearsDown_region _ b.iatuRegion)
  exact ⟨hdown.regions, hdown.views, hdown.bufs, hdown.pinnings, hdown.nextBuf⟩

/-- Pinnings are torn down one after another. -/
theorem tearsDown_destroyPinnings (ps : List Pinning) (m : MemoryState) :
    TearsDown detached m (ps.foldl (ttDestroyPinning detached) m) := by
  induction ps generalizing m with
  | nil => exact .refl m
  | cons p ps ih =>
    rw [List.foldl_cons]
    exact (tearsDown_region m p.iatuRegion).trans (ih _)

/-- `TtMemoryProcessExit` tears down. -/
theorem tearsDown_processExit (m : MemoryState) (F : Handle) :
    TearsDown detached m (ttMemoryProcessExit detached m F) := by
  have hunlink : TearsDown detached m
      (m.setFile F { m.file F with mappings := [], pinnings := [] }) :=
    tearsDown_setFile (List.nil_subset _) (List.Subset.refl _) (List.nil_subset _)
  exact hunlink.trans (tearsDown_destroyPinnings _ _)

/-- The rounds of `TtProcessNotify` tear down. -/
theorem tearsDown_processExits (Fs : List Handle) (m : MemoryState) :
    TearsDown detached m (Fs.foldl (ttMemoryProcessExit detached) m) := by
  induction Fs generalizing m with
  | nil => exact .refl m
  | cons F Fs ih =>
    rw [List.foldl_cons]
    exact (tearsDown_processExit m F).trans (ih _)

/-- The rounds over the slots tear down. -/
theorem tearsDown_cleanupDmaBufs (slots : List ℕ) (m : MemoryState) (F : Handle) :
    TearsDown detached m (slots.foldl (cleanupDmaBuf detached F) m) := by
  induction slots generalizing m with
  | nil => exact .refl m
  | cons i slots ih =>
    rw [List.foldl_cons]
    rcases cleanupDmaBuf_cases detached m F i with ⟨_, hm⟩ | ⟨b, _, hm⟩
    · rw [hm]
      exact ih m
    · rw [hm]
      exact (tearsDown_destroy b).trans (ih _)

/-- `TtMemoryFileCleanup` tears down. -/
theorem tearsDown_fileCleanup (m : MemoryState) (F : Handle) :
    TearsDown detached m (ttMemoryFileCleanup detached m F) := by
  have hsection : TearsDown detached m (cleanupFileSection detached m F) :=
    (tearsDown_processExit m F).trans (tearsDown_cleanupDmaBufs _ _ F)
  have hwindows : ∀ m, TearsDown detached m (cleanupTlbSection m F) :=
    fun m => .of_file rfl rfl rfl
  exact hsection.trans (hwindows _)

/-- `TtResetZapMappings` tears down. -/
theorem tearsDown_zap (m : MemoryState) (fileList : List Handle) :
    TearsDown detached m (ttResetZapMappings m fileList) := by
  unfold ttResetZapMappings
  induction fileList generalizing m with
  | nil => exact .refl m
  | cons F rest ih =>
    rw [List.foldl_cons]
    refine TearsDown.trans ?_ (ih _)
    exact tearsDown_setFile (fun v hv => List.mem_of_mem_filter hv) (List.Subset.refl _)
      (List.Subset.refl _)

end TearsDown

section Requests

variable {d d' : DeviceContext}

/-- The requests that create a record. -/
def Request.creates : Request → Bool
  | .allocateDmaBuf .. => true
  | .map .. => true
  | .pinPages .. => true
  | _ => false

/-- The handlers of the other requests tear down. -/
theorem handle_tearsDown (d : DeviceContext) (F : Handle) (caller : Process) (r : Request)
    (hr : r.creates = false) :
    TearsDown d.detached d.mem (handle d F caller r).device.mem := by
  cases r with
  | allocateDmaBuf | map | pinPages => cases hr
  | freeDmaBufEx io i =>
    show TearsDown _ d.mem (ttIoctlFreeDmaBufEx d.detached d.mem F io i).mem
    rcases ttIoctlFreeDmaBufEx_cases d.detached d.mem F io i with ⟨_, hm⟩ | ⟨_, b, _, _, _, hm⟩
    · rw [hm]
      exact .refl _
    · rw [hm]
      exact tearsDown_destroy b
  | allocateTlb io size =>
    obtain ⟨used, owner, hm⟩ := ttIoctlAllocateTlb_windows d.config d.mem F io size
    show TearsDown _ d.mem (ttIoctlAllocateTlb d.config d.mem F io size).mem
    rw [hm]
    exact .of_file rfl rfl rfl
  | freeTlb io id =>
    obtain ⟨used, owner, hm⟩ := ttIoctlFreeTlb_windows d.mem F io id
    show TearsDown _ d.mem (ttIoctlFreeTlb d.mem F io id).mem
    rw [hm]
    exact .of_file rfl rfl rfl
  | unmap io userVa reserved =>
    show TearsDown _ d.mem (ttIoctlUnmap d.mem F io userVa reserved).mem
    rcases ttIoctlUnmap_mem d.mem F io userVa reserved with hm | hm
    · rw [hm]
      exact .refl _
    rw [hm]
    rcases unmapSection_cases (m := d.mem) (F := F) userVa with hs | ⟨v, l, hperm, hs⟩
    · rw [hs]
      exact .refl _
    · rw [hs]
      exact tearsDown_setFile (fun w hw => hperm.mem_iff.mpr (List.mem_cons_of_mem _ hw))
        (List.Subset.refl _) (List.Subset.refl _)
  | unpinPages io i =>
    show TearsDown _ d.mem (ttIoctlUnpinPages d.detached d.mem F io i).mem
    rcases ttIoctlUnpinPages_mem d.detached d.mem F io i with hm | ⟨p, _, hm⟩
    · rw [hm]
      exact .refl _
    rw [hm]
    refine TearsDown.trans ?_ (tearsDown_region _ p.iatuRegion)
    rcases unpinSection_cases (m := d.mem) (F := F) i with hs | ⟨q, l, hperm, hs⟩
    · rw [hs]
      exact .refl _
    · rw [hs]
      exact tearsDown_setFile (List.Subset.refl _) (List.Subset.refl _)
        fun q' hq' => hperm.mem_iff.mpr (List.mem_cons_of_mem _ hq')
  | lockCtl io i env => exact .refl _
  | resetDevice io i env =>
    rcases ttIoctlResetDevice_cases d F io i env with ⟨_, hd' | hd' | hd'⟩ | ⟨_, hw, hd'⟩
    · rw [TtKmd.handle, hd']
      exact .refl _
    · rw [TtKmd.handle, hd']
      exact tearsDown_zap _ _
    · rw [TtKmd.handle, hd']
      exact .refl _
    · rw [TtKmd.handle, hd']
      exact tearsDown_zap _ _
  | other nr status => exact .refl _

/-- A step other than a request tears down. -/
theorem next_tearsDown {e : Event} (hstep : d.next e = some d')
    (hreq : ∀ F caller r, e ≠ .request F caller r) : TearsDown d.detached d.mem d'.mem := by
  cases e with
  | create opener =>
    cases hstep
    exact .refl _
  | request F caller r => exact absurd rfl (hreq F caller r)
  | cleanup F =>
    obtain ⟨_, rfl⟩ := DeviceContext.next_cleanup hstep
    exact tearsDown_fileCleanup d.mem F
  | processExit process =>
    cases hstep
    exact tearsDown_processExits _ d.mem
  | surpriseRemoval =>
    cases hstep
    exact tearsDown_zap d.mem d.fileList
  | cancel k =>
    cases hstep
    exact .refl _

end Requests

end TtKmd
