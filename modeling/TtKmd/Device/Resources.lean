import TtKmd.Device.Context
import TtKmd.Memory.Bookkeeping
import TtKmd.Lib.Runs

/-!
# Resource accounting over whole runs

Every run of a started device keeps the books: each used outbound region belongs to
one record of one handle, the references between records stay inside a handle, the
count of buffer bytes is exact, and a closed handle has nothing left. The entry
points are steps here; the requests may fail wherever they can fail.
-/

namespace TtKmd

open Lib

/-- The invariant of the entry points. -/
structure Resources (d : DeviceContext) : Prop where
  /-- The books agree. -/
  books : Bookkeeping d.nextFile (fun _ => []) d.mem
  /-- The file list has the open handles. -/
  listed : ∀ F, F ∈ d.fileList ↔ d.isOpen F = true
  /-- No handle is listed twice. -/
  nodup : d.fileList.Nodup
  /-- A closed handle was open once. -/
  known : ∀ F, d.closed F = true → F < d.nextFile
  /-- A closed handle has nothing. -/
  gone : ∀ F, d.closed F = true → (d.mem.file F).Empty

section Steps

variable {d : DeviceContext} {F : Handle}

/-- The open handles. -/
theorem DeviceContext.isOpen_iff : d.isOpen F = true ↔ F < d.nextFile ∧ d.closed F = false := by
  simp only [DeviceContext.isOpen, Bool.and_eq_true, decide_eq_true_eq, Bool.not_eq_true']

/-- An open handle has a number below the next one. -/
theorem DeviceContext.lt_of_isOpen (h : d.isOpen F = true) : F < d.nextFile :=
  (DeviceContext.isOpen_iff.mp h).1

/-- An open handle is not closed. -/
theorem DeviceContext.not_closed_of_isOpen (h : d.isOpen F = true) : d.closed F = false :=
  (DeviceContext.isOpen_iff.mp h).2

/-- A closed handle and an open one are different. -/
theorem DeviceContext.ne_of_closed {G : Handle} (hopen : d.isOpen F = true)
    (hG : d.closed G = true) : G ≠ F := by
  rintro rfl
  rw [DeviceContext.not_closed_of_isOpen hopen] at hG
  cases hG

/-- A started device. -/
theorem Resources.started (config : MemoryConfig) (subsysVendorId subsysId : ℕ)
    (needsHwInit : Bool) (regs : Fin 16 → AtuRegs) :
    Resources (.started config subsysVendorId subsysId needsHwInit regs) where
  books := Bookkeeping.started config regs
  listed := fun F => by simp [DeviceContext.started, DeviceContext.isOpen]
  nodup := List.nodup_nil
  known := fun F hF => by cases hF
  gone := fun F hF => by cases hF

/-- A change of the memory by an open handle. -/
theorem Resources.withMem (h : Resources d) (hopen : d.isOpen F = true) {m : MemoryState}
    (hbooks : Bookkeeping d.nextFile (fun _ => []) m) (hothers : OthersKept d.mem m F) :
    Resources { d with mem := m } where
  books := hbooks
  listed := h.listed
  nodup := h.nodup
  known := h.known
  gone := fun G hG => by
    rw [hothers G (DeviceContext.ne_of_closed hopen hG)]
    exact h.gone G hG

/-- A change of the locks, of the generation, of the flags. -/
theorem Resources.congr (h : Resources d) {d' : DeviceContext} (hmem : d'.mem = d.mem)
    (hlist : d'.fileList = d.fileList) (hnext : d'.nextFile = d.nextFile)
    (hclosed : d'.closed = d.closed) : Resources d' where
  books := by
    rw [hmem, hnext]
    exact h.books
  listed := fun F => by
    rw [hlist, h.listed, DeviceContext.isOpen, DeviceContext.isOpen, hnext, hclosed]
  nodup := by
    rw [hlist]
    exact h.nodup
  known := by
    rw [hclosed, hnext]
    exact h.known
  gone := by
    rw [hclosed, hmem]
    exact h.gone

/-- An empty handle stays empty through the rounds of `TtResetZapMappings`. -/
theorem FileMemory.Empty.zapAll {m : MemoryState} (fileList : List Handle)
    (h : (m.file F).Empty) : ((ttResetZapMappings m fileList).file F).Empty := by
  induction fileList generalizing m with
  | nil => exact h
  | cons G rest ih =>
    refine ih (m := zapFile m G) ?_
    by_cases hG : F = G
    · subst hG
      rw [zapFile, MemoryState.setFile_self]
      exact ⟨by rw [h.mappings]; rfl, h.pinnings, h.bufs⟩
    · rw [zapFile, MemoryState.setFile_of_ne hG]
      exact h

/-- `TtResetZapMappings` keeps the invariant. -/
theorem Resources.zap (h : Resources d) : Resources d.zap where
  books := h.books.zapAll fun F hF => DeviceContext.lt_of_isOpen ((h.listed F).mp hF)
  listed := h.listed
  nodup := h.nodup
  known := h.known
  gone := fun F hF => (h.gone F hF).zapAll d.fileList

/-- `RESET_DEVICE` keeps the invariant. -/
theorem Resources.resetDevice (h : Resources d) (io : Io) (i : ResetIn) (env : ResetEnv) :
    Resources (ttIoctlResetDevice d F io i env).device := by
  rcases ttIoctlResetDevice_cases d F io i env with ⟨_, hd' | hd' | hd'⟩ | ⟨_, hw, hd'⟩
  · rw [hd']
    exact h
  · rw [hd']
    exact h.zap
  · rw [hd']
    exact h.congr rfl rfl rfl rfl
  · rw [hd']
    have hbump : Resources (ttBumpResetGen d F) := h.congr rfl rfl rfl rfl
    exact hbump.zap.congr rfl rfl rfl rfl

/-- A handler other than that of `RESET_DEVICE` touches the records of its own handle. -/
theorem Resources.othersKept (h : Resources d) (caller : Process) {r : Request}
    (hreset : ∀ io i env, r ≠ .resetDevice io i env) :
    OthersKept d.mem (handle d F caller r).device.mem F := by
  have hok := h.books.apertures.ok
  cases r with
  | allocateDmaBuf io i env => exact othersKept_allocateDmaBuf hok i env
  | freeDmaBufEx io i => exact othersKept_freeDmaBufEx i
  | allocateTlb io size =>
    obtain ⟨used, owner, hm⟩ := ttIoctlAllocateTlb_windows d.config d.mem F io size
    show OthersKept d.mem (ttIoctlAllocateTlb d.config d.mem F io size).mem F
    rw [hm]
    exact fun _ _ => rfl
  | freeTlb io id =>
    obtain ⟨used, owner, hm⟩ := ttIoctlFreeTlb_windows d.mem F io id
    show OthersKept d.mem (ttIoctlFreeTlb d.mem F io id).mem F
    rw [hm]
    exact fun _ _ => rfl
  | map io i env => exact othersKept_map i _
  | unmap io userVa reserved =>
    show OthersKept d.mem (ttIoctlUnmap d.mem F io userVa reserved).mem F
    rcases ttIoctlUnmap_mem d.mem F io userVa reserved with hm | hm
    · rw [hm]
      exact fun _ _ => rfl
    · rw [hm]
      exact othersKept_unmapSection userVa
  | pinPages io i env => exact othersKept_pinPages hok i env
  | unpinPages io i =>
    show OthersKept d.mem (ttIoctlUnpinPages d.detached d.mem F io i).mem F
    rcases ttIoctlUnpinPages_mem d.detached d.mem F io i with hm | ⟨p, _, hm⟩
    · rw [hm]
      exact fun _ _ => rfl
    · rw [hm]
      exact othersKept_unpinSection i
  | lockCtl io i env => exact fun _ _ => rfl
  | resetDevice io i env => exact absurd rfl (hreset io i env)
  | other nr status => exact fun _ _ => rfl

/-- Every handler keeps the invariant. -/
theorem Resources.handle (h : Resources d) (hopen : d.isOpen F = true) (caller : Process)
    (r : Request) : Resources (handle d F caller r).device := by
  have hF := DeviceContext.lt_of_isOpen hopen
  have hothers := fun hreset => h.othersKept (F := F) caller (r := r) hreset
  cases r with
  | allocateDmaBuf io i env =>
    exact h.withMem hopen (h.books.allocateDmaBuf hF i env) (hothers nofun)
  | freeDmaBufEx io i => exact h.withMem hopen (h.books.freeDmaBufEx hF i) (hothers nofun)
  | allocateTlb io size =>
    obtain ⟨used, owner, hm⟩ := ttIoctlAllocateTlb_windows d.config d.mem F io size
    exact h.withMem hopen (hm ▸ h.books.windows used owner) (hothers nofun)
  | freeTlb io id =>
    obtain ⟨used, owner, hm⟩ := ttIoctlFreeTlb_windows d.mem F io id
    exact h.withMem hopen (hm ▸ h.books.windows used owner) (hothers nofun)
  | map io i env => exact h.withMem hopen (h.books.map hF i _) (hothers nofun)
  | unmap io userVa reserved =>
    exact h.withMem hopen (h.books.unmap hF userVa reserved) (hothers nofun)
  | pinPages io i env => exact h.withMem hopen (h.books.pinPages hF i env) (hothers nofun)
  | unpinPages io i => exact h.withMem hopen (h.books.unpinPages hF i) (hothers nofun)
  | lockCtl io i env => exact h.congr rfl rfl rfl rfl
  | resetDevice io i env => exact h.resetDevice io i env
  | other nr status => exact h

/-- Every request keeps the invariant. -/
theorem Resources.dispatch (h : Resources d) (hopen : d.isOpen F = true) (caller : Process)
    (r : Request) : Resources (dispatch d F caller r).device := by
  unfold TtKmd.dispatch
  split
  · exact h
  split
  · exact h
  · exact h.handle hopen caller r

/-- The handles that are open after a create. -/
theorem isOpen_create (d : DeviceContext) (opener : Process) (F : Handle)
    (hfresh : d.closed d.nextFile = false) :
    (ttEvtDeviceFileCreate d opener).isOpen F = true ↔ d.isOpen F = true ∨ F = d.nextFile := by
  rw [DeviceContext.isOpen_iff, DeviceContext.isOpen_iff]
  constructor
  · rintro ⟨hlt, hcl⟩
    by_cases hF : F = d.nextFile
    · exact .inr hF
    · exact .inl ⟨lt_of_le_of_ne (Nat.lt_succ_iff.mp hlt) hF, hcl⟩
  · rintro (⟨hlt, hcl⟩ | rfl)
    · exact ⟨Nat.lt_succ_of_lt hlt, hcl⟩
    · exact ⟨Nat.lt_succ_self _, hfresh⟩

/-- The next file object was never closed. -/
theorem Resources.fresh (h : Resources d) : d.closed d.nextFile = false := by
  by_contra hcl
  exact lt_irrefl _ (h.known _ (Bool.not_eq_false _ ▸ hcl))

/-- A create keeps the invariant. -/
theorem Resources.create (h : Resources d) (opener : Process) :
    Resources (ttEvtDeviceFileCreate d opener) where
  books := h.books.create
  listed := fun F => by
    rw [isOpen_create d opener F h.fresh, ← h.listed F]
    simp [ttEvtDeviceFileCreate]
  nodup := by
    have hnot : d.nextFile ∉ d.fileList := fun hmem =>
      lt_irrefl _ (DeviceContext.lt_of_isOpen ((h.listed _).mp hmem))
    exact List.nodup_append.mpr ⟨h.nodup, List.nodup_singleton _, fun a ha b hb hab => by
      rw [List.mem_singleton.mp hb] at hab
      exact hnot (hab ▸ ha)⟩
  known := fun F hF => Nat.lt_succ_of_lt (h.known F hF)
  gone := h.gone

/-- The handles that are open after a cleanup. -/
theorem isOpen_cleanup (d : DeviceContext) (F G : Handle) :
    (ttEvtFileCleanup d F).isOpen G = true ↔ d.isOpen G = true ∧ G ≠ F := by
  rw [DeviceContext.isOpen_iff, DeviceContext.isOpen_iff]
  show G < d.nextFile ∧ Function.update d.closed F true G = false ↔ _
  by_cases hG : G = F
  · subst hG
    simp
  · rw [Function.update_of_ne hG]
    simp [hG]

/-- The handles that are closed after a cleanup. -/
theorem closed_cleanup {G : Handle} (hG : (ttEvtFileCleanup d F).closed G = true) :
    G = F ∨ d.closed G = true := by
  by_cases hGF : G = F
  · exact .inl hGF
  · exact .inr ((Function.update_of_ne hGF _ _).symm.trans hG)

/-- `TtMemoryFileCleanup` empties its handle and leaves the others alone. -/
theorem Bookkeeping.fileCleanup_files {n : ℕ} {extra : Handle → List (Fin 16)} {m : MemoryState}
    (h : Bookkeeping n extra m) (detached : Bool) (hF : F < n) :
    ((ttMemoryFileCleanup detached m F).file F).Empty ∧
      OthersKept m (ttMemoryFileCleanup detached m F) F := by
  obtain ⟨_, hempty, hothers, _⟩ := h.drain detached hF
  have hfile : (ttMemoryFileCleanup detached m F).file =
      (cleanupFileSection detached m F).file := by
    rw [ttMemoryFileCleanup, cleanupTlbSection]
  refine ⟨?_, ?_⟩
  · rw [hfile]
    exact hempty
  · intro G hG
    rw [hfile, hothers G hG]

/-- A cleanup keeps the invariant. -/
theorem Resources.cleanup (h : Resources d) (hopen : d.isOpen F = true) :
    Resources (ttEvtFileCleanup d F) := by
  have hF := DeviceContext.lt_of_isOpen hopen
  obtain ⟨hempty, hothers⟩ := h.books.fileCleanup_files d.detached hF
  refine ⟨h.books.fileCleanup hF, ?_, h.nodup.erase F, ?_, ?_⟩
  · intro G
    rw [isOpen_cleanup, ← h.listed G]
    exact (h.nodup.mem_erase_iff).trans and_comm
  · intro G hG
    rcases closed_cleanup hG with rfl | hcl
    · exact hF
    · exact h.known G hcl
  · intro G hG
    show FileMemory.Empty ((ttMemoryFileCleanup d.detached d.mem F).file G)
    rcases closed_cleanup hG with rfl | hcl
    · exact hempty
    · rw [hothers G (DeviceContext.ne_of_closed hopen hcl)]
      exact h.gone G hcl

/-- The rounds of `TtProcessNotify` keep the books and the handles they leave out. -/
theorem Bookkeeping.processExits {n : ℕ} {extra : Handle → List (Fin 16)} {m : MemoryState}
    (h : Bookkeeping n extra m) (detached : Bool) (Fs : List Handle) (hFs : ∀ F ∈ Fs, F < n) :
    Bookkeeping n extra (Fs.foldl (ttMemoryProcessExit detached) m) ∧
      ∀ G, G ∉ Fs → (Fs.foldl (ttMemoryProcessExit detached) m).file G = m.file G := by
  induction Fs generalizing m with
  | nil => exact ⟨h, fun _ _ => rfl⟩
  | cons F Fs ih =>
    have hone := h.processExit detached (hFs F (List.mem_cons_self ..))
    obtain ⟨hbooks, hkept⟩ := ih hone (fun G hG => hFs G (List.mem_cons_of_mem _ hG))
    refine ⟨hbooks, ?_⟩
    intro G hG
    obtain ⟨hGF, hGFs⟩ := List.ne_and_not_mem_of_not_mem_cons hG
    obtain ⟨u', hu'⟩ := ttMemoryProcessExit_eq detached m F
    rw [List.foldl_cons, hkept G hGFs, hu']
    exact MemoryState.setFile_of_ne hGF _

/-- A process exit keeps the invariant. -/
theorem Resources.processNotify (h : Resources d) (process : Process) :
    Resources (ttProcessNotify d process) := by
  obtain ⟨hbooks, hkept⟩ := h.books.processExits d.detached
    (d.fileList.filter fun F => d.creatorProcess F == process)
    (fun F hF => DeviceContext.lt_of_isOpen ((h.listed F).mp (List.mem_of_mem_filter hF)))
  refine ⟨hbooks, h.listed, h.nodup, h.known, ?_⟩
  intro G hG
  show FileMemory.Empty ((List.foldl (ttMemoryProcessExit d.detached) d.mem _).file G)
  rw [hkept G ?_]
  · exact h.gone G hG
  · intro hmem
    exact DeviceContext.ne_of_closed ((h.listed G).mp (List.mem_of_mem_filter hmem)) hG rfl

/-- Every step of the device keeps the invariant. -/
theorem Resources.next (h : Resources d) {e : Event} {d' : DeviceContext}
    (hstep : d.next e = some d') : Resources d' := by
  cases e with
  | create opener =>
    cases hstep
    exact h.create opener
  | request F caller r =>
    obtain ⟨hopen, rfl⟩ := DeviceContext.next_request hstep
    exact h.dispatch hopen caller r
  | cleanup F =>
    obtain ⟨hopen, rfl⟩ := DeviceContext.next_cleanup hstep
    exact h.cleanup hopen
  | processExit process =>
    cases hstep
    exact h.processNotify process
  | surpriseRemoval =>
    cases hstep
    have hgone : Resources { d with detached := true } := h.congr rfl rfl rfl rfl
    exact hgone.zap.congr rfl rfl rfl rfl
  | cancel k =>
    cases hstep
    exact h.congr rfl rfl rfl rfl

/-- Every run of a started device keeps the invariant. -/
theorem Resources.run {config : MemoryConfig} {subsysVendorId subsysId : ℕ} {needsHwInit : Bool}
    {regs : Fin 16 → AtuRegs} {es : List Event}
    (hrun : Run (partialGraph DeviceContext.next)
      (.started config subsysVendorId subsysId needsHwInit regs) es d) : Resources d :=
  hrun.invariant (fun _ _ _ h hstep => h.next hstep)
    (Resources.started config subsysVendorId subsysId needsHwInit regs)

end Steps

/-- The regions named by all records of all handles, one entry for each record that
names one. -/
def DeviceContext.namedRegions (d : DeviceContext) : List (Fin 16) :=
  (List.range d.nextFile).flatMap fun F => (d.mem.file F).regions

/-- What the accounting promises. -/
structure Accounted (d : DeviceContext) : Prop where
  /-- No region is named by two records. -/
  namedOnce : d.namedRegions.Nodup
  /-- The named regions are the used ones. -/
  named : ∀ r, r ∈ d.namedRegions ↔ (d.mem.iatu.slots r).used = true
  /-- The used ranges are disjoint and inside the NOC-DMA space. -/
  ranges : SlotsOk d.mem.iatu.slots
  /-- The used ranges are made of whole pages. -/
  aligned : PageAligned d.mem.iatu.slots
  /-- A view of a DMA buffer names a buffer in a slot of its handle. -/
  views : ∀ F, ∀ v ∈ (d.mem.file F).mappings, v.isDmaBuf = true →
    ∃ i < maxDmaBufs, ∃ b, (d.mem.file F).dmaBufs i = some b ∧ v.dmaBuf = some b.id
  /-- A backed pinning names a buffer in a slot of its handle. -/
  backing : ∀ F, ∀ p ∈ (d.mem.file F).pinnings, ∀ id, p.backingDmaBuf = some id →
    ∃ i < maxDmaBufs, ∃ b, (d.mem.file F).dmaBufs i = some b ∧ b.id = id
  /-- The count of buffer bytes is the sum of the sizes of the live buffers. -/
  bytes : d.mem.dmaBufBytes = ∑ F ∈ Finset.range d.nextFile, (d.mem.file F).bytes
  /-- A closed handle has no views, pinnings or buffers, no region and no bytes. -/
  closed : ∀ F, d.closed F = true → (d.mem.file F).Empty ∧ (d.mem.file F).bytes = 0 ∧
    ∀ r, (d.mem.iatu.slots r).used = true → (d.mem.iatu.slots r).owner ≠ some F

section Accounting

variable {d : DeviceContext}

/-- The regions of one handle are the ones its records name. -/
theorem Resources.mem_regions (h : Resources d) (F : Handle) (r : Fin 16) :
    r ∈ (d.mem.file F).regions ↔
      (d.mem.iatu.slots r).used = true ∧ (d.mem.iatu.slots r).owner = some F := by
  have hmem := (h.books.apertures.holds F).mem r
  rwa [allRegions, List.append_nil] at hmem

/-- A handle that was never opened owns no region. -/
theorem Resources.owner_lt (h : Resources d) {F : Handle} {r : Fin 16}
    (hr : r ∈ (d.mem.file F).regions) : F < d.nextFile := by
  by_contra hlt
  rw [h.books.fresh F (not_lt.mp hlt), FileMemory.Empty.init.regions] at hr
  cases hr

/-- The used regions are the named ones. -/
theorem Resources.mem_namedRegions (h : Resources d) (r : Fin 16) :
    r ∈ d.namedRegions ↔ (d.mem.iatu.slots r).used = true := by
  rw [DeviceContext.namedRegions, List.mem_flatMap]
  constructor
  · rintro ⟨F, _, hr⟩
    exact ((h.mem_regions F r).mp hr).1
  · intro hused
    obtain ⟨F, hF⟩ := h.books.apertures.owned r hused
    have hr := (h.mem_regions F r).mpr ⟨hused, hF⟩
    exact ⟨F, List.mem_range.mpr (h.owner_lt hr), hr⟩

/-- No region is named twice. -/
theorem Resources.nodup_namedRegions (h : Resources d) : d.namedRegions.Nodup := by
  rw [DeviceContext.namedRegions, List.nodup_flatMap]
  refine ⟨?_, ?_⟩
  · intro F _
    have hnodup := (h.books.apertures.holds F).nodup
    rwa [allRegions, List.append_nil] at hnodup
  · refine List.nodup_range.pairwise_of_forall_ne ?_
    intro F _ G _ hFG r hr hr'
    have hF := ((h.mem_regions F r).mp hr).2
    have hG := ((h.mem_regions G r).mp hr').2
    exact hFG (Option.some.inj (hF.symm.trans hG))

/-- Every run of a started device, with any requests that fail anywhere, leaves its
resources accounted for. -/
theorem run_accounted {config : MemoryConfig} {subsysVendorId subsysId : ℕ} {needsHwInit : Bool}
    {regs : Fin 16 → AtuRegs} {es : List Event}
    (hrun : Run (partialGraph DeviceContext.next)
      (.started config subsysVendorId subsysId needsHwInit regs) es d) : Accounted d := by
  have h := Resources.run hrun
  refine ⟨h.nodup_namedRegions, h.mem_namedRegions, h.books.apertures.ok,
    h.books.apertures.aligned, ?_, ?_, h.books.bytes, ?_⟩
  · intro F v hv hdma
    obtain ⟨b, hb, hid, _⟩ := (h.books.files F).view v hv hdma
    obtain ⟨i, hi, hslot⟩ := FileMemory.mem_bufs.mp hb
    exact ⟨i, hi, b, hslot, hid⟩
  · intro F p hp id hid
    obtain ⟨b, hb, hbid⟩ := (h.books.files F).backing p hp id hid
    obtain ⟨i, hi, hslot⟩ := FileMemory.mem_bufs.mp hb
    exact ⟨i, hi, b, hslot, hbid⟩
  · intro F hcl
    have hempty := h.gone F hcl
    refine ⟨hempty, hempty.bytes, ?_⟩
    intro r hused howner
    have hr := (h.mem_regions F r).mpr ⟨hused, howner⟩
    rw [hempty.regions] at hr
    cases hr

end Accounting

/-- A handle gets a page with an aperture, maps it, pins the view and is closed. -/
def pinnedAndClosed : List Event :=
  [.create 7,
   .request 0 7 (.allocateDmaBuf ⟨24, 64⟩ ⟨4096, 3, true⟩ ⟨some (0x10000, 0x10000), true⟩),
   .request 0 7 (.map ⟨16, 24⟩ ⟨mmapOffsetDmaBuf + 3 * 2 ^ 32, 4096⟩ ⟨true, true, some 0x5000, 7⟩),
   .request 0 7 (.pinPages ⟨24, 40⟩ ⟨16, 2, 0x5000, 4096⟩ ⟨true, true, none⟩),
   .cleanup 0]

/-- The accounting of that run. -/
theorem run_accounted_pinnedAndClosed :
    ∃ d, Run (partialGraph DeviceContext.next)
      (.started blackholeConfig 0 0 false fun _ _ => 0) pinnedAndClosed d ∧ Accounted d :=
  have hrun : Run (partialGraph DeviceContext.next)
      (.started blackholeConfig 0 0 false fun _ _ => 0) pinnedAndClosed _ := run_of_runList rfl
  ⟨_, hrun, run_accounted hrun⟩

end TtKmd
