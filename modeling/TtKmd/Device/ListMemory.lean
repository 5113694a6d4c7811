import TtKmd.Device.Resources
import TtKmd.Memory.LinkRuns

/-!
# The lists of a device in memory

The device context has its file list, and the records of a file, as values. Each event of the
device makes at most one operation on the lists in memory; it is one the framework and the pool
allow, and it does to the memory what the event does to the values. So the lists in memory are
those of the device in every run, and no event of a run comes to a fault in them.
-/

namespace TtKmd

open Lib

/-- The lists of the driver when there is this one device. -/
def DeviceContext.lists (d : DeviceContext) : ListTable where
  added := fun D => decide (D = 0)
  devices := [0]
  files := fun D => if D = 0 then d.fileList else []
  opened := d.isOpen
  creatorProcess := d.creatorProcess
  mappings := fun F => (d.mem.file F).mappings
  pinnings := fun F => (d.mem.file F).pinnings

/-- `RESET_DEVICE` comes to `TtResetZapMappings`. -/
def resetZaps (d : DeviceContext) (io : Io) (i : ResetIn) : Bool :=
  decide (ttCopyInBuffer io 8 = .success) && (decide (i.flags = 1) || resetBumps d io i)

/-- What the handler of a request does to the lists; a record it fills is at `a`. -/
def Request.listOp (d : DeviceContext) (F : Handle) (caller : Process) (a : ℕ) (r : Request) :
    Option ListOp :=
  let f := (handle d F caller r).device.mem.file F
  match r with
  | .map .. => (f.mappings.drop (d.mem.file F).mappings.length).head?.map (.map F a)
  | .pinPages .. => (f.pinnings.drop (d.mem.file F).pinnings.length).head?.map (.pin F a)
  | .unmap io userVa reserved =>
      if unmapCheck io reserved = .success then some (.unmap F userVa) else none
  | .unpinPages io i =>
      if unpinPagesCheck io i = .success then some (.unpin F i.virtualAddress i.size) else none
  | .resetDevice io i _ => if resetZaps d io i then some (.zap 0) else none
  | _ => none

/-- What an event does to the lists. -/
def Event.listOp (d : DeviceContext) (a : ℕ) : Event → Option ListOp
  | .create opener => some (.create 0 d.nextFile opener)
  | .request F caller r =>
      if ttCheckIoGates d F r.nr ≠ .success then none
      else if r.inCallerContext ∧ d.creatorProcess F ≠ caller then none
      else r.listOp d F caller a
  | .cleanup F => some (.cleanup 0 F)
  | .processExit process => some (.processNotify process)
  | .surpriseRemoval => some (.zap 0)
  | .cancel _ => none

/-- An operation, when there is one. -/
def ListTable.performAll (t : ListTable) (op : Option ListOp) : ListTable :=
  op.elim t t.perform

/-- An operation on the memory, when there is one. -/
def ListWorld.performAll (n : ℕ) (w : ListWorld) (op : Option ListOp) : Option ListWorld :=
  op.elim (some w) (w.perform n)

section Values

variable {d : DeviceContext} {F : Handle} {m : MemoryState}

/-- The memory of a file is not seen in the other lists. -/
theorem lists_withMem (m : MemoryState) : { d with mem := m }.lists =
    { d.lists with
      mappings := fun F => (m.file F).mappings
      pinnings := fun F => (m.file F).pinnings } := rfl

/-- The records of all files stay. -/
theorem lists_congr (hmap : ∀ G, (m.file G).mappings = (d.mem.file G).mappings)
    (hpin : ∀ G, (m.file G).pinnings = (d.mem.file G).pinnings) :
    { d with mem := m }.lists = d.lists := by
  rw [lists_withMem, funext hmap, funext hpin]
  rfl

/-- The mappings of one file are replaced. -/
theorem lists_setMappings {vs : List UserMapping}
    (hmem : m = d.mem.setFile F { d.mem.file F with mappings := vs }) :
    { d with mem := m }.lists = d.lists.setMappings F vs := by
  have hmap : (fun G => (m.file G).mappings) =
      Function.update (fun G => (d.mem.file G).mappings) F vs := by
    funext G
    by_cases hGF : G = F
    · simp [hmem, hGF]
    · simp [hmem, hGF]
  have hpin : (fun G => (m.file G).pinnings) = fun G => (d.mem.file G).pinnings := by
    funext G
    by_cases hGF : G = F
    · simp [hmem, hGF]
    · simp [hmem, hGF]
  rw [lists_withMem, hmap, hpin]
  rfl

/-- The pinnings of one file are replaced, and the regions change. -/
theorem lists_setPinnings {ps : List Pinning} {u : IatuUnit}
    (hmem : m = { d.mem.setFile F { d.mem.file F with pinnings := ps } with iatu := u }) :
    { d with mem := m }.lists = d.lists.setPinnings F ps := by
  have hpin : (fun G => (m.file G).pinnings) =
      Function.update (fun G => (d.mem.file G).pinnings) F ps := by
    funext G
    by_cases hGF : G = F
    · simp [hmem, hGF]
    · simp [hmem, hGF]
  have hmap : (fun G => (m.file G).mappings) = fun G => (d.mem.file G).mappings := by
    funext G
    by_cases hGF : G = F
    · simp [hmem, hGF]
    · simp [hmem, hGF]
  rw [lists_withMem, hmap, hpin]
  rfl

/-- `MAP` puts at most one record into its list. -/
theorem lists_map (caller : Process) (io : Io) (i : MapIn) (env : MapEnv) (a : ℕ) :
    (handle d F caller (.map io i env)).device.lists =
      d.lists.performAll ((Request.map io i env).listOp d F caller a) := by
  rcases ttIoctlMap_cases d.config d.mem F io i { env with process := caller } with
    hmem | ⟨-, v, -, -, hmem⟩
  · have hop : (Request.map io i env).listOp d F caller a = none := by
      simp [Request.listOp, handle, DeviceContext.withMem, hmem]
    rw [hop]
    exact lists_congr (fun G => by rw [hmem]) fun G => by rw [hmem]
  · have hop : (Request.map io i env).listOp d F caller a = some (.map F a v) := by
      simp [Request.listOp, handle, DeviceContext.withMem, hmem]
    rw [hop]
    exact lists_setMappings hmem

/-- `PIN_PAGES` puts at most one record into its list. -/
theorem lists_pinPages (hok : SlotsOk d.mem.iatu.slots) (caller : Process) (io : Io)
    (i : PinPagesIn) (env : PinEnv) (a : ℕ) :
    (handle d F caller (.pinPages io i env)).device.lists =
      d.lists.performAll ((Request.pinPages io i env).listOp d F caller a) := by
  have hnone : (∀ G, (ttIoctlPinPages d.config d.detached d.mem F io i env).mem.file G =
      d.mem.file G) →
      (handle d F caller (.pinPages io i env)).device.lists =
        d.lists.performAll ((Request.pinPages io i env).listOp d F caller a) := by
    intro hfile
    have hop : (Request.pinPages io i env).listOp d F caller a = none := by
      simp [Request.listOp, handle, DeviceContext.withMem, hfile]
    rw [hop]
    exact lists_congr (fun G => by rw [hfile]) fun G => by rw [hfile]
  rcases ttIoctlPinPages_cases d.config d.detached F io hok i env with
    (hmem | ⟨-, u', target, region, -, hmem⟩) | ⟨-, p, target, u', hpinned⟩
  · exact hnone fun G => by rw [hmem]
  · exact hnone fun G => by rw [hmem]
  · have hmem := hpinned.mem
    have hop : (Request.pinPages io i env).listOp d F caller a = some (.pin F a p) := by
      simp [Request.listOp, handle, DeviceContext.withMem, hmem, MemoryState.setFile]
    rw [hop]
    exact lists_setPinnings hmem

/-- `UNMAP` takes the first mapping at its address. -/
theorem lists_unmap (caller : Process) (io : Io) (userVa reserved a : ℕ) :
    (handle d F caller (.unmap io userVa reserved)).device.lists =
      d.lists.performAll ((Request.unmap io userVa reserved).listOp d F caller a) := by
  by_cases hcheck : unmapCheck io reserved = .success
  · have hop : (Request.unmap io userVa reserved).listOp d F caller a =
        some (.unmap F userVa) := if_pos hcheck
    rw [hop]
    cases hfind : (d.mem.file F).mappings.find? fun v => v.userVa == userVa with
    | none =>
      have hmem : (ttIoctlUnmap d.mem F io userVa reserved).mem = d.mem := by
        simp [ttIoctlUnmap, hcheck, unmapSection, hfind, Reply.fail]
      have hnone := List.find?_eq_none.mp hfind
      have herase : (d.mem.file F).mappings.eraseP (fun v => v.userVa == userVa) =
          (d.mem.file F).mappings := List.eraseP_of_forall_not (by simpa using hnone)
      have hsame : d.lists.perform (.unmap F userVa) = d.lists := by
        show d.lists.setMappings F
          ((d.mem.file F).mappings.eraseP fun v => v.userVa == userVa) = d.lists
        rw [herase, ListTable.setMappings]
        congr 1
        exact Function.update_eq_self F _
      rw [ListTable.performAll, Option.elim_some, hsame]
      exact lists_congr (fun G => by rw [hmem]) fun G => by rw [hmem]
    | some v =>
      apply lists_setMappings
      simp only [ttIoctlUnmap, hcheck, unmapSection, hfind, ne_eq, not_true_eq_false, if_false]
      rfl
  · have hop : (Request.unmap io userVa reserved).listOp d F caller a = none := if_neg hcheck
    have hmem : (ttIoctlUnmap d.mem F io userVa reserved).mem = d.mem := by
      simp [ttIoctlUnmap, hcheck, Reply.fail]
    rw [hop]
    exact lists_congr (fun G => by rw [hmem]) fun G => by rw [hmem]

/-- `UNPIN_PAGES` takes the first pinning at its address, if it has the size. -/
theorem lists_unpinPages (caller : Process) (io : Io) (i : UnpinPagesIn) (a : ℕ) :
    (handle d F caller (.unpinPages io i)).device.lists =
      d.lists.performAll ((Request.unpinPages io i).listOp d F caller a) := by
  have hkept : (ttIoctlUnpinPages d.detached d.mem F io i).mem = d.mem →
      (handle d F caller (.unpinPages io i)).device.lists = d.lists := fun hmem =>
    lists_congr (fun G => by rw [hmem]) fun G => by rw [hmem]
  by_cases hcheck : unpinPagesCheck io i = .success
  · have hop : (Request.unpinPages io i).listOp d F caller a =
        some (.unpin F i.virtualAddress i.size) := if_pos hcheck
    rw [hop]
    cases hfind : (d.mem.file F).pinnings.find? fun p =>
        p.virtualAddress == i.virtualAddress with
    | none =>
      have hvalue : d.lists.performAll (some (.unpin F i.virtualAddress i.size)) = d.lists := by
        simp [ListTable.performAll, ListTable.perform, DeviceContext.lists, hfind]
      rw [hvalue]
      apply hkept
      simp [ttIoctlUnpinPages, hcheck, unpinSection, hfind, Reply.fail]
    | some p =>
      by_cases hsize : p.size = i.size
      · have hvalue : d.lists.performAll (some (.unpin F i.virtualAddress i.size)) =
            d.lists.setPinnings F ((d.mem.file F).pinnings.eraseP fun p =>
              p.virtualAddress == i.virtualAddress) := by
          simp [ListTable.performAll, ListTable.perform, DeviceContext.lists, hfind, hsize]
        rw [hvalue]
        apply lists_setPinnings
        simp [ttIoctlUnpinPages, hcheck, unpinSection, hfind, hsize, ttDestroyPinning]
        rfl
      · have hvalue : d.lists.performAll (some (.unpin F i.virtualAddress i.size)) = d.lists := by
          simp [ListTable.performAll, ListTable.perform, DeviceContext.lists, hfind, hsize]
        rw [hvalue]
        apply hkept
        simp [ttIoctlUnpinPages, hcheck, unpinSection, hfind, hsize, Reply.fail]
  · have hop : (Request.unpinPages io i).listOp d F caller a = none := if_neg hcheck
    rw [hop]
    apply hkept
    simp [ttIoctlUnpinPages, hcheck, Reply.fail]

/-- The requests that touch neither list. -/
theorem lists_other (hok : SlotsOk d.mem.iatu.slots) (caller : Process) {r : Request} (a : ℕ)
    (hmap : ∀ io i env, r ≠ .map io i env) (hunmap : ∀ io va reserved, r ≠ .unmap io va reserved)
    (hpin : ∀ io i env, r ≠ .pinPages io i env) (hunpin : ∀ io i, r ≠ .unpinPages io i)
    (hreset : ∀ io i env, r ≠ .resetDevice io i env) :
    (handle d F caller r).device.lists = d.lists.performAll (r.listOp d F caller a) := by
  cases r with
  | allocateDmaBuf io i env =>
    have hfile : ∀ G, let m := (ttIoctlAllocateDmaBuf d.config d.detached d.mem F io i env).mem
        (m.file G).mappings = (d.mem.file G).mappings ∧
          (m.file G).pinnings = (d.mem.file G).pinnings := by
      intro G
      rcases ttIoctlAllocateDmaBuf_cases d.config d.detached F io hok i env with
        (hmem | ⟨-, u', target, region, -, hmem⟩) | ⟨-, b, u', hdone⟩
      · simp [hmem]
      · simp [hmem]
      · by_cases hGF : G = F
        · simp [hdone.mem, hGF]
        · simp [hdone.mem, hGF]
    exact lists_congr (fun G => (hfile G).1) fun G => (hfile G).2
  | freeDmaBufEx io i =>
    have hfile : ∀ G, let m := (ttIoctlFreeDmaBufEx d.detached d.mem F io i).mem
        (m.file G).mappings = (d.mem.file G).mappings ∧
          (m.file G).pinnings = (d.mem.file G).pinnings := by
      intro G
      rcases ttIoctlFreeDmaBufEx_cases d.detached d.mem F io i with
        ⟨-, hmem⟩ | ⟨-, b, -, -, -, hmem⟩
      · simp [hmem]
      · by_cases hGF : G = F
        · simp [hmem, hGF, ttDmaBufDestroy, ttDmaAccountRelease]
        · simp [hmem, hGF, ttDmaBufDestroy, ttDmaAccountRelease]
    exact lists_congr (fun G => (hfile G).1) fun G => (hfile G).2
  | allocateTlb io size =>
    obtain ⟨used, owner, hmem⟩ := ttIoctlAllocateTlb_windows d.config d.mem F io size
    exact lists_congr (fun G => by rw [hmem]) fun G => by rw [hmem]
  | freeTlb io id =>
    obtain ⟨used, owner, hmem⟩ := ttIoctlFreeTlb_windows d.mem F io id
    exact lists_congr (fun G => by rw [hmem]) fun G => by rw [hmem]
  | map io i env => exact absurd rfl (hmap io i env)
  | unmap io va reserved => exact absurd rfl (hunmap io va reserved)
  | pinPages io i env => exact absurd rfl (hpin io i env)
  | unpinPages io i => exact absurd rfl (hunpin io i)
  | lockCtl io i env => rfl
  | resetDevice io i env => exact absurd rfl (hreset io i env)
  | other nr status => rfl

/-- The loop of `TtResetZapMappings` takes the mappings from every listed file. -/
theorem lists_zap (d : DeviceContext) : d.zap.lists = d.lists.perform (.zap 0) := by
  have hfold : ∀ (Fs : List Handle) (m : MemoryState),
      { d with mem := ttResetZapMappings m Fs }.lists =
        Fs.foldl ListTable.zapFile { d with mem := m }.lists := by
    intro Fs
    induction Fs with
    | nil => exact fun _ => rfl
    | cons F Fs ih =>
      intro m
      have hone : { d with mem := zapFile m F }.lists = { d with mem := m }.lists.zapFile F :=
        lists_setMappings (d := { d with mem := m }) rfl
      rw [List.foldl_cons, ← hone]
      exact ih (zapFile m F)
  exact hfold d.fileList d.mem

/-- The flavors that bump the generation take the mappings, when they are permitted. -/
theorem lists_bumpingReset (flags : ℕ) (ok needsHwInit : Bool) :
    (bumpingReset d F flags ok needsHwInit).2.lists =
      if ttResetLegacyFlagPermitted d flags then d.lists.perform (.zap 0) else d.lists := by
  rcases bumpingReset_cases d F flags ok needsHwInit with ⟨hpermit, hres⟩ | ⟨hpermit, hres⟩
  · rw [hres, hpermit]
    rfl
  · rw [hres, hpermit, if_pos rfl]
    exact lists_zap (ttBumpResetGen d F)

/-- The switch of `TtIoctlResetDevice`. -/
theorem lists_resetFlavor {d' : DeviceContext} {env : ResetEnv} {flags : ℕ} {ok : Bool}
    (h : resetFlavor d F env flags = some (ok, d')) :
    d'.lists =
      if flags = 1 ∨ (2 ≤ flags ∧ flags ≤ 5) ∧ ttResetLegacyFlagPermitted d flags = true then
        d.lists.perform (.zap 0) else d.lists := by
  have hbump : ∀ flags, 2 ≤ flags ∧ flags ≤ 5 → ∀ ok' needsHwInit,
      some (bumpingReset d F flags ok' needsHwInit) = some (ok, d') →
      d'.lists =
        if flags = 1 ∨ (2 ≤ flags ∧ flags ≤ 5) ∧ ttResetLegacyFlagPermitted d flags = true then
          d.lists.perform (.zap 0) else d.lists := by
    intro flags hflags ok' needsHwInit heq
    have hd' : d' = (bumpingReset d F flags ok' needsHwInit).2 := by rw [Option.some.inj heq]
    have hne : flags ≠ 1 := by omega
    rw [hd', lists_bumpingReset]
    simp [hflags, hne]
  unfold resetFlavor at h
  split at h
  · cases h
    simp
  · cases h
    rw [if_pos (.inl rfl)]
    exact lists_zap d
  · exact hbump 2 (by omega) _ _ h
  · exact hbump 3 (by omega) _ _ h
  · exact hbump 4 (by omega) _ _ h
  · exact hbump 5 (by omega) _ _ h
  · split at h
    · cases h
      simp
      rfl
    · cases h
      simp
  · cases h

/-- The flavors there are. -/
theorem resetFlavor_eq_none {env : ResetEnv} {flags : ℕ} (h : resetFlavor d F env flags = none) :
    6 < flags := by
  by_contra hle
  have hcases : flags = 0 ∨ flags = 1 ∨ flags = 2 ∨ flags = 3 ∨ flags = 4 ∨ flags = 5 ∨
      flags = 6 := by omega
  rcases hcases with rfl | rfl | rfl | rfl | rfl | rfl | rfl
  case inr.inr.inr.inr.inr.inr =>
    simp only [resetFlavor] at h
    split at h <;> cases h
  all_goals cases h

/-- `RESET_DEVICE` takes the mappings or leaves the lists. -/
theorem lists_resetDevice (caller : Process) (io : Io) (i : ResetIn) (env : ResetEnv) (a : ℕ) :
    (handle d F caller (.resetDevice io i env)).device.lists =
      d.lists.performAll ((Request.resetDevice io i env).listOp d F caller a) := by
  have hop : (Request.resetDevice io i env).listOp d F caller a =
      if resetZaps d io i then some (.zap 0) else none := rfl
  show (ttIoctlResetDevice d F io i env).device.lists = _
  rw [hop, ttIoctlResetDevice]
  by_cases hin : ttCopyInBuffer io 8 = .success
  · have hzaps : resetZaps d io i = true ↔ i.flags = 1 ∨
        (2 ≤ i.flags ∧ i.flags ≤ 5) ∧ ttResetLegacyFlagPermitted d i.flags = true := by
      simp [resetZaps, resetBumps, hin]
    rw [if_neg (not_not.mpr hin)]
    cases hflavor : resetFlavor d F env i.flags with
    | none =>
      have hflags := resetFlavor_eq_none hflavor
      have hnot : ¬ resetZaps d io i = true := by
        rw [hzaps]
        omega
      rw [if_neg hnot]
      rfl
    | some res =>
      obtain ⟨ok, d'⟩ := res
      have hlists := lists_resetFlavor hflavor
      by_cases hz : resetZaps d io i = true
      · rw [if_pos (hzaps.mp hz)] at hlists
        rw [if_pos hz]
        exact hlists
      · rw [if_neg (fun hcond => hz (hzaps.mpr hcond))] at hlists
        rw [if_neg hz]
        exact hlists
  · have hnot : ¬ resetZaps d io i = true := by simp [resetZaps, hin]
    rw [if_pos hin, if_neg hnot]
    rfl

/-- What an exit of a process does to the lists of a file. -/
theorem lists_processExit (detached : Bool) (m : MemoryState) (F : Handle) :
    { d with mem := ttMemoryProcessExit detached m F }.lists =
      { d with mem := m }.lists.drain F := by
  obtain ⟨u', hmem⟩ := ttMemoryProcessExit_eq detached m F
  have hmap : (fun G => ((ttMemoryProcessExit detached m F).file G).mappings) =
      Function.update (fun G => (m.file G).mappings) F [] := by
    funext G
    by_cases hGF : G = F
    · simp [hmem, hGF]
    · simp [hmem, hGF]
  have hpin : (fun G => ((ttMemoryProcessExit detached m F).file G).pinnings) =
      Function.update (fun G => (m.file G).pinnings) F [] := by
    funext G
    by_cases hGF : G = F
    · simp [hmem, hGF]
    · simp [hmem, hGF]
  rw [lists_withMem, hmap, hpin]
  rfl

/-- The loops of `TtProcessNotify`. -/
theorem lists_processNotify (d : DeviceContext) (process : Process) :
    (ttProcessNotify d process).lists = d.lists.perform (.processNotify process) := by
  have hfold : ∀ (Fs : List Handle) (m : MemoryState),
      { d with
        mem := (Fs.filter fun F => d.creatorProcess F == process).foldl
          (ttMemoryProcessExit d.detached) m }.lists =
        Fs.foldl (ListTable.notifyFile process) { d with mem := m }.lists := by
    intro Fs
    induction Fs with
    | nil => exact fun _ => rfl
    | cons F Fs ih =>
      intro m
      by_cases hprocess : d.creatorProcess F = process
      · have hone : { d with mem := m }.lists.notifyFile process F =
            { d with mem := ttMemoryProcessExit d.detached m F }.lists := by
          rw [lists_processExit]
          exact if_pos hprocess
        rw [List.filter_cons_of_pos (by simpa using hprocess), List.foldl_cons, List.foldl_cons,
          hone]
        exact ih _
      · have hone : { d with mem := m }.lists.notifyFile process F = { d with mem := m }.lists :=
          if_neg hprocess
        rw [List.filter_cons_of_neg (by simpa using hprocess), List.foldl_cons, hone]
        exact ih m
  exact hfold d.fileList d.mem

/-- A new file has empty lists. -/
theorem lists_create (h : Resources d) (opener : Process) :
    (ttEvtDeviceFileCreate d opener).lists =
      d.lists.perform (.create 0 d.nextFile opener) := by
  have hnew := h.books.fresh d.nextFile le_rfl
  have hopen : (ttEvtDeviceFileCreate d opener).isOpen =
      Function.update d.isOpen d.nextFile true := by
    funext G
    have hiff := isOpen_create d opener G h.fresh
    by_cases hG : G = d.nextFile
    · rw [hG, Function.update_self]
      exact (isOpen_create d opener d.nextFile h.fresh).mpr (.inr rfl)
    · rw [Function.update_of_ne hG, Bool.eq_iff_iff, hiff]
      simp [hG]
  have hfiles : (fun D : ℕ => if D = 0 then d.fileList ++ [d.nextFile] else []) =
      Function.update (fun D : ℕ => if D = 0 then d.fileList else []) 0
        (d.fileList ++ [d.nextFile]) := by
    funext D
    by_cases hD : D = 0
    · simp [hD]
    · simp [hD]
  have hmap : (fun G => (d.mem.file G).mappings) =
      Function.update (fun G => (d.mem.file G).mappings) d.nextFile [] := by
    have hself : (d.mem.file d.nextFile).mappings = [] := by
      rw [hnew]
      rfl
    rw [← hself]
    exact (Function.update_eq_self _ _).symm
  have hpin : (fun G => (d.mem.file G).pinnings) =
      Function.update (fun G => (d.mem.file G).pinnings) d.nextFile [] := by
    have hself : (d.mem.file d.nextFile).pinnings = [] := by
      rw [hnew]
      rfl
    rw [← hself]
    exact (Function.update_eq_self _ _).symm
  simp only [DeviceContext.lists, hopen, ListTable.perform]
  simp only [ttEvtDeviceFileCreate, if_true]
  rw [hfiles, ← hmap, ← hpin]

/-- A file that is closed has none. -/
theorem lists_cleanup (h : Resources d) (hopen : d.isOpen F = true) :
    (ttEvtFileCleanup d F).lists = d.lists.perform (.cleanup 0 F) := by
  obtain ⟨hempty, hothers⟩ :=
    h.books.fileCleanup_files d.detached (DeviceContext.lt_of_isOpen hopen)
  have hopen' : (ttEvtFileCleanup d F).isOpen = Function.update d.isOpen F false := by
    funext G
    have hiff := isOpen_cleanup d F G
    by_cases hG : G = F
    · rw [hG, Function.update_self, ← Bool.not_eq_true, isOpen_cleanup]
      simp
    · rw [Function.update_of_ne hG, Bool.eq_iff_iff, hiff]
      simp [hG]
  have hfiles : (fun D : ℕ => if D = 0 then d.fileList.erase F else []) =
      Function.update (fun D : ℕ => if D = 0 then d.fileList else []) 0
        (d.fileList.erase F) := by
    funext D
    by_cases hD : D = 0
    · simp [hD]
    · simp [hD]
  have hmap : (fun G => ((ttMemoryFileCleanup d.detached d.mem F).file G).mappings) =
      Function.update (fun G => (d.mem.file G).mappings) F [] := by
    funext G
    by_cases hG : G = F
    · rw [hG, Function.update_self]
      exact hempty.mappings
    · rw [Function.update_of_ne hG, hothers G hG]
  have hpin : (fun G => ((ttMemoryFileCleanup d.detached d.mem F).file G).pinnings) =
      Function.update (fun G => (d.mem.file G).pinnings) F [] := by
    funext G
    by_cases hG : G = F
    · rw [hG, Function.update_self]
      exact hempty.pinnings
    · rw [Function.update_of_ne hG, hothers G hG]
  simp only [DeviceContext.lists, hopen', ListTable.perform, ListTable.drain,
    ListTable.setMappings, ListTable.setPinnings]
  simp only [ttEvtFileCleanup, if_true]
  rw [hfiles, hmap, hpin]

/-- A request does to the lists what its operation does. -/
theorem lists_handle (hok : SlotsOk d.mem.iatu.slots) (caller : Process) (r : Request) (a : ℕ) :
    (handle d F caller r).device.lists = d.lists.performAll (r.listOp d F caller a) := by
  cases r with
  | map io i env => exact lists_map caller io i env a
  | unmap io va reserved => exact lists_unmap caller io va reserved a
  | pinPages io i env => exact lists_pinPages hok caller io i env a
  | unpinPages io i => exact lists_unpinPages caller io i a
  | resetDevice io i env => exact lists_resetDevice caller io i env a
  | allocateDmaBuf io i env => exact lists_other hok caller a nofun nofun nofun nofun nofun
  | freeDmaBufEx io i => exact lists_other hok caller a nofun nofun nofun nofun nofun
  | allocateTlb io size => exact lists_other hok caller a nofun nofun nofun nofun nofun
  | freeTlb io id => exact lists_other hok caller a nofun nofun nofun nofun nofun
  | lockCtl io i env => exact lists_other hok caller a nofun nofun nofun nofun nofun
  | other nr status => exact lists_other hok caller a nofun nofun nofun nofun nofun

/-- An event does to the lists what its operation does. -/
theorem lists_next (h : Resources d) {e : Event} {d' : DeviceContext} (hstep : d.next e = some d')
    (a : ℕ) : d'.lists = d.lists.performAll (e.listOp d a) := by
  cases e with
  | create opener =>
    cases hstep
    exact lists_create h opener
  | request F caller r =>
    obtain ⟨-, rfl⟩ := DeviceContext.next_request hstep
    by_cases hgate : ttCheckIoGates d F r.nr ≠ .success
    · rw [dispatch, if_pos hgate, Event.listOp, if_pos hgate]
      rfl
    · by_cases hcaller : r.inCallerContext ∧ d.creatorProcess F ≠ caller
      · rw [dispatch, if_neg hgate, if_pos hcaller, Event.listOp, if_neg hgate, if_pos hcaller]
        rfl
      · rw [dispatch, if_neg hgate, if_neg hcaller, Event.listOp, if_neg hgate, if_neg hcaller]
        exact lists_handle h.books.apertures.ok caller r a
  | cleanup F =>
    obtain ⟨hopen, rfl⟩ := DeviceContext.next_cleanup hstep
    exact lists_cleanup h hopen
  | processExit process =>
    cases hstep
    exact lists_processNotify d process
  | surpriseRemoval =>
    cases hstep
    exact lists_zap { d with detached := true }
  | cancel k =>
    cases hstep
    rfl

/-- The operation of an event is one the framework and the pool allow. -/
theorem listOp_allowed (h : Resources d) {e : Event} {d' : DeviceContext}
    (hstep : d.next e = some d') {w : ListWorld} {a : ℕ}
    (ha : w.entries.allocated (.record a) = false) {op : ListOp} (hop : e.listOp d a = some op) :
    op.Allowed w d.lists := by
  cases e with
  | create opener =>
    cases hop
    refine ⟨rfl, ?_⟩
    simp [DeviceContext.lists, DeviceContext.isOpen]
  | request F caller r =>
    obtain ⟨hopen, -⟩ := DeviceContext.next_request hstep
    have hlisted : d.lists.opened F = true := hopen
    simp only [Event.listOp] at hop
    split at hop
    · cases hop
    · split at hop
      · cases hop
      · cases r with
        | map io i env =>
          obtain ⟨v, -, rfl⟩ := Option.map_eq_some_iff.mp hop
          exact ⟨hlisted, ha⟩
        | pinPages io i env =>
          obtain ⟨p, -, rfl⟩ := Option.map_eq_some_iff.mp hop
          exact ⟨hlisted, ha⟩
        | unmap io va reserved =>
          obtain ⟨-, rfl⟩ := guard_of_eq_some hop
          exact hlisted
        | unpinPages io i =>
          obtain ⟨-, rfl⟩ := guard_of_eq_some hop
          exact hlisted
        | resetDevice io i env =>
          obtain ⟨-, rfl⟩ := guard_of_eq_some hop
          rfl
        | _ => cases hop
  | cleanup F =>
    cases hop
    obtain ⟨hopen, -⟩ := DeviceContext.next_cleanup hstep
    exact ⟨rfl, (h.listed F).mpr hopen⟩
  | processExit process =>
    cases hop
    trivial
  | surpriseRemoval =>
    cases hop
    rfl
  | cancel k => cases hop

end Values

/-! ## Runs -/

/-- The device and the memory behind its lists go together; the pool chooses where a new record
is. -/
def linkedStep (n : ℕ) (s : ListWorld × DeviceContext) (e : Event)
    (s' : ListWorld × DeviceContext) : Prop :=
  s.2.next e = some s'.2 ∧ ∃ a, s.1.entries.allocated (.record a) = false ∧
    s.1.performAll n (e.listOp s.2 a) = some s'.1

/-- A started device, alone in the list of the devices. -/
theorem lists_started (config : MemoryConfig) (subsysVendorId subsysId : ℕ) (needsHwInit : Bool)
    (regs : Fin 16 → AtuRegs) :
    (DeviceContext.started config subsysVendorId subsysId needsHwInit regs).lists =
      ListTable.init.perform (.addDevice 0 true) := by
  have hadded : (fun D : ℕ => decide (D = 0)) = Function.update (fun _ => false) 0 true := by
    funext D
    by_cases hD : D = 0
    · simp [hD]
    · simp [hD]
  have hfiles : (fun D : ℕ => if D = 0 then ([] : List Handle) else []) =
      Function.update (fun _ => []) 0 [] := by
    funext D
    by_cases hD : D = 0
    · simp [hD]
    · simp [hD]
  have hopen : (DeviceContext.started config subsysVendorId subsysId needsHwInit regs).isOpen =
      fun _ => false := by
    funext F
    simp [DeviceContext.isOpen, DeviceContext.started]
  simp only [DeviceContext.lists, hopen, hadded]
  simp only [DeviceContext.started, MemoryState.started, FileMemory.init, hfiles]
  rfl

/-- One event, with its operation on the memory. -/
theorem linked_step {n : ℕ} {w : ListWorld} {d d' : DeviceContext} {mapAt pinAt : Handle → List ℕ}
    (h : Refines w d.lists mapAt pinAt) (hres : Resources d) (hn : d.lists.Bounded n) {e : Event}
    (hstep : d.next e = some d') {a : ℕ} (ha : w.entries.allocated (.record a) = false) :
    ∃ w' mapAt' pinAt', w.performAll n (e.listOp d a) = some w' ∧
      Refines w' d'.lists mapAt' pinAt' := by
  rw [lists_next hres hstep a]
  cases hop : e.listOp d a with
  | none => exact ⟨w, mapAt, pinAt, rfl, h⟩
  | some op => exact h.perform hn (listOp_allowed hres hstep ha hop)

/-- The bound on the lists grows by at most one with an event. -/
theorem bounded_next {n : ℕ} {d d' : DeviceContext} (hres : Resources d)
    (hn : d.lists.Bounded n) {e : Event} (hstep : d.next e = some d') :
    d'.lists.Bounded (n + 1) := by
  rw [lists_next hres hstep 0]
  cases e.listOp d 0 with
  | none => exact hn.mono (Nat.le_succ n)
  | some op => exact hn.perform op

/-- The relation holds after a run, and the bound on the lists grows with the events. -/
theorem linked_run {n b : ℕ} {s s' : ListWorld × DeviceContext} {es : List Event}
    (hs : ∃ mapAt pinAt, Refines s.1 s.2.lists mapAt pinAt) (hres : Resources s.2)
    (hb : s.2.lists.Bounded b) (hrun : Run (linkedStep n) s es s') (hn : b + es.length ≤ n) :
    (∃ mapAt pinAt, Refines s'.1 s'.2.lists mapAt pinAt) ∧ Resources s'.2 ∧
      s'.2.lists.Bounded (b + es.length) := by
  induction hrun generalizing b with
  | nil s => exact ⟨hs, hres, hb⟩
  | @cons s s₁ s₂ e es hstep _ ih =>
    obtain ⟨hnext, a, ha, hperform⟩ := hstep
    obtain ⟨mapAt, pinAt, h⟩ := hs
    have hbn : s.2.lists.Bounded n := hb.mono ((Nat.le_add_right b _).trans hn)
    obtain ⟨w', mapAt', pinAt', hperform', h'⟩ := linked_step h hres hbn hnext ha
    obtain rfl : s₁.1 = w' := Option.some.inj (hperform.symm.trans hperform')
    have hlength : b + (e :: es).length = b + 1 + es.length := by
      simp only [List.length_cons]
      omega
    rw [hlength] at hn ⊢
    exact ih ⟨mapAt', pinAt', h'⟩ (hres.next hnext) (bounded_next hres hb hnext) hn

/-- In every run of a started device the lists in memory are those of the device, and the next
event comes to no fault in them, wherever the pool puts a new record. -/
theorem device_lists_in_memory {n : ℕ} {config : MemoryConfig} {subsysVendorId subsysId : ℕ}
    {needsHwInit : Bool} {regs : Fin 16 → AtuRegs} {w₀ w₁ w₂ w : ListWorld} {d : DeviceContext}
    {es : List Event} (hempty : ∀ e, w₀.entries.allocated e = false)
    (hload : w₀.driverEntry = some w₁) (hadd : addDevice w₁ 0 true = some w₂)
    (hrun : Run (linkedStep n)
      (w₂, .started config subsysVendorId subsysId needsHwInit regs) es (w, d))
    (hn : es.length + 1 < n) :
    (∃ mapAt pinAt, Refines w d.lists mapAt pinAt) ∧
      ∀ e d', d.next e = some d' → ∀ a, w.entries.allocated (.record a) = false →
        ∃ w', w.performAll n (e.listOp d a) = some w' := by
  have hinit := refines_driverEntry hempty hload
  have hbounded : ListTable.init.Bounded 1 :=
    ⟨Nat.one_pos, fun _ => Nat.one_pos, fun _ => Nat.one_pos, fun _ => Nat.one_pos⟩
  obtain ⟨w', hadd', hrefines⟩ := hinit.addDevice (D := 0) rfl true
  obtain rfl : w₂ = w' := Option.some.inj (hadd.symm.trans hadd')
  have hlists := lists_started config subsysVendorId subsysId needsHwInit regs
  obtain ⟨hend, hres, hb⟩ := linked_run (b := 2) (by rw [hlists]; exact ⟨_, _, hrefines⟩)
    (Resources.started config subsysVendorId subsysId needsHwInit regs)
    (by rw [hlists]; exact hbounded.perform (.addDevice 0 true)) hrun (by omega)
  have hle : 2 + es.length ≤ n := by omega
  refine ⟨hend, ?_⟩
  obtain ⟨mapAt, pinAt, h⟩ := hend
  intro e d' hstep a ha
  obtain ⟨w', -, -, hperform, -⟩ := linked_step h hres (hb.mono hle) hstep ha
  exact ⟨w', hperform⟩

/-- A handle pins a page, and its process exits while the handle is open. -/
def pinnedAndExited : List Event :=
  [.create 7, .request 0 7 (.pinPages ⟨24, 40⟩ ⟨16, 0, 4096, 4096⟩ ⟨true, true, some [3]⟩),
    .processExit 7]

/-- The handle can be closed then. -/
theorem device_lists_in_memory_pinnedAndExited : ∃ w₁ w₂ w d,
    emptyListWorld.driverEntry = some w₁ ∧ addDevice w₁ 0 true = some w₂ ∧
    Run (linkedStep 5) (w₂, .started blackholeConfig 0 0 false fun _ _ => 0) pinnedAndExited
      (w, d) ∧
    ∃ w', w.performAll 5 ((Event.cleanup 0).listOp d 9) = some w' := by
  have hrun : ∃ w₁ w₂ w d,
      emptyListWorld.driverEntry = some w₁ ∧ addDevice w₁ 0 true = some w₂ ∧
      Run (linkedStep 5) (w₂, .started blackholeConfig 0 0 false fun _ _ => 0) pinnedAndExited
        (w, d) ∧ w.entries.allocated (.record 9) = false ∧ d.isOpen 0 = true := by
    refine ⟨_, _, ?w, ?d, rfl, rfl, ?hrun, ?hfree, ?hopen⟩
    case hrun =>
      apply Run.cons (t := (_, _)) ⟨rfl, 8, rfl, rfl⟩
      apply Run.cons (t := (_, _)) ⟨rfl, 8, rfl, rfl⟩
      apply Run.cons (t := (_, _)) ⟨rfl, 9, rfl, rfl⟩
      exact .nil _
    case hfree => rfl
    case hopen => rfl
  obtain ⟨w₁, w₂, w, d, hload, hadd, hevents, hfree, hopen⟩ := hrun
  have hnext := (device_lists_in_memory (fun _ => rfl) hload hadd hevents (by decide)).2
  exact ⟨w₁, w₂, w, d, hload, hadd, hevents, hnext (.cleanup 0) _ (if_pos hopen) 9 hfree⟩

end TtKmd
