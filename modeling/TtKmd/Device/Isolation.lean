import TtKmd.Device.Teardown

/-!
# A reset isolates the handles opened before it

After a reset that bumps the generation, every other handle opened before it is
refused at the gate for as long as it lives, while the handle that asked for the
reset passes until another handle bumps the generation. The views of BARs and
windows follow: a live one belongs to a handle that passes, on a device that is
present. Views of DMA buffers survive resets and the removal of the device.
-/

namespace TtKmd

open Lib

/-- The views that the rounds of `TtResetZapMappings` leave. -/
theorem mem_zapAll {m : MemoryState} {fileList : List Handle} {F : Handle} {v : UserMapping} :
    v ∈ ((ttResetZapMappings m fileList).file F).mappings ↔
      v ∈ (m.file F).mappings ∧ (F ∈ fileList → v.isDmaBuf = true) := by
  induction fileList generalizing m with
  | nil => simp [ttResetZapMappings]
  | cons G rest ih =>
    have hone : v ∈ ((zapFile m G).file F).mappings ↔
        v ∈ (m.file F).mappings ∧ (F = G → v.isDmaBuf = true) := by
      by_cases hG : F = G
      · subst hG
        rw [zapFile, MemoryState.setFile_self]
        simp
      · rw [zapFile, MemoryState.setFile_of_ne hG]
        simp [hG]
    have hrest := ih (m := zapFile m G)
    rw [hone] at hrest
    refine hrest.trans ?_
    rw [List.mem_cons, and_assoc, or_imp]

/-- The invariant: the views of BARs and windows belong to handles that pass the gate. -/
structure Isolated (d : DeviceContext) : Prop where
  /-- The resources are accounted for. -/
  resources : Resources d
  /-- No handle is ahead of the device. -/
  noneAhead : NoneAhead d
  /-- A view of a BAR or of a window belongs to a handle that is not removed. -/
  views : ∀ F, ∀ v ∈ (d.mem.file F).mappings, v.isDmaBuf = false → d.removed F = false

section Steps

variable {d d' : DeviceContext} {F : Handle}

/-- A handle that is not in the file list has no views. -/
theorem Resources.no_views (h : Resources d) (hF : F ∉ d.fileList) :
    (d.mem.file F).mappings = [] := by
  rw [h.listed, DeviceContext.isOpen_iff, not_and, Bool.not_eq_false] at hF
  by_cases hlt : F < d.nextFile
  · exact (h.gone F (hF hlt)).mappings
  · rw [h.books.fresh F (not_lt.mp hlt)]
    rfl

/-- After a zap there are no views of BARs and windows. -/
theorem Resources.no_plain_views (h : Resources d) {v : UserMapping}
    (hv : v ∈ ((ttResetZapMappings d.mem d.fileList).file F).mappings) : v.isDmaBuf = true := by
  obtain ⟨hmem, hdma⟩ := mem_zapAll.mp hv
  by_cases hF : F ∈ d.fileList
  · exact hdma hF
  · rw [h.no_views hF] at hmem
    cases hmem

/-- Views of BARs and windows that were there before, of handles whose gate did not
change. -/
theorem Isolated.views_kept (h : Isolated d) (hrem : ∀ G, d'.removed G = d.removed G)
    (hviews : ∀ G, ∀ v ∈ (d'.mem.file G).mappings, v.isDmaBuf = false →
      v ∈ (d.mem.file G).mappings ∨ d.removed G = false) :
    ∀ G, ∀ v ∈ (d'.mem.file G).mappings, v.isDmaBuf = false → d'.removed G = false := by
  intro G v hv hplain
  rw [hrem]
  rcases hviews G v hv hplain with hold | hgate
  · exact h.views G v hold hplain
  · exact hgate

/-- The gate depends on the generations and on the presence of the device only. -/
theorem Kept.removed (h : Kept d d') (G : Handle) : d'.removed G = d.removed G := by
  rw [DeviceContext.removed, DeviceContext.removed, h.detached, h.openResetGen, h.resetGen]

/-- A request that bumps no generation keeps the views in order. -/
theorem Isolated.views_request (h : Isolated d) (caller : Process) (r : Request)
    (hkept : Kept d (dispatch d F caller r).device) (hno : bumps d F r = false) :
    ∀ G, ∀ v ∈ ((dispatch d F caller r).device.mem.file G).mappings, v.isDmaBuf = false →
      (dispatch d F caller r).device.removed G = false := by
  refine h.views_kept hkept.removed ?_
  intro G v hv _
  by_cases hgate : ttCheckIoGates d F r.nr = .success
  swap
  · rw [dispatch_of_refused rfl hgate] at hv
    exact .inl hv
  by_cases hG : G = F
  · subst hG
    exact .inr (not_removed_of_gate hgate)
  left
  by_cases hreset : ∀ io i env, r ≠ .resetDevice io i env
  · unfold dispatch at hv
    rw [if_neg (not_not.mpr hgate)] at hv
    split at hv
    · exact hv
    · rwa [h.resources.othersKept caller hreset G hG] at hv
  · simp only [ne_eq, not_forall, not_not] at hreset
    obtain ⟨io, i, env, rfl⟩ := hreset
    have hgate6 : ttCheckIoGates d F 6 = .success := hgate
    rw [dispatch_of_gate hgate rfl, handle] at hv
    rcases ttIoctlResetDevice_cases d F io i env with ⟨_, hd' | hd' | hd'⟩ | ⟨hyes, _⟩
    · rwa [hd'] at hv
    · rw [hd'] at hv
      exact (mem_zapAll.mp hv).1
    · rwa [hd'] at hv
    · simp [bumps, hgate6, hyes] at hno

/-- A request keeps the invariant. -/
theorem Isolated.request (h : Isolated d) (hopen : d.isOpen F = true) (caller : Process)
    (r : Request) : Isolated (dispatch d F caller r).device := by
  have hstep : d.next (.request F caller r) = some (dispatch d F caller r).device := if_pos hopen
  refine ⟨h.resources.next hstep, h.noneAhead.next hstep, ?_⟩
  rcases dispatch_generation d F caller r with ⟨hno, hkept⟩ | ⟨_, hbumped⟩
  · exact h.views_request caller r hkept hno
  · intro G v hv hplain
    rw [hbumped.mem] at hv
    rw [h.resources.no_plain_views hv] at hplain
    cases hplain

/-- A create keeps the invariant. -/
theorem Isolated.create (h : Isolated d) (opener : Process) :
    Isolated (ttEvtDeviceFileCreate d opener) := by
  have hstep : d.next (.create opener) = some (ttEvtDeviceFileCreate d opener) := rfl
  refine ⟨h.resources.next hstep, h.noneAhead.next hstep, ?_⟩
  intro G v hv hplain
  by_cases hG : G = d.nextFile
  · have hnone : d.mem.file G = .init := h.resources.books.fresh G (le_of_eq hG.symm)
    have hv' : v ∈ (d.mem.file G).mappings := hv
    rw [hnone] at hv'
    cases hv'
  · have hold := h.views G v hv hplain
    rw [DeviceContext.removed_eq_false] at hold ⊢
    exact ⟨hold.1, (Function.update_of_ne hG _ _).trans hold.2⟩

/-- A cleanup keeps the invariant. -/
theorem Isolated.cleanup (h : Isolated d) (hopen : d.isOpen F = true) :
    Isolated (ttEvtFileCleanup d F) := by
  have hstep : d.next (.cleanup F) = some (ttEvtFileCleanup d F) := if_pos hopen
  refine ⟨h.resources.next hstep, h.noneAhead.next hstep, h.views_kept (fun _ => rfl) ?_⟩
  obtain ⟨hempty, hothers⟩ := h.resources.books.fileCleanup_files d.detached
    (DeviceContext.lt_of_isOpen hopen)
  intro G v hv _
  left
  have hv' : v ∈ ((ttMemoryFileCleanup d.detached d.mem F).file G).mappings := hv
  by_cases hG : G = F
  · subst hG
    rw [hempty.mappings] at hv'
    cases hv'
  · rwa [hothers G hG] at hv'

/-- Every step keeps the invariant. -/
theorem Isolated.next (h : Isolated d) {e : Event} (hstep : d.next e = some d') : Isolated d' := by
  have hres := h.resources.next hstep
  have hgen := h.noneAhead.next hstep
  cases e with
  | create opener =>
    cases hstep
    exact h.create opener
  | request F caller r =>
    obtain ⟨hopen, rfl⟩ := DeviceContext.next_request hstep
    exact h.request hopen caller r
  | cleanup F =>
    obtain ⟨hopen, rfl⟩ := DeviceContext.next_cleanup hstep
    exact h.cleanup hopen
  | processExit process =>
    cases hstep
    refine ⟨hres, hgen, h.views_kept (fun _ => rfl) ?_⟩
    exact fun G v hv _ => .inl ((tearsDown_processExits _ d.mem).views G v hv)
  | surpriseRemoval =>
    cases hstep
    refine ⟨hres, hgen, ?_⟩
    intro G v hv hplain
    rw [h.resources.no_plain_views hv] at hplain
    cases hplain
  | cancel k =>
    cases hstep
    exact ⟨hres, hgen, h.views⟩

/-- A started device. -/
theorem Isolated.started (config : MemoryConfig) (subsysVendorId subsysId : ℕ)
    (needsHwInit : Bool) (regs : Fin 16 → AtuRegs) :
    Isolated (.started config subsysVendorId subsysId needsHwInit regs) :=
  ⟨Resources.started config subsysVendorId subsysId needsHwInit regs, fun _ => le_rfl,
    fun _ _ hv => by cases hv⟩

end Steps

/-- A handle of an earlier generation. -/
structure Stale (G : Handle) (d : DeviceContext) : Prop where
  /-- The handle was opened. -/
  opened : G < d.nextFile
  /-- Its generation is an earlier one. -/
  behind : d.openResetGen G < d.resetGen

/-- A handle of the current generation. -/
structure Current (R : Handle) (d : DeviceContext) : Prop where
  /-- The handle was opened. -/
  opened : R < d.nextFile
  /-- It has the generation of the device. -/
  latched : d.openResetGen R = d.resetGen

/-- The steps other than a bump by another handle than `R`. -/
def NoBumpBut (R : Handle) (d : DeviceContext) : Event → Prop
  | .request F _ r => F ≠ R → bumps d F r = false
  | _ => True

section Generations

variable {d d' : DeviceContext} {e : Event} {G R : Handle}

/-- A stale handle is refused whatever it asks for. -/
theorem Stale.refused (h : Stale G d) (caller : Process) (r : Request) :
    dispatch d G caller r = ⟨.deviceRemoved, false, d⟩ :=
  dispatch_of_refused (ttCheckIoGates_of_stale (ne_of_lt h.behind) r.nr) (by decide)

/-- A stale handle bumps nothing. -/
theorem Stale.no_bump (h : Stale G d) (r : Request) : bumps d G r = false := by
  cases r with
  | resetDevice io i env => simp [bumps, ttCheckIoGates_of_stale (ne_of_lt h.behind)]
  | _ => rfl

/-- Steps that change no generation of an opened handle. -/
theorem openResetGen_next (hG : G < d.nextFile) (hstep : d.next e = some d') :
    G < d'.nextFile ∧
      ((d'.openResetGen G = d.openResetGen G ∧ d'.resetGen = d.resetGen) ∨
        ∃ F caller r, e = .request F caller r ∧ bumps d F r = true ∧ Bumped d d' F) := by
  cases e with
  | create opener =>
    cases hstep
    exact ⟨Nat.lt_succ_of_lt hG, .inl ⟨Function.update_of_ne (ne_of_lt hG) _ _, rfl⟩⟩
  | request F caller r =>
    obtain ⟨-, rfl⟩ := DeviceContext.next_request hstep
    rcases dispatch_generation d F caller r with ⟨_, hkept⟩ | ⟨hyes, hbumped⟩
    · exact ⟨hkept.nextFile ▸ hG, .inl ⟨by rw [hkept.openResetGen], hkept.resetGen⟩⟩
    · exact ⟨hbumped.nextFile ▸ hG, .inr ⟨F, caller, r, rfl, hyes, hbumped⟩⟩
  | cleanup F =>
    obtain ⟨-, rfl⟩ := DeviceContext.next_cleanup hstep
    exact ⟨hG, .inl ⟨rfl, rfl⟩⟩
  | processExit process =>
    cases hstep
    exact ⟨hG, .inl ⟨rfl, rfl⟩⟩
  | surpriseRemoval =>
    cases hstep
    exact ⟨hG, .inl ⟨rfl, rfl⟩⟩
  | cancel k =>
    cases hstep
    exact ⟨hG, .inl ⟨rfl, rfl⟩⟩

/-- A stale handle stays stale. -/
theorem Stale.next (h : Stale G d) (hstep : d.next e = some d') : Stale G d' := by
  obtain ⟨hlt, ⟨hopen, hreset⟩ | ⟨F, caller, r, rfl, hyes, hbumped⟩⟩ :=
    openResetGen_next h.opened hstep
  · exact ⟨hlt, by rw [hopen, hreset]; exact h.behind⟩
  · have hGF : G ≠ F := by
      rintro rfl
      rw [h.no_bump] at hyes
      cases hyes
    refine ⟨hlt, ?_⟩
    rw [hbumped.openResetGen, hbumped.resetGen, Function.update_of_ne hGF]
    exact Nat.lt_succ_of_lt h.behind

/-- The handle of the last reset stays current until another handle resets. -/
theorem Current.next (h : Current R d) (hcond : NoBumpBut R d e) (hstep : d.next e = some d') :
    Current R d' := by
  obtain ⟨hlt, ⟨hopen, hreset⟩ | ⟨F, caller, r, rfl, hyes, hbumped⟩⟩ :=
    openResetGen_next h.opened hstep
  · exact ⟨hlt, by rw [hopen, hreset]; exact h.latched⟩
  · refine ⟨hlt, ?_⟩
    by_cases hFR : F = R
    · subst hFR
      rw [hbumped.openResetGen, hbumped.resetGen, Function.update_self]
    · rw [hcond hFR] at hyes
      cases hyes

/-- A reset and the removal of the device leave the views of DMA buffers. -/
theorem dma_views_kept (hstep : d.next e = some d')
    (he : e = .surpriseRemoval ∨ ∃ F caller io i env, e = .request F caller (.resetDevice io i env))
    {v : UserMapping} (hv : v ∈ (d.mem.file G).mappings) (hdma : v.isDmaBuf = true) :
    v ∈ (d'.mem.file G).mappings := by
  have hzap : v ∈ ((ttResetZapMappings d.mem d.fileList).file G).mappings :=
    mem_zapAll.mpr ⟨hv, fun _ => hdma⟩
  rcases he with rfl | ⟨F, caller, io, i, env, rfl⟩
  · cases hstep
    exact hzap
  · obtain ⟨-, rfl⟩ := DeviceContext.next_request hstep
    by_cases hgate : ttCheckIoGates d F 6 = .success
    swap
    · rw [dispatch_of_refused rfl hgate]
      exact hv
    rw [dispatch_of_gate hgate rfl, handle]
    rcases ttIoctlResetDevice_cases d F io i env with ⟨_, hd' | hd' | hd'⟩ | ⟨_, hw, hd'⟩
    · rwa [hd']
    · rw [hd']
      exact hzap
    · rwa [hd']
    · rw [hd']
      exact hzap

end Generations

/-- In every state `d` of every run of a started device: a reset by a handle `R` that
bumps the generation makes every other handle opened before it fail every request of
every later state with `STATUS_DEVICE_REMOVED`, while `R` has the generation of the
device until another handle bumps it; a view of a BAR or of a window belongs to a handle
of the current generation on a device that is not detached; and no reset and no removal
of the device takes away a view of a DMA buffer. -/
theorem reset_isolates {config : MemoryConfig} {subsysVendorId subsysId : ℕ} {needsHwInit : Bool}
    {regs : Fin 16 → AtuRegs} {es : List Event} {d : DeviceContext}
    (hrun : Run (partialGraph DeviceContext.next)
      (.started config subsysVendorId subsysId needsHwInit regs) es d) :
    (∀ R caller r d₁, d.next (.request R caller r) = some d₁ → bumps d R r = true →
      (∀ es' d₂, Run (partialGraph DeviceContext.next) d₁ es' d₂ →
        ∀ G, G ≠ R → G < d.nextFile → ∀ caller' r',
          dispatch d₂ G caller' r' = ⟨.deviceRemoved, false, d₂⟩) ∧
      ∀ es' d₂, Run (restrict (partialGraph DeviceContext.next) (NoBumpBut R)) d₁ es' d₂ →
        d₂.openResetGen R = d₂.resetGen) ∧
    (∀ F, ∀ v ∈ (d.mem.file F).mappings, v.isDmaBuf = false →
      d.openResetGen F = d.resetGen ∧ d.detached = false) ∧
    ∀ e d', d.next e = some d' →
      (e = .surpriseRemoval ∨
        ∃ F caller io i env, e = .request F caller (.resetDevice io i env)) →
      ∀ F, ∀ v ∈ (d.mem.file F).mappings, v.isDmaBuf = true → v ∈ (d'.mem.file F).mappings := by
  have hinv : Isolated d := hrun.invariant (fun _ _ _ h hstep => h.next hstep)
    (Isolated.started config subsysVendorId subsysId needsHwInit regs)
  refine ⟨?_, ?_, ?_⟩
  · intro R caller r d₁ hstep hbumps
    obtain ⟨hopen, hd₁⟩ := DeviceContext.next_request hstep
    have hbumped : Bumped d d₁ R := by
      rcases dispatch_generation d R caller r with ⟨hno, _⟩ | ⟨_, hb⟩
      · rw [hbumps] at hno
        cases hno
      · rwa [hd₁] at hb
    refine ⟨?_, ?_⟩
    · intro es' d₂ hrun' G hG hopened caller' r'
      have hstale : Stale G d₁ := ⟨hbumped.nextFile ▸ hopened, hbumped.stale hinv.noneAhead hG⟩
      have hlater : Stale G d₂ := hrun'.invariant (fun _ _ _ h hs => h.next hs) hstale
      exact hlater.refused caller' r'
    · intro es' d₂ hrun'
      have hcurrent : Current R d₁ := by
        refine ⟨hbumped.nextFile ▸ DeviceContext.lt_of_isOpen hopen, ?_⟩
        rw [hbumped.openResetGen, hbumped.resetGen, Function.update_self]
      have hlater : Current R d₂ := hrun'.invariant (fun _ _ _ h hs => h.next hs.1 hs.2) hcurrent
      exact hlater.latched
  · intro F v hv hplain
    exact (DeviceContext.removed_eq_false.mp (hinv.views F v hv hplain)).symm
  · intro e d' hstep he F v hv hdma
    exact dma_views_kept hstep he hv hdma

/-- Two handles, the second with a view of BAR 0. -/
def twoHandles : List Event :=
  [.create 7, .create 8,
   .request 1 8 (.map ⟨16, 24⟩ ⟨0, 4096⟩ ⟨true, true, some 0x5000, 8⟩)]

/-- `USER_RESET` by the first handle. -/
def userReset : Request := .resetDevice ⟨8, 16⟩ ⟨8, 3⟩ ⟨true, true, true, true, true, true⟩

/-- The first handle resets the device, and the second one cannot even reset it again. -/
theorem reset_isolates_twoHandles :
    ∃ d d₁, Run (partialGraph DeviceContext.next)
        (.started blackholeConfig 0 0 false fun _ _ => 0) twoHandles d ∧
      d.next (.request 0 7 userReset) = some d₁ ∧ bumps d 0 userReset = true ∧
      dispatch d₁ 1 8 userReset = ⟨.deviceRemoved, false, d₁⟩ := by
  have heval : ((runList DeviceContext.next (.started blackholeConfig 0 0 false fun _ _ => 0)
      twoHandles).bind fun d => (d.next (.request 0 7 userReset)).map fun _ =>
        bumps d 0 userReset && decide (1 < d.nextFile)) = some true := by decide +kernel
  obtain ⟨d, hd, hmap⟩ := Option.bind_eq_some_iff.mp heval
  obtain ⟨d₁, hd₁, htest⟩ := Option.map_eq_some_iff.mp hmap
  simp only [Bool.and_eq_true, decide_eq_true_eq] at htest
  have hrun := run_of_runList hd
  exact ⟨d, d₁, hrun, hd₁, htest.1,
    ((reset_isolates hrun).1 0 7 userReset d₁ hd₁ htest.1).1 [] d₁ (.nil d₁) 1 (by decide) htest.2
      8 userReset⟩

end TtKmd
