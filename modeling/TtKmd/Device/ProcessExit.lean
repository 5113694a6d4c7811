import TtKmd.Device.Resources
import TtKmd.Memory.Close

/-!
# A process exit in parallel with cleanups

`TtProcessNotify` walks the devices of the driver and, under the `FileListLock` of
each, the handles that the exiting process opened; `TtMemoryProcessExit` releases the
views and the pinnings of one handle under its file lock. A handle that was duplicated
may be closed from another process meanwhile. `TtEvtFileCleanup` takes the handle off
the list in one section and drains it in a later one; between the two the walk does
not find the handle.

A step here is one section of a cleanup or of the notification. The devices start in
any state that requests and callbacks can lead to.
-/

namespace TtKmd

open Lib

/-- How far `TtProcessNotify` has come. -/
inductive NotifyPhase
  /-- It has not begun. -/
  | idle
  /-- It is about to take the `FileListLock` of the first of these devices. -/
  | between (ds : List ℕ)
  /-- It holds the `FileListLock` of the device `d` and has to visit the handles `Fs`. -/
  | walking (d : ℕ) (Fs : List Handle) (ds : List ℕ)
  /-- It has returned. -/
  | returned

/-- The devices of the driver, the cleanups of their handles and the notification. -/
structure ExitWorld where
  /-- The devices. -/
  dev : ℕ → DeviceContext
  /-- The cleanup of each handle of each device. -/
  phase : ℕ → Handle → CleanupPhase
  /-- The notification. -/
  notify : NotifyPhase

/-- No cleanup and no notification has begun. -/
def ExitWorld.start (dev : ℕ → DeviceContext) : ExitWorld := ⟨dev, fun _ _ => .running, .idle⟩

/-- The notification holds the `FileListLock` of a device. -/
def NotifyPhase.holdsLock : NotifyPhase → ℕ → Bool
  | .walking d' _ _, d => d' == d
  | _, _ => false

/-- A cleanup gets to a phase and leaves a device. -/
def ExitWorld.enter (w : ExitWorld) (d : ℕ) (F : Handle) (phase : CleanupPhase)
    (device : DeviceContext) : ExitWorld :=
  { w with
    dev := Function.update w.dev d device
    phase := Function.update w.phase d (Function.update (w.phase d) F phase) }

/-- The device of the cleanup is replaced. -/
@[simp]
theorem ExitWorld.enter_dev_self (w : ExitWorld) (d : ℕ) (F : Handle) (phase : CleanupPhase)
    (device : DeviceContext) : (w.enter d F phase device).dev d = device :=
  Function.update_self _ _ _

/-- The other devices are untouched. -/
@[simp]
theorem ExitWorld.enter_dev_of_ne {d d' : ℕ} (hd : d' ≠ d) (w : ExitWorld) (F : Handle)
    (phase : CleanupPhase) (device : DeviceContext) :
    (w.enter d F phase device).dev d' = w.dev d' := Function.update_of_ne hd _ _

/-- The next section of `TtEvtFileCleanup`; `none` is a section that has to wait. -/
def ExitWorld.cleanup (w : ExitWorld) (d : ℕ) (F : Handle) : Option ExitWorld :=
  let device := w.dev d
  match w.phase d F with
  | .running =>
      if device.isOpen F then
        some (w.enter d F .locksReleased
          { device with locks := ttLocksReleaseAll device.removed device.locks F })
      else none
  | .locksReleased =>
      if w.notify.holdsLock d then none
      else some (w.enter d F .delisted { device with fileList := device.fileList.erase F })
  | .delisted =>
      some (w.enter d F .drained
        { device with mem := cleanupFileSection device.detached device.mem F })
  | .drained =>
      some (w.enter d F .closed
        { device with
          mem := cleanupTlbSection device.mem F
          closed := Function.update device.closed F true })
  | .closed => none

/-- The visit of one handle by `TtProcessNotify`. -/
def visit (process : Process) (device : DeviceContext) (F : Handle) : DeviceContext :=
  if device.creatorProcess F = process then
    { device with mem := ttMemoryProcessExit device.detached device.mem F }
  else device

/-- The next section of `TtProcessNotify`. -/
def ExitWorld.notifyStep (process : Process) (devices : List ℕ) (w : ExitWorld) :
    Option ExitWorld :=
  match w.notify with
  | .idle => some { w with notify := .between devices }
  | .between [] => some { w with notify := .returned }
  | .between (d :: ds) => some { w with notify := .walking d (w.dev d).fileList ds }
  | .walking d (F :: Fs) ds =>
      some { w with
        dev := Function.update w.dev d (visit process (w.dev d) F)
        notify := .walking d Fs ds }
  | .walking _ [] ds => some { w with notify := .between ds }
  | .returned => none

/-- The steps. -/
inductive ExitEvent
  /-- The cleanup of a handle of a device runs its next section. -/
  | cleanup (d : ℕ) (F : Handle)
  /-- The notification runs its next section. -/
  | notify

/-- One step; `none` is a step that cannot be taken. -/
def ExitWorld.next (process : Process) (devices : List ℕ) (w : ExitWorld) :
    ExitEvent → Option ExitWorld
  | .cleanup d F => w.cleanup d F
  | .notify => w.notifyStep process devices

/-- The sections of a cleanup, run back to back, are `TtEvtFileCleanup`. -/
theorem cleanup_eq_ttEvtFileCleanup {process : Process} {devices : List ℕ} {w : ExitWorld}
    {d : ℕ} {F : Handle} (hphase : w.phase d F = .running) (hopen : (w.dev d).isOpen F = true)
    (hlock : w.notify.holdsLock d = false) :
    ∃ w', runList (ExitWorld.next process devices) w (List.replicate 4 (.cleanup d F)) = some w' ∧
      w'.dev d = ttEvtFileCleanup (w.dev d) F ∧ w'.phase d F = .closed := by
  simp [List.replicate, runList, ExitWorld.next, ExitWorld.cleanup, ExitWorld.enter, hphase, hopen,
    hlock, ttEvtFileCleanup, ttMemoryFileCleanup]

/-- A handle has a view in the process, or a pinning with locked pages. -/
def HoldsProcess (device : DeviceContext) (process : Process) (F : Handle) : Prop :=
  (∃ v ∈ (device.mem.file F).mappings, v.process = process) ∨
    ∃ p ∈ (device.mem.file F).pinnings, p.mdl ≠ none

/-- A handle without views and pinnings holds nothing of a process. -/
theorem not_holdsProcess {device : DeviceContext} {process : Process} {F : Handle}
    (hviews : (device.mem.file F).mappings = []) (hpins : (device.mem.file F).pinnings = []) :
    ¬HoldsProcess device process F := by
  rintro (⟨v, hv, _⟩ | ⟨p, hp, _⟩)
  · rw [hviews] at hv
    cases hv
  · rw [hpins] at hp
    cases hp

/-- When the notification takes the lock of a device, no handle of the process that a
cleanup has delisted and not drained has a view in it or locked pages. -/
def NoneDelisted (process : Process) (w : ExitWorld) : ExitEvent → Prop
  | .notify => ∀ d ds, w.notify = .between (d :: ds) → ∀ F,
      (w.dev d).creatorProcess F = process → w.phase d F = .delisted →
        ¬HoldsProcess (w.dev d) process F
  | _ => True

section Sections

variable {m : MemoryState} {F G : Handle}

/-- `TtMemoryProcessExit` empties the lists of its handle and leaves the others. -/
theorem ttMemoryProcessExit_file (detached : Bool) (m : MemoryState) (F : Handle) :
    ((ttMemoryProcessExit detached m F).file F).mappings = [] ∧
      ((ttMemoryProcessExit detached m F).file F).pinnings = [] ∧
      OthersKept m (ttMemoryProcessExit detached m F) F := by
  obtain ⟨u', hu'⟩ := ttMemoryProcessExit_eq detached m F
  have hself : (ttMemoryProcessExit detached m F).file F =
      { m.file F with mappings := [], pinnings := [] } := by
    rw [hu']
    exact MemoryState.setFile_self _
  rw [hself]
  refine ⟨rfl, rfl, ?_⟩
  intro G hG
  rw [hu']
  exact MemoryState.setFile_of_ne hG _

/-- The rounds over the slots leave the lists of all handles. -/
theorem cleanupDmaBufs_lists (detached : Bool) (F : Handle) (slots : List ℕ) (m : MemoryState) :
    ∀ G, ((slots.foldl (cleanupDmaBuf detached F) m).file G).mappings = (m.file G).mappings ∧
      ((slots.foldl (cleanupDmaBuf detached F) m).file G).pinnings = (m.file G).pinnings := by
  induction slots generalizing m with
  | nil => exact fun G => ⟨rfl, rfl⟩
  | cons i slots ih =>
    intro G
    obtain ⟨hviews, hpins⟩ := ih (cleanupDmaBuf detached F m i) G
    rw [List.foldl_cons, hviews, hpins]
    rcases cleanupDmaBuf_cases detached m F i with ⟨_, hm⟩ | ⟨b, _, hm⟩
    · rw [hm]
      exact ⟨rfl, rfl⟩
    · rw [hm]
      by_cases hG : G = F
      · subst hG
        simp [ttDmaBufDestroy, ttDmaAccountRelease]
      · simp [ttDmaBufDestroy, ttDmaAccountRelease, hG]

/-- The section of `TtMemoryFileCleanup` under the file lock empties the lists of its
handle and leaves those of the others. -/
theorem cleanupFileSection_lists (detached : Bool) (m : MemoryState) (F : Handle) :
    ((cleanupFileSection detached m F).file F).mappings = [] ∧
      ((cleanupFileSection detached m F).file F).pinnings = [] ∧
      ∀ G, G ≠ F → ((cleanupFileSection detached m F).file G).mappings = (m.file G).mappings ∧
        ((cleanupFileSection detached m F).file G).pinnings = (m.file G).pinnings := by
  obtain ⟨hviews, hpins, hothers⟩ := ttMemoryProcessExit_file detached m F
  have hlists := cleanupDmaBufs_lists detached F (List.range maxDmaBufs)
    (ttMemoryProcessExit detached m F)
  rw [cleanupFileSection, (hlists F).1, (hlists F).2]
  refine ⟨hviews, hpins, ?_⟩
  intro G hG
  rw [(hlists G).1, (hlists G).2, hothers G hG]
  exact ⟨rfl, rfl⟩

end Sections

section Invariant

variable {process : Process} {devices : List ℕ} {w w' : ExitWorld} {d : ℕ} {F : Handle}
  {device : DeviceContext}

/-- The handles of the process on a device hold nothing of it. -/
def Released (process : Process) (device : DeviceContext) : Prop :=
  ∀ F, device.creatorProcess F = process → ¬HoldsProcess device process F

/-- What the notification has done so far. -/
def Progress (process : Process) (devices : List ℕ) (w : ExitWorld) : Prop :=
  match w.notify with
  | .idle => True
  | .between ds => ∀ d ∈ devices, d ∈ ds ∨ Released process (w.dev d)
  | .walking d Fs ds =>
      (d ∈ devices → ∀ F, (w.dev d).creatorProcess F = process →
          HoldsProcess (w.dev d) process F → F ∈ Fs) ∧
        ∀ d' ∈ devices, d' = d ∨ d' ∈ ds ∨ Released process (w.dev d')
  | .returned => ∀ d ∈ devices, Released process (w.dev d)

/-- The invariant of the steps. -/
structure Exiting (process : Process) (devices : List ℕ) (w : ExitWorld) : Prop where
  /-- A handle that holds something is listed, or delisted and not drained. -/
  found : ∀ d ∈ devices, ∀ F, HoldsProcess (w.dev d) process F →
    F ∈ (w.dev d).fileList ∨ w.phase d F = .delisted
  /-- The notification. -/
  progress : Progress process devices w

/-- No handle of a device holds more than before, and the creators are the same. -/
structure Shrinks (process : Process) (device device' : DeviceContext) : Prop where
  /-- The creators. -/
  creator : device'.creatorProcess = device.creatorProcess
  /-- The handles. -/
  holds : ∀ F, HoldsProcess device' process F → HoldsProcess device process F

/-- A device that is unchanged. -/
theorem Shrinks.refl (process : Process) (device : DeviceContext) :
    Shrinks process device device := ⟨rfl, fun _ h => h⟩

/-- What was released stays released. -/
theorem Shrinks.released {device' : DeviceContext} (h : Shrinks process device device')
    (hreleased : Released process device) : Released process device' := by
  intro F hF hholds
  rw [h.creator] at hF
  exact hreleased F hF (h.holds F hholds)

/-- The records of the handles decide what they hold. -/
theorem shrinks_of_lists {device' : DeviceContext}
    (hcreator : device'.creatorProcess = device.creatorProcess)
    (hlists : ∀ F, (device'.mem.file F).mappings ⊆ (device.mem.file F).mappings ∧
      (device'.mem.file F).pinnings ⊆ (device.mem.file F).pinnings) :
    Shrinks process device device' := by
  refine ⟨hcreator, ?_⟩
  rintro F (⟨v, hv, hprocess⟩ | ⟨p, hp, hmdl⟩)
  · exact .inl ⟨v, (hlists F).1 hv, hprocess⟩
  · exact .inr ⟨p, (hlists F).2 hp, hmdl⟩

/-- The notification's progress survives steps that shrink the devices. -/
theorem Progress.shrink (h : Progress process devices w) (hnotify : w'.notify = w.notify)
    (hshrinks : ∀ d, Shrinks process (w.dev d) (w'.dev d)) : Progress process devices w' := by
  unfold Progress at h ⊢
  rw [hnotify]
  cases hphase : w.notify with
  | idle => trivial
  | between ds =>
    rw [hphase] at h
    intro d hd
    exact (h d hd).imp_right (hshrinks d).released
  | walking d Fs ds =>
    rw [hphase] at h
    refine ⟨?_, ?_⟩
    · intro hd F hF hholds
      rw [(hshrinks d).creator] at hF
      exact h.1 hd F hF ((hshrinks d).holds F hholds)
    · intro d' hd'
      exact (h.2 d' hd').imp_right (Or.imp_right (hshrinks d').released)
  | returned =>
    rw [hphase] at h
    intro d hd
    exact (hshrinks d).released (h d hd)

/-- A section of a cleanup shrinks its device. -/
theorem Exiting.enter (h : Exiting process devices w) {phase : CleanupPhase}
    (hshrinks : Shrinks process (w.dev d) device)
    (hself : d ∈ devices → HoldsProcess device process F →
      F ∈ device.fileList ∨ phase = .delisted)
    (hothers : ∀ G, G ≠ F → G ∈ (w.dev d).fileList → G ∈ device.fileList) :
    Exiting process devices (w.enter d F phase device) := by
  have hall : ∀ d', Shrinks process (w.dev d') ((w.enter d F phase device).dev d') := by
    intro d'
    by_cases hd : d' = d
    · subst hd
      rw [ExitWorld.enter_dev_self]
      exact hshrinks
    · rw [ExitWorld.enter_dev_of_ne hd]
      exact Shrinks.refl _ _
  refine ⟨?_, h.progress.shrink rfl hall⟩
  intro d' hd' G hholds
  have hbefore := h.found d' hd' G ((hall d').holds G hholds)
  by_cases hd : d' = d
  · subst hd
    rw [ExitWorld.enter_dev_self] at hholds ⊢
    by_cases hG : G = F
    · subst hG
      simpa [ExitWorld.enter] using hself hd' hholds
    · have hphase : (w.enter d' F phase device).phase d' G = w.phase d' G := by
        simp [ExitWorld.enter, hG]
      rw [hphase]
      exact hbefore.imp_left (hothers G hG)
  · rw [ExitWorld.enter_dev_of_ne hd]
    simpa [ExitWorld.enter, hd] using hbefore

/-- Every section of a cleanup keeps the invariant. -/
theorem Exiting.cleanup (h : Exiting process devices w) (hstep : w.cleanup d F = some w') :
    Exiting process devices w' := by
  have hsame : ∀ device : DeviceContext, device.creatorProcess = (w.dev d).creatorProcess →
      (∀ G, (device.mem.file G).mappings = ((w.dev d).mem.file G).mappings ∧
        (device.mem.file G).pinnings = ((w.dev d).mem.file G).pinnings) →
      Shrinks process (w.dev d) device := fun device hcreator hlists =>
    shrinks_of_lists hcreator fun G => by
      rw [(hlists G).1, (hlists G).2]
      exact ⟨List.Subset.refl _, List.Subset.refl _⟩
  -- before its delisting and behind the section, a handle that refers to the process is listed
  have hlisted : w.phase d F ≠ .delisted → d ∈ devices → HoldsProcess (w.dev d) process F →
      F ∈ (w.dev d).fileList := fun hne hd hholds => (h.found d hd F hholds).resolve_right hne
  simp only [ExitWorld.cleanup] at hstep
  cases hphase : w.phase d F with
  | running =>
    simp only [hphase] at hstep
    split at hstep
    swap
    · cases hstep
    cases hstep
    exact h.enter (hsame _ rfl fun G => ⟨rfl, rfl⟩)
      (fun hd hholds => .inl (hlisted (by simp [hphase]) hd hholds)) (fun G _ hG => hG)
  | locksReleased =>
    simp only [hphase] at hstep
    split at hstep
    · cases hstep
    cases hstep
    exact h.enter (hsame _ rfl fun G => ⟨rfl, rfl⟩) (fun _ _ => .inr rfl)
      (fun G hG hlisted => (List.mem_erase_of_ne hG).mpr hlisted)
  | delisted =>
    simp only [hphase] at hstep
    rw [← Option.some.inj hstep]
    obtain ⟨hviews, hpins, hothers⟩ :=
      cleanupFileSection_lists (w.dev d).detached (w.dev d).mem F
    refine h.enter (shrinks_of_lists rfl ?_) ?_ (fun G _ hG => hG)
    · intro G
      by_cases hG : G = F
      · rw [hG, hviews, hpins]
        exact ⟨List.nil_subset _, List.nil_subset _⟩
      · rw [(hothers G hG).1, (hothers G hG).2]
        exact ⟨List.Subset.refl _, List.Subset.refl _⟩
    · intro _ hholds
      refine absurd hholds (not_holdsProcess ?_ ?_)
      · dsimp only
        exact hviews
      · dsimp only
        exact hpins
  | drained =>
    simp only [hphase] at hstep
    cases hstep
    exact h.enter (hsame _ rfl fun G => ⟨rfl, rfl⟩)
      (fun hd hholds => .inl (hlisted (by simp [hphase]) hd hholds)) (fun G _ hG => hG)
  | closed =>
    simp only [hphase] at hstep
    cases hstep

/-- What the visit of a handle leaves. -/
theorem visit_shrinks (process : Process) (device : DeviceContext) (F : Handle) :
    Shrinks process device (visit process device F) := by
  unfold visit
  split
  swap
  · exact Shrinks.refl _ _
  obtain ⟨hviews, hpins, hothers⟩ := ttMemoryProcessExit_file device.detached device.mem F
  refine shrinks_of_lists rfl ?_
  intro G
  by_cases hG : G = F
  · show ((ttMemoryProcessExit device.detached device.mem F).file G).mappings ⊆ _ ∧ _
    rw [hG, hviews, hpins]
    exact ⟨List.nil_subset _, List.nil_subset _⟩
  · rw [hothers G hG]
    exact ⟨List.Subset.refl _, List.Subset.refl _⟩

/-- A visited handle of the process holds nothing of it. -/
theorem visit_releases (hF : device.creatorProcess F = process) :
    ¬HoldsProcess (visit process device F) process F := by
  obtain ⟨hviews, hpins, _⟩ := ttMemoryProcessExit_file device.detached device.mem F
  unfold visit
  rw [if_pos hF]
  exact not_holdsProcess hviews hpins

/-- A visit leaves the file list. -/
theorem visit_fileList (process : Process) (device : DeviceContext) (F : Handle) :
    (visit process device F).fileList = device.fileList := by
  unfold visit
  split
  · rfl
  · rfl

/-- The visit of one handle keeps the invariant. -/
theorem Exiting.visit (h : Exiting process devices w) {Fs : List Handle} {ds : List ℕ}
    (hphase : w.notify = .walking d (F :: Fs) ds) :
    Exiting process devices { w with
      dev := Function.update w.dev d (TtKmd.visit process (w.dev d) F)
      notify := .walking d Fs ds } := by
  have hprogress := h.progress
  rw [Progress, hphase] at hprogress
  have hall : ∀ d', Shrinks process (w.dev d')
      (Function.update w.dev d (TtKmd.visit process (w.dev d) F) d') := by
    intro d'
    by_cases hd : d' = d
    · subst hd
      rw [Function.update_self]
      exact visit_shrinks process _ F
    · rw [Function.update_of_ne hd]
      exact Shrinks.refl _ _
  refine ⟨?_, ?_, ?_⟩
  · intro d' hd' G hholds
    refine (h.found d' hd' G ((hall d').holds G hholds)).imp_left ?_
    intro hlisted
    show G ∈ (Function.update w.dev d (TtKmd.visit process (w.dev d) F) d').fileList
    by_cases hd : d' = d
    · subst hd
      rwa [Function.update_self, visit_fileList]
    · rwa [Function.update_of_ne hd]
  · intro hd G hcreator hholds
    rw [(hall d).creator] at hcreator
    rcases List.mem_cons.mp (hprogress.1 hd G hcreator ((hall d).holds G hholds)) with rfl | hrest
    · have hself : HoldsProcess (Function.update w.dev d
          (TtKmd.visit process (w.dev d) G) d) process G := hholds
      rw [Function.update_self] at hself
      exact absurd hself (visit_releases hcreator)
    · exact hrest
  · intro d' hd'
    exact (hprogress.2 d' hd').imp_right (Or.imp_right (hall d').released)

/-- Every section of the notification keeps the invariant. -/
theorem Exiting.notifyStep (h : Exiting process devices w)
    (hnone : NoneDelisted process w .notify)
    (hstep : w.notifyStep process devices = some w') : Exiting process devices w' := by
  have hprogress := h.progress
  unfold ExitWorld.notifyStep at hstep
  split at hstep
  · cases hstep
    exact ⟨h.found, fun d hd => .inl hd⟩
  · rename_i hphase
    rw [Progress, hphase] at hprogress
    cases hstep
    refine ⟨h.found, ?_⟩
    intro d hd
    exact (hprogress d hd).resolve_left List.not_mem_nil
  · rename_i d ds hphase
    rw [Progress, hphase] at hprogress
    cases hstep
    refine ⟨h.found, ?_, ?_⟩
    · intro hd F hF hholds
      rcases h.found d hd F hholds with hlisted | hdelisted
      · exact hlisted
      · exact absurd hholds (hnone d ds hphase F hF hdelisted)
    · intro d' hd'
      rcases hprogress d' hd' with hmem | hreleased
      · exact (List.mem_cons.mp hmem).imp_right .inl
      · exact .inr (.inr hreleased)
  · rename_i d F Fs ds hphase
    cases hstep
    exact h.visit hphase
  · rename_i d ds hphase
    rw [Progress, hphase] at hprogress
    cases hstep
    refine ⟨h.found, ?_⟩
    intro d' hd'
    rcases hprogress.2 d' hd' with rfl | hmem
    · refine .inr ?_
      intro F hF hholds
      exact absurd (hprogress.1 hd' F hF hholds) List.not_mem_nil
    · exact hmem
  · cases hstep

/-- Every step keeps the invariant. -/
theorem Exiting.next (h : Exiting process devices w) {e : ExitEvent}
    (hnone : NoneDelisted process w e) (hstep : w.next process devices e = some w') :
    Exiting process devices w' := by
  cases e with
  | cleanup d F => exact h.cleanup hstep
  | notify => exact h.notifyStep hnone hstep

end Invariant

/-- A device that requests and callbacks can lead to. -/
def DeviceContext.Reached (device : DeviceContext) : Prop :=
  ∃ config subsysVendorId subsysId needsHwInit regs, Reachable (partialGraph DeviceContext.next)
    (.started config subsysVendorId subsysId needsHwInit regs) device

/-- A handle that has views or pinnings is in the file list. -/
theorem DeviceContext.Reached.listed {device : DeviceContext} (h : device.Reached) {F : Handle}
    {process : Process} (hholds : HoldsProcess device process F) : F ∈ device.fileList := by
  obtain ⟨config, subsysVendorId, subsysId, needsHwInit, regs, es, hrun⟩ := h
  have hres := Resources.run hrun
  rw [hres.listed, DeviceContext.isOpen_iff]
  have hfull : ¬(device.mem.file F).Empty := fun hempty =>
    not_holdsProcess hempty.mappings hempty.pinnings hholds
  constructor
  · by_contra hlt
    exact hfull (hres.books.fresh F (not_lt.mp hlt) ▸ FileMemory.Empty.init)
  · by_contra hclosed
    exact hfull (hres.gone F (Bool.not_eq_false _ ▸ hclosed))

/-- Where the notification finds no handle of the process between the two sections of a
cleanup, it returns with every view in the process and every locked page of the handles
of the process released. -/
theorem processNotify_releases {process : Process} {devices : List ℕ} {dev : ℕ → DeviceContext}
    {es : List ExitEvent} {w : ExitWorld} (hreached : ∀ d ∈ devices, (dev d).Reached)
    (hrun : Run (restrict (partialGraph (ExitWorld.next process devices)) (NoneDelisted process))
      (.start dev) es w) (hreturned : w.notify = .returned) {d : ℕ} (hd : d ∈ devices)
    {F : Handle} (hF : (w.dev d).creatorProcess F = process) :
    ¬HoldsProcess (w.dev d) process F := by
  have hstart : Exiting process devices (.start dev) :=
    ⟨fun d hd F hholds => .inl ((hreached d hd).listed hholds), trivial⟩
  have h : Exiting process devices w :=
    hrun.invariant (fun _ _ _ h hstep => h.next hstep.1 hstep.2) hstart
  have hprogress := h.progress
  rw [Progress, hreturned] at hprogress
  exact hprogress d hd F hF

/-- Process 7 opens a handle and maps a page of BAR 0. -/
def mapOnePage : List Event :=
  [.create 7, .request 0 7 (.map ⟨16, 24⟩ ⟨0, 4096⟩ ⟨true, true, some 0x5000, 7⟩)]

/-- The device afterwards. -/
def onePageMapped : DeviceContext :=
  (dispatch (ttEvtDeviceFileCreate (.started blackholeConfig 0 0 false fun _ _ => 0) 7) 0 7
    (.map ⟨16, 24⟩ ⟨0, 4096⟩ ⟨true, true, some 0x5000, 7⟩)).device

/-- That device is reached. -/
theorem onePageMapped_reached : onePageMapped.Reached :=
  ⟨blackholeConfig, 0, 0, false, fun _ _ => 0, mapOnePage, run_of_runList rfl⟩

/-- The process exits after a cleanup of the handle has released its locks. -/
def exitBeforeDelist : List ExitEvent := .cleanup 0 0 :: List.replicate 5 .notify

/-- The page is unmapped when the notification returns. -/
theorem processNotify_releases_exitBeforeDelist :
    ∃ w, Run (restrict (partialGraph (ExitWorld.next 7 [0])) (NoneDelisted 7))
        (.start fun _ => onePageMapped) exitBeforeDelist w ∧
      w.notify = .returned ∧ (w.dev 0).creatorProcess 0 = 7 ∧ ¬HoldsProcess (w.dev 0) 7 0 := by
  obtain ⟨w, hrun, hreturned, hcreator⟩ : ∃ w,
      Run (restrict (partialGraph (ExitWorld.next 7 [0])) (NoneDelisted 7))
        (.start fun _ => onePageMapped) exitBeforeDelist w ∧
      w.notify = .returned ∧ (w.dev 0).creatorProcess 0 = 7 := by
    refine ⟨_, .cons ⟨trivial, rfl⟩ (.cons ⟨?_, rfl⟩ (.cons ⟨?_, rfl⟩ (.cons ⟨?_, rfl⟩
      (.cons ⟨?_, rfl⟩ (.cons ⟨?_, rfl⟩ (.nil _)))))), rfl, rfl⟩
    · rintro d ds ⟨⟩
    · rintro d ds ⟨⟩ F _ hdelisted
      by_cases hF : F = 0
      · subst hF
        cases hdelisted
      · simp [ExitWorld.start, ExitWorld.enter, hF] at hdelisted
    · rintro d ds ⟨⟩
    · rintro d ds ⟨⟩
    · rintro d ds ⟨⟩
  exact ⟨w, hrun, hreturned, hcreator, processNotify_releases
    (fun _ _ => onePageMapped_reached) hrun hreturned (List.mem_cons_self ..) hcreator⟩

/-- The process exits after a cleanup has delisted the handle. -/
def exitAfterDelist : List ExitEvent := [.cleanup 0 0, .cleanup 0 0] ++ List.replicate 4 .notify

/-- The page is still mapped when the notification returns. -/
theorem exitAfterDelist_holds :
    onePageMapped.Reached ∧
      ∃ w, Run (partialGraph (ExitWorld.next 7 [0])) (.start fun _ => onePageMapped)
          exitAfterDelist w ∧
        w.notify = .returned ∧ (w.dev 0).creatorProcess 0 = 7 ∧ HoldsProcess (w.dev 0) 7 0 := by
  refine ⟨onePageMapped_reached, _, run_of_runList rfl, rfl, rfl, .inl ?_⟩
  exact ⟨⟨0x5000, 4096, 0, none, false, none, 7⟩, List.mem_cons_self .., rfl⟩

end TtKmd
