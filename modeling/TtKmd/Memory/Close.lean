import TtKmd.Memory.Interleaving

/-!
# A close in parallel with requests on the same handle

`TtEvtFileCleanup` holds the reset resource shared, like the requests, so a handle
may be closed while requests on it are still executing. The cleanup is four sections:
the resource locks are released, the handle leaves the file list, its records are
drained under the file lock, and its windows are released under `TlbLock`. A request
that was issued before the close may run its sections between and behind these.

No flag marks a closed handle. What a request stores for the handle behind the
section that would release it stays for ever; where no request does, a closed handle
owns nothing once its requests have finished.
-/

namespace TtKmd

open Lib

/-- How far `TtEvtFileCleanup` has come on a handle. -/
inductive CleanupPhase
  /-- It has not begun. -/
  | running
  /-- `TtLocksReleaseAll` is done. -/
  | locksReleased
  /-- The handle has left the file list. -/
  | delisted
  /-- The section of `TtMemoryFileCleanup` under the file lock is done. -/
  | drained
  /-- The section of `TtMemoryFileCleanup` under `TlbLock` is done. -/
  | closed
  deriving DecidableEq

/-- The records of the handle have been drained. -/
def CleanupPhase.isDrained : CleanupPhase → Bool
  | .drained => true
  | .closed => true
  | _ => false

/-- The memory of a device, the requests on it and the cleanups of its handles. -/
structure CloseWorld where
  /-- The memory and the requests between two sections. -/
  world : MemWorld
  /-- The requests that are issued and have not run their first section. -/
  issued : List (Handle × MemRequest)
  /-- The cleanup of each handle. -/
  phase : Handle → CleanupPhase

/-- The steps. -/
inductive CloseEvent
  /-- A handle is opened. -/
  | create
  /-- A request is issued on a handle. -/
  | issue (F : Handle) (r : MemRequest)
  /-- An issued request, named by its position, runs its first section. -/
  | start (k : ℕ)
  /-- A request runs the rest. -/
  | finish (p : Pending)
  /-- The cleanup of a handle runs its next section. -/
  | cleanup (F : Handle)

/-- A handle gets to a phase and leaves some memory. -/
def CloseWorld.enter (w : CloseWorld) (F : Handle) (phase : CleanupPhase) (m : MemoryState) :
    CloseWorld :=
  { w with world := { w.world with mem := m }, phase := Function.update w.phase F phase }

/-- The next section of the cleanup of a handle. -/
def CloseWorld.cleanup (detached : Bool) (w : CloseWorld) (F : Handle) : Option CloseWorld :=
  match w.phase F with
  | .running => some (w.enter F .locksReleased w.world.mem)
  | .locksReleased => some (w.enter F .delisted w.world.mem)
  | .delisted => some (w.enter F .drained (cleanupFileSection detached w.world.mem F))
  | .drained => some (w.enter F .closed (cleanupTlbSection w.world.mem F))
  | .closed => none

/-- One step; `none` is a step that cannot be taken. Nothing is issued on a handle
whose cleanup has begun. -/
def CloseWorld.next (c : MemoryConfig) (detached : Bool) (w : CloseWorld) :
    CloseEvent → Option CloseWorld
  | .create => some { w with world := { w.world with nextFile := w.world.nextFile + 1 } }
  | .issue F r =>
      if F < w.world.nextFile ∧ w.phase F = .running then
        some { w with issued := w.issued ++ [(F, r)] }
      else none
  | .start k =>
      match w.issued[k]? with
      | none => none
      | some (F, r) =>
          some { w with world := w.world.start c detached F r, issued := w.issued.eraseIdx k }
  | .finish p =>
      if p ∈ w.world.pending then some { w with world := w.world.finish detached p } else none
  | .cleanup F => if F < w.world.nextFile then w.cleanup detached F else none

/-- A started device, nothing open. -/
def CloseWorld.started (c : MemoryConfig) (regs : Fin 16 → AtuRegs) : CloseWorld :=
  ⟨.started c regs, [], fun _ => .running⟩

/-- The sections of a cleanup, run back to back, leave what `TtMemoryFileCleanup` leaves. -/
theorem cleanup_sections {c : MemoryConfig} {detached : Bool} {w : CloseWorld} {F : Handle}
    (hF : F < w.world.nextFile) (hphase : w.phase F = .running) :
    ∃ w', runList (CloseWorld.next c detached) w (List.replicate 4 (.cleanup F)) = some w' ∧
      w'.world.mem = ttMemoryFileCleanup detached w.world.mem F ∧ w'.phase F = .closed := by
  simp [List.replicate, runList, CloseWorld.next, CloseWorld.cleanup, CloseWorld.enter, hF,
    hphase, ttMemoryFileCleanup]

/-- The requests that put a record of the handle into its lists or slots. -/
def MemRequest.stores : MemRequest → Bool
  | .allocateDmaBuf .. => true
  | .map .. => true
  | .pinPages .. => true
  | _ => false

/-- `ALLOCATE_TLB` with an output buffer that holds its answer; with a shorter one
the window is released again. -/
def MemRequest.keepsWindow : MemRequest → Bool
  | .allocateTlb io _ => decide (ttCompleteSizedOutBuffer io 16 32 = .success)
  | _ => false

/-- The step stores nothing for a handle behind the section of its cleanup that
releases such things. -/
def InTime (w : CloseWorld) : CloseEvent → Prop
  | .start k => ∀ q ∈ w.issued[k]?,
      (q.2.stores = true → (w.phase q.1).isDrained = false) ∧
        (q.2.keepsWindow = true → w.phase q.1 ≠ .closed)
  | _ => True

instance (w : CloseWorld) : (e : CloseEvent) → Decidable (InTime w e)
  | .start k => inferInstanceAs (Decidable (∀ q ∈ w.issued[k]?,
      (q.2.stores = true → (w.phase q.1).isDrained = false) ∧
        (q.2.keepsWindow = true → w.phase q.1 ≠ .closed)))
  | .create => .isTrue trivial
  | .issue _ _ => .isTrue trivial
  | .finish _ => .isTrue trivial
  | .cleanup _ => .isTrue trivial

/-- The requests issued on a handle have finished. -/
def CloseWorld.Finished (w : CloseWorld) (F : Handle) : Prop :=
  (∀ q ∈ w.issued, q.1 ≠ F) ∧ ∀ p ∈ w.world.pending, p.file ≠ F

instance (w : CloseWorld) (F : Handle) : Decidable (w.Finished F) :=
  inferInstanceAs (Decidable (_ ∧ _))

/-- A handle owns nothing. -/
structure OwnsNothing (w : CloseWorld) (F : Handle) : Prop where
  /-- No window. -/
  windows : ∀ id, w.world.mem.tlbOwner id ≠ some F
  /-- No views, no pinnings and no buffers. -/
  file : (w.world.mem.file F).Empty
  /-- No outbound region. -/
  regions : ∀ r, (w.world.mem.iatu.slots r).used = true →
    (w.world.mem.iatu.slots r).owner ≠ some F
  /-- The count of buffer bytes has those of the other handles only. -/
  bytes : w.world.mem.dmaBufBytes =
    ∑ G ∈ (Finset.range w.world.nextFile).erase F, (w.world.mem.file G).bytes

/-- The invariant of the steps that store in time. -/
structure Closing (w : CloseWorld) : Prop where
  /-- The books agree. -/
  books : w.world.Books
  /-- A handle that is being closed was opened. -/
  known : ∀ F, w.phase F ≠ .running → F < w.world.nextFile
  /-- A request was issued on an opened handle. -/
  issued : ∀ q ∈ w.issued, q.1 < w.world.nextFile
  /-- The windows with an owner are in the table. -/
  pool : ∀ id F, w.world.mem.tlbOwner id = some F → id < tlbTotal
  /-- A drained handle has no records. -/
  drained : ∀ F, (w.phase F).isDrained = true → (w.world.mem.file F).Empty
  /-- A window of a closed handle is about to be released. -/
  windows : ∀ F, w.phase F = .closed → ∀ id, w.world.mem.tlbOwner id = some F →
    .allocateTlb F id false ∈ w.world.pending

section Sections

variable {c : MemoryConfig} {detached : Bool} {w : MemWorld} {F : Handle}

/-- The first section of a request opens no handle and leaves the others in flight. -/
theorem start_kept (c : MemoryConfig) (detached : Bool) (w : MemWorld) (F : Handle)
    (r : MemRequest) :
    (w.start c detached F r).nextFile = w.nextFile ∧
      ∀ p ∈ w.pending, p ∈ (w.start c detached F r).pending := by
  cases r with
  | allocateTlb io size =>
    rcases start_allocateTlb_cases c detached w F io size with hw | ⟨id, _, _, hw⟩
    · rw [hw]
      exact ⟨rfl, fun _ hp => hp⟩
    · rw [hw]
      exact ⟨rfl, fun _ hp => List.mem_cons_of_mem _ hp⟩
  | unmap io userVa reserved =>
    rcases start_unmap_cases c detached w F io userVa reserved with hw | ⟨v, l, _, hw⟩
    · rw [hw]
      exact ⟨rfl, fun _ hp => hp⟩
    · rw [hw]
      exact ⟨rfl, fun _ hp => List.mem_cons_of_mem _ hp⟩
  | unpinPages io i =>
    rcases start_unpinPages_cases c detached w F io i with hw | ⟨p, l, _, hw⟩
    · rw [hw]
      exact ⟨rfl, fun _ hp => hp⟩
    · rw [hw]
      exact ⟨rfl, fun _ hp => List.mem_cons_of_mem _ hp⟩
  | _ => exact ⟨rfl, fun _ hp => hp⟩

/-- A request that stores nothing leaves an empty handle empty. -/
theorem FileMemory.Empty.start {r : MemRequest} (h : (w.mem.file F).Empty)
    (hr : r.stores = false) : ((w.start c detached F r).mem.file F).Empty := by
  cases r with
  | allocateTlb io size =>
    rcases start_allocateTlb_cases c detached w F io size with hw | ⟨id, _, _, hw⟩
    all_goals
      rw [hw]
      exact h
  | freeTlb io id =>
    obtain ⟨used, owner, hm⟩ := ttIoctlFreeTlb_windows w.mem F io id
    show FileMemory.Empty ((ttIoctlFreeTlb w.mem F io id).mem.file F)
    rw [hm]
    exact h
  | allocateDmaBuf io i env => cases hr
  | freeDmaBufEx io i =>
    show FileMemory.Empty ((ttIoctlFreeDmaBufEx detached w.mem F io i).mem.file F)
    rcases ttIoctlFreeDmaBufEx_cases detached w.mem F io i with ⟨_, hm⟩ | ⟨_, b, hi, hb, _⟩
    · rw [hm]
      exact h
    · have hmem : b ∈ (w.mem.file F).bufs := FileMemory.mem_bufs.mpr ⟨_, hi, hb⟩
      rw [h.bufs] at hmem
      cases hmem
  | map io i env => cases hr
  | unmap io userVa reserved =>
    rcases start_unmap_cases c detached w F io userVa reserved with hw | ⟨v, l, hperm, hw⟩
    · rw [hw]
      exact h
    · rw [h.mappings] at hperm
      cases hperm.symm.eq_nil
  | pinPages io i env => cases hr
  | unpinPages io i =>
    rcases start_unpinPages_cases c detached w F io i with hw | ⟨p, l, hperm, hw⟩
    · rw [hw]
      exact h
    · rw [h.pinnings] at hperm
      cases hperm.symm.eq_nil

/-- What the first section of a request can do to the owner of a window: nothing, or
the window is released, or the handle claims it. -/
theorem start_tlbOwner (hok : SlotsOk w.mem.iatu.slots) (c : MemoryConfig) (detached : Bool)
    (F : Handle) (r : MemRequest) (id : ℕ) :
    (w.start c detached F r).mem.tlbOwner id = w.mem.tlbOwner id ∨
      (w.start c detached F r).mem.tlbOwner id = none ∨
      (id < tlbTotal ∧ (w.start c detached F r).mem.tlbOwner id = some F ∧
        .allocateTlb F id r.keepsWindow ∈ (w.start c detached F r).pending) := by
  cases hr : r.onPool with
  | false => exact .inl (congrFun (windows_start hok c detached F hr).2 id)
  | true =>
    cases r with
    | allocateTlb io size =>
      rcases start_allocateTlb_cases c detached w F io size with hw | ⟨id', hid', _, hw⟩
      · rw [hw]
        exact .inl rfl
      · rw [hw]
        by_cases hid : id = id'
        · subst hid
          exact .inr (.inr ⟨hid', Function.update_self _ _ _, List.mem_cons_self ..⟩)
        · exact .inl (Function.update_of_ne hid _ _)
    | freeTlb io id' =>
      show (ttIoctlFreeTlb w.mem F io id').mem.tlbOwner id = _ ∨
        (ttIoctlFreeTlb w.mem F io id').mem.tlbOwner id = none ∨ _
      rcases ttIoctlFreeTlb_cases w.mem F io id' with ⟨_, hm⟩ | ⟨_, _, _, hm⟩
      · rw [hm]
        exact .inl rfl
      · rw [hm]
        by_cases hid : id = id'
        · subst hid
          exact .inr (.inl (Function.update_self _ _ _))
        · exact .inl (Function.update_of_ne hid _ _)
    | _ => cases hr

end Sections

section Steps

variable {c : MemoryConfig} {detached : Bool} {w w' : CloseWorld} {F : Handle}

/-- The first section of an issued request keeps the invariant. -/
theorem Closing.start (h : Closing w) {k : ℕ} {r : MemRequest}
    (hk : w.issued[k]? = some (F, r)) (hin : InTime w (.start k)) :
    Closing { w with world := w.world.start c detached F r, issued := w.issued.eraseIdx k } := by
  have hF : F < w.world.nextFile := h.issued _ (List.mem_of_getElem? hk)
  have hok : SlotsOk w.world.mem.iatu.slots := h.books.apertures.ok
  obtain ⟨hstores, hkeeps⟩ := hin _ hk
  obtain ⟨hnext, hpending⟩ := start_kept c detached w.world F r
  refine ⟨h.books.start hF r, ?_, ?_, ?_, ?_, ?_⟩
  · intro G hG
    rw [hnext]
    exact h.known G hG
  · intro q hq
    rw [hnext]
    exact h.issued q (List.mem_of_mem_eraseIdx hq)
  · intro id G hid
    rcases start_tlbOwner hok c detached F r id with hkept | hnone | ⟨hlt, _⟩
    · exact h.pool id G (hkept.symm.trans hid)
    · rw [hnone] at hid
      cases hid
    · exact hlt
  · intro G hG
    by_cases hGF : G = F
    · subst hGF
      have hr : r.stores = false := by
        by_contra hne
        rw [hstores (Bool.not_eq_false _ ▸ hne)] at hG
        cases hG
      exact (h.drained G hG).start hr
    · rw [othersKept_start hok c detached F r G hGF]
      exact h.drained G hG
  · intro G hG id hid
    rcases start_tlbOwner hok c detached F r id with hkept | hnone | ⟨_, hsome, hmem⟩
    · exact hpending _ (h.windows G hG id (hkept.symm.trans hid))
    · rw [hnone] at hid
      cases hid
    · obtain rfl : F = G := Option.some.inj (hsome.symm.trans hid)
      have hr : r.keepsWindow = false := by
        by_contra hne
        exact hkeeps (Bool.not_eq_false _ ▸ hne) hG
      rwa [hr] at hmem

/-- The rest of a request leaves the records of the handles. -/
theorem finish_file (w : MemWorld) (detached : Bool) (p : Pending) :
    (w.finish detached p).mem.file = w.mem.file := by
  cases p with
  | unmap G v => rfl
  | unpin G q => rfl
  | allocateTlb G id ok =>
    cases ok with
    | true => rfl
    | false => rfl

/-- A window with an owner had it before the rest of a request, and the request was
not the one that releases it. -/
theorem finish_tlbOwner {w : MemWorld} {p : Pending} {id : ℕ} {G : Handle}
    (hid : (w.finish detached p).mem.tlbOwner id = some G) :
    w.mem.tlbOwner id = some G ∧ p ≠ .allocateTlb G id false := by
  cases p with
  | unmap F v => exact ⟨hid, nofun⟩
  | unpin F q => exact ⟨hid, nofun⟩
  | allocateTlb F id' ok =>
    cases ok with
    | true => exact ⟨hid, nofun⟩
    | false =>
      have hupd : Function.update w.mem.tlbOwner id' none id = some G := hid
      by_cases heq : id = id'
      · subst heq
        rw [Function.update_self] at hupd
        cases hupd
      · rw [Function.update_of_ne heq] at hupd
        refine ⟨hupd, ?_⟩
        rintro ⟨⟩
        exact heq rfl

/-- The rest of a request keeps the invariant. -/
theorem Closing.finish (h : Closing w) {p : Pending} (hp : p ∈ w.world.pending) :
    Closing { w with world := w.world.finish detached p } := by
  refine ⟨h.books.finish hp, h.known, h.issued, ?_, ?_, ?_⟩
  · intro id G hid
    exact h.pool id G (finish_tlbOwner hid).1
  · intro G hG
    rw [finish_file]
    exact h.drained G hG
  · intro G hG id hid
    obtain ⟨hbefore, hne⟩ := finish_tlbOwner hid
    exact (List.mem_erase_of_ne hne.symm).mpr (h.windows G hG id hbefore)

/-- A section of a cleanup keeps the invariant if it keeps the books and the other
handles, empties the handle where the phase says so, and releases its windows where
the phase says so. -/
theorem Closing.enter (h : Closing w) (hF : F < w.world.nextFile) {phase : CleanupPhase}
    {m : MemoryState} (hbooks : Bookkeeping w.world.nextFile (pendingRegions w.world.pending) m)
    (hothers : ∀ G, G ≠ F → m.file G = w.world.mem.file G)
    (hself : phase.isDrained = true → (m.file F).Empty)
    (howner : ∀ id G, m.tlbOwner id = some G →
      w.world.mem.tlbOwner id = some G ∧ (phase = .closed → G ≠ F)) :
    Closing (w.enter F phase m) := by
  have hphase : (w.enter F phase m).phase F = phase := Function.update_self _ _ _
  have hphases : ∀ G, G ≠ F → (w.enter F phase m).phase G = w.phase G := fun G hG =>
    Function.update_of_ne hG _ _
  refine ⟨hbooks, ?_, h.issued, fun id G hid => h.pool id G (howner id G hid).1, ?_, ?_⟩
  · intro G hG
    by_cases hGF : G = F
    · exact hGF ▸ hF
    · rw [hphases G hGF] at hG
      exact h.known G hG
  · intro G hG
    by_cases hGF : G = F
    · subst hGF
      rw [hphase] at hG
      exact hself hG
    · rw [hphases G hGF] at hG
      show FileMemory.Empty (m.file G)
      rw [hothers G hGF]
      exact h.drained G hG
  · intro G hG id hid
    obtain ⟨hbefore, hne⟩ := howner id G hid
    by_cases hGF : G = F
    · rw [hGF, hphase] at hG
      exact absurd hGF (hne hG)
    · rw [hphases G hGF] at hG
      exact h.windows G hG id hbefore

/-- The windows of a handle are released, the others keep their owner. -/
theorem cleanupTlbSection_owner {m : MemoryState} {id : ℕ} {G : Handle}
    (hid : (cleanupTlbSection m F).tlbOwner id = some G) :
    m.tlbOwner id = some G ∧ (id < tlbTotal → G ≠ F) := by
  simp only [cleanupTlbSection] at hid
  split at hid
  · cases hid
  · rename_i hkept
    refine ⟨hid, ?_⟩
    rintro hlt rfl
    exact hkept ⟨hlt, hid⟩

/-- Every section of a cleanup keeps the invariant. -/
theorem Closing.cleanup (h : Closing w) (hF : F < w.world.nextFile)
    (hstep : w.cleanup detached F = some w') : Closing w' := by
  unfold CloseWorld.cleanup at hstep
  split at hstep
  · cases hstep
    exact h.enter hF h.books (fun _ _ => rfl) nofun (fun _ _ hid => ⟨hid, nofun⟩)
  · cases hstep
    exact h.enter hF h.books (fun _ _ => rfl) nofun (fun _ _ hid => ⟨hid, nofun⟩)
  · obtain ⟨hbooks, hempty, hothers, _, howner, _⟩ := Bookkeeping.drain h.books detached hF
    rw [← Option.some.inj hstep]
    exact h.enter hF hbooks hothers (fun _ => hempty) (fun _ _ hid => ⟨howner ▸ hid, nofun⟩)
  · rename_i hphase
    cases hstep
    refine h.enter hF (Bookkeeping.windows h.books _ _) (fun _ _ => rfl) ?_ ?_
    · intro _
      exact h.drained F (by rw [hphase]; rfl)
    · intro id G hid
      obtain ⟨hbefore, hne⟩ := cleanupTlbSection_owner hid
      exact ⟨hbefore, fun _ => hne (h.pool id G hbefore)⟩
  · cases hstep

/-- Every step that stores in time keeps the invariant. -/
theorem Closing.next (h : Closing w) {e : CloseEvent} (hin : InTime w e)
    (hstep : w.next c detached e = some w') : Closing w' := by
  cases e with
  | create =>
    cases hstep
    refine ⟨Bookkeeping.create h.books, ?_, ?_, h.pool, h.drained, h.windows⟩
    · exact fun F hF => Nat.lt_succ_of_lt (h.known F hF)
    · exact fun q hq => Nat.lt_succ_of_lt (h.issued q hq)
  | issue F r =>
    obtain ⟨hopen, rfl⟩ := guard_of_eq_some hstep
    refine ⟨h.books, h.known, ?_, h.pool, h.drained, h.windows⟩
    intro q hq
    rcases List.mem_append.mp hq with hold | hnew
    · exact h.issued q hold
    · rw [List.mem_singleton.mp hnew]
      exact hopen.1
  | start k =>
    simp only [CloseWorld.next] at hstep
    split at hstep
    · cases hstep
    · rename_i F r hk
      cases hstep
      exact h.start hk hin
  | finish p =>
    obtain ⟨hp, rfl⟩ := guard_of_eq_some hstep
    exact h.finish hp
  | cleanup F =>
    simp only [CloseWorld.next] at hstep
    split at hstep
    swap
    · cases hstep
    exact h.cleanup ‹_› hstep

/-- Nothing is open on a started device. -/
theorem Closing.started (c : MemoryConfig) (regs : Fin 16 → AtuRegs) :
    Closing (.started c regs) where
  books := MemWorld.Books.started c regs
  known := fun F hF => absurd rfl hF
  issued := fun q hq => by cases hq
  pool := fun id F hid => by cases hid
  drained := fun F hF => by cases hF
  windows := fun F hF => by cases hF

end Steps

/-- In a run whose steps store in time, a handle owns nothing once its cleanup and its
requests have finished. -/
theorem closed_owns_nothing {c : MemoryConfig} {detached : Bool} {regs : Fin 16 → AtuRegs}
    {es : List CloseEvent} {w : CloseWorld}
    (hrun : Run (restrict (partialGraph (CloseWorld.next c detached)) InTime)
      (.started c regs) es w) {F : Handle} (hclosed : w.phase F = .closed)
    (hdone : w.Finished F) : OwnsNothing w F := by
  have h : Closing w :=
    hrun.invariant (fun _ _ _ h hstep => h.next hstep.1 hstep.2) (Closing.started c regs)
  have hempty : (w.world.mem.file F).Empty := h.drained F (by rw [hclosed]; rfl)
  refine ⟨?_, hempty, ?_, ?_⟩
  · intro id hid
    exact hdone.2 _ (h.windows F hclosed id hid) rfl
  · intro r hused howner
    have hr := ((h.books.apertures.holds F).mem r).mpr ⟨hused, howner⟩
    rw [allRegions, hempty.regions, List.nil_append, pendingRegions, List.mem_filterMap] at hr
    obtain ⟨p, hp, hregion⟩ := hr
    refine hdone.2 p hp ?_
    cases p with
    | unmap G v => cases hregion
    | unpin G q =>
      simp only [Pending.region] at hregion
      split at hregion
      · assumption
      · cases hregion
    | allocateTlb G id ok => cases hregion
  · have hphase : w.phase F ≠ .running := by simp [hclosed]
    have hF : F < w.world.nextFile := h.known F hphase
    rw [h.books.bytes, ← Finset.add_sum_erase _ _ (Finset.mem_range.mpr hF), hempty.bytes,
      zero_add]

/-- The requests of a handle: a buffer with an aperture, a view of it and a window. -/
def threeRequests : List CloseEvent :=
  [.create,
   .issue 0 (.allocateDmaBuf ⟨24, 64⟩ ⟨4096, 3, true⟩ ⟨some (0x10000, 0x10000), true⟩),
   .issue 0 (.map ⟨16, 24⟩ ⟨mmapOffsetDmaBuf + 3 * 2 ^ 32, 4096⟩ ⟨true, true, some 0x5000, 7⟩),
   .issue 0 (.allocateTlb ⟨16, 48⟩ (2 ^ 21))]

/-- The requests run between the sections of the cleanup, each in time. -/
def closedInTime : List CloseEvent :=
  threeRequests ++ [.start 0, .cleanup 0, .cleanup 0, .start 0, .cleanup 0, .start 0, .cleanup 0,
    .finish (.allocateTlb 0 0 true)]

/-- The handle owns nothing afterwards. -/
theorem closed_owns_nothing_closedInTime :
    ∃ w, Run (restrict (partialGraph (CloseWorld.next blackholeConfig false)) InTime)
        (.started blackholeConfig fun _ _ => 0) closedInTime w ∧
      w.phase 0 = .closed ∧ w.Finished 0 ∧ OwnsNothing w 0 := by
  have heval : ((runList (guarded (fun w e => decide (InTime w e))
      (CloseWorld.next blackholeConfig false)) (.started blackholeConfig fun _ _ => 0)
      closedInTime).map fun w => decide (w.phase 0 = .closed) && decide (w.Finished 0)) =
        some true := by decide +kernel
  obtain ⟨w, hw, htest⟩ := Option.map_eq_some_iff.mp heval
  simp only [Bool.and_eq_true, decide_eq_true_eq] at htest
  have hrun := run_of_guarded (fun _ _ h => of_decide_eq_true h) hw
  exact ⟨w, hrun, htest.1, htest.2, closed_owns_nothing hrun htest.1 htest.2⟩

/-- The requests run behind the cleanup. -/
def closedTooEarly : List CloseEvent :=
  threeRequests ++ List.replicate 4 (.cleanup 0) ++ [.start 0, .start 0, .start 0,
    .finish (.allocateTlb 0 0 true)]

/-- The closed handle keeps a window, a buffer and its bytes, a view and a region. -/
theorem closedTooEarly_owns :
    ∃ w, Run (partialGraph (CloseWorld.next blackholeConfig false))
        (.started blackholeConfig fun _ _ => 0) closedTooEarly w ∧
      w.phase 0 = .closed ∧ w.Finished 0 ∧ ¬OwnsNothing w 0 ∧
      w.world.mem.tlbOwner 0 = some 0 ∧ (w.world.mem.file 0).mappings.length = 1 ∧
      (w.world.mem.file 0).dmaBufs 3 ≠ none ∧ (w.world.mem.iatu.slots 0).owner = some 0 ∧
      w.world.mem.dmaBufBytes = 4096 := by
  have heval : ((runList (CloseWorld.next blackholeConfig false)
      (.started blackholeConfig fun _ _ => 0) closedTooEarly).map fun w =>
        decide (w.phase 0 = .closed) && decide (w.Finished 0) &&
          (decide (w.world.mem.tlbOwner 0 = some 0) &&
            decide ((w.world.mem.file 0).mappings.length = 1) &&
            decide ((w.world.mem.file 0).dmaBufs 3 ≠ none) &&
            decide ((w.world.mem.iatu.slots 0).owner = some 0) &&
            decide (w.world.mem.dmaBufBytes = 4096))) = some true := by decide +kernel
  obtain ⟨w, hw, htest⟩ := Option.map_eq_some_iff.mp heval
  simp only [Bool.and_eq_true, decide_eq_true_eq] at htest
  obtain ⟨⟨hclosed, hdone⟩, ⟨⟨⟨hwindow, hview⟩, hbuf⟩, hregion⟩, hbytes⟩ := htest
  exact ⟨w, run_of_runList hw, hclosed, hdone, fun hnone => hnone.windows 0 hwindow, hwindow,
    hview, hbuf, hregion, hbytes⟩

end TtKmd
