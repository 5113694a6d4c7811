import TtKmd.Device.Resources
import TtKmd.Tlb.Pool

/-!
# The pool of TLB windows under the entry points

`ALLOCATE_TLB`, `FREE_TLB` and the close of a handle change the arrays `TlbUsed` and
`TlbOwner`; every other entry point leaves them alone. A window that is free has no
owner, on any kind of device.
-/

namespace TtKmd

open Lib

/-- The arrays of the pool are as they were. -/
def SamePool (m m' : MemoryState) : Prop := m'.tlbUsed = m.tlbUsed ∧ m'.tlbOwner = m.tlbOwner

/-- The windows that are free have no owner. -/
def FreeUnowned (m : MemoryState) : Prop := ∀ id, m.tlbUsed id = false → m.tlbOwner id = none

section Pool

variable {d d' : DeviceContext} {m m' m'' : MemoryState} {F : Handle}

/-- One step after another. -/
theorem SamePool.trans (h : SamePool m m') (h' : SamePool m' m'') : SamePool m m'' :=
  ⟨h'.1.trans h.1, h'.2.trans h.2⟩

/-- The rounds of `TtProcessNotify` leave the arrays alone. -/
theorem samePool_processExits (detached : Bool) (Fs : List Handle) (m : MemoryState) :
    SamePool m (Fs.foldl (ttMemoryProcessExit detached) m) := by
  induction Fs generalizing m with
  | nil => exact ⟨rfl, rfl⟩
  | cons F Fs ih =>
    rw [List.foldl_cons]
    obtain ⟨u', hu'⟩ := ttMemoryProcessExit_eq detached m F
    have hone : SamePool m (ttMemoryProcessExit detached m F) := by
      rw [hu']
      exact ⟨rfl, rfl⟩
    exact hone.trans (ih _)

/-- `TtResetZapMappings` leaves the arrays alone. -/
theorem samePool_zap (m : MemoryState) (fileList : List Handle) :
    SamePool m (ttResetZapMappings m fileList) := by
  unfold ttResetZapMappings
  induction fileList generalizing m with
  | nil => exact ⟨rfl, rfl⟩
  | cons F rest ih =>
    rw [List.foldl_cons]
    have hone : SamePool m (zapFile m F) := ⟨rfl, rfl⟩
    exact hone.trans (ih _)

/-- The handlers of the other requests leave the arrays alone. -/
theorem samePool_handle (hok : SlotsOk d.mem.iatu.slots) (caller : Process) {r : Request}
    (halloc : ∀ io size, r ≠ .allocateTlb io size) (hfree : ∀ io id, r ≠ .freeTlb io id) :
    SamePool d.mem (handle d F caller r).device.mem := by
  cases r with
  | allocateDmaBuf io i env =>
    exact ttIoctlAllocateDmaBuf_windows d.config d.detached F io hok i env
  | freeDmaBufEx io i => exact ttIoctlFreeDmaBufEx_windows d.detached d.mem F io i
  | allocateTlb io size => exact absurd rfl (halloc io size)
  | freeTlb io id => exact absurd rfl (hfree io id)
  | map io i env => exact ttIoctlMap_windows d.config d.mem F io i _
  | unmap io userVa reserved => exact ttIoctlUnmap_windows d.mem F io userVa reserved
  | pinPages io i env => exact ttIoctlPinPages_windows d.config d.detached F io hok i env
  | unpinPages io i => exact ttIoctlUnpinPages_windows d.detached d.mem F io i
  | lockCtl io i env => exact ⟨rfl, rfl⟩
  | resetDevice io i env =>
    show SamePool d.mem (ttIoctlResetDevice d F io i env).device.mem
    rcases ttIoctlResetDevice_cases d F io i env with ⟨_, hd' | hd' | hd'⟩ | ⟨_, hw, hd'⟩
    · rw [hd']
      exact ⟨rfl, rfl⟩
    · rw [hd']
      exact samePool_zap _ _
    · rw [hd']
      exact ⟨rfl, rfl⟩
    · rw [hd']
      exact samePool_zap _ _
  | other nr status => exact ⟨rfl, rfl⟩

/-- Steps that leave the arrays alone. -/
theorem FreeUnowned.same (h : FreeUnowned m) (hsame : SamePool m m') : FreeUnowned m' := by
  intro id hid
  rw [hsame.1] at hid
  rw [hsame.2]
  exact h id hid

/-- A window is claimed. -/
theorem FreeUnowned.hold (h : FreeUnowned m) (id : ℕ) : FreeUnowned (holdTlb m F id) := by
  intro id' hid'
  by_cases heq : id' = id
  · subst heq
    simp [holdTlb] at hid'
  · simp only [holdTlb, Function.update_of_ne heq] at hid' ⊢
    exact h id' hid'

/-- A window is released. -/
theorem FreeUnowned.release (h : FreeUnowned m) (id : ℕ) : FreeUnowned (releaseTlb m id) := by
  intro id' hid'
  by_cases heq : id' = id
  · subst heq
    simp [releaseTlb]
  · simp only [releaseTlb, Function.update_of_ne heq] at hid' ⊢
    exact h id' hid'

/-- The handlers keep the free windows without owners. -/
theorem FreeUnowned.handle (h : FreeUnowned d.mem) (hok : SlotsOk d.mem.iatu.slots)
    (caller : Process) (r : Request) : FreeUnowned (handle d F caller r).device.mem := by
  by_cases halloc : ∃ io size, r = .allocateTlb io size
  · obtain ⟨io, size, rfl⟩ := halloc
    show FreeUnowned (ttIoctlAllocateTlb d.config d.mem F io size).mem
    rcases ttIoctlAllocateTlb_cases d.config d.mem F io size with
      ⟨_, _, hreply⟩ | ⟨_, _, ⟨_, hreply⟩ | ⟨id, _, _, _, hreply⟩⟩
    · rw [hreply]
      exact h
    · rw [hreply]
      exact h
    · rw [hreply]
      split
      · exact h.hold id
      · exact (h.hold id).release id
  by_cases hfree : ∃ io id, r = .freeTlb io id
  · obtain ⟨io, id, rfl⟩ := hfree
    show FreeUnowned (ttIoctlFreeTlb d.mem F io id).mem
    rcases ttIoctlFreeTlb_cases d.mem F io id with ⟨_, hm⟩ | ⟨_, _, _, hm⟩
    · rw [hm]
      exact h
    · rw [hm]
      exact h.release id
  · refine h.same (samePool_handle hok caller ?_ ?_)
    · intro io size hr
      exact halloc ⟨io, size, hr⟩
    · intro io id hr
      exact hfree ⟨io, id, hr⟩

/-- Every step keeps the free windows without owners. -/
theorem FreeUnowned.next (h : FreeUnowned d.mem) (hok : SlotsOk d.mem.iatu.slots) {e : Event}
    (hstep : d.next e = some d') : FreeUnowned d'.mem := by
  cases e with
  | create opener =>
    cases hstep
    exact h
  | request F caller r =>
    obtain ⟨_, rfl⟩ := DeviceContext.next_request hstep
    unfold TtKmd.dispatch
    split
    · exact h
    split
    · exact h
    · exact h.handle hok caller r
  | cleanup F =>
    obtain ⟨_, rfl⟩ := DeviceContext.next_cleanup hstep
    have hsection : FreeUnowned (cleanupFileSection d.detached d.mem F) :=
      h.same (cleanupFileSection_windows d.detached d.mem F)
    intro id hid
    simp only [ttEvtFileCleanup, ttMemoryFileCleanup, cleanupTlbSection] at hid ⊢
    split
    · rfl
    · rename_i hkept
      rw [if_neg hkept] at hid
      exact hsection id hid
  | processExit process =>
    cases hstep
    exact h.same (samePool_processExits _ _ _)
  | surpriseRemoval =>
    cases hstep
    exact h.same (samePool_zap _ _)
  | cancel k =>
    cases hstep
    exact h

end Pool

end TtKmd
