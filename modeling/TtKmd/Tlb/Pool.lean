import TtKmd.Tlb.Registers
import TtKmd.Memory.Bookkeeping
import TtKmd.Memory.Mapping
import TtKmd.Lib.Runs

/-!
# The pool of TLB windows

Five operations share the arrays `TlbUsed` and `TlbOwner`: claims, releases,
configurations, views and the close of a handle. The driver keeps window 201 for itself
and programs it at any time. Each operation is one step here. In every reachable state a
window is used exactly when a handle owns it or it is the driver's, the used windows are
described by ranges that do not overlap, and no step of a handle touches a window that
another handle owns.
-/

namespace TtKmd

open Lib

/-- The memory of a device and the register page of its windows. -/
structure TlbWorld where
  /-- The memory. -/
  mem : MemoryState
  /-- The register page, by byte offset. -/
  regs : ℕ → ℕ

/-- The steps. -/
inductive TlbEvent
  /-- `ALLOCATE_TLB`. -/
  | allocateTlb (F : Handle) (io : Io) (size : ℕ)
  /-- `FREE_TLB`. -/
  | freeTlb (F : Handle) (io : Io) (id : ℕ)
  /-- `CONFIGURE_TLB`. -/
  | configureTlb (F : Handle) (io : Io) (i : ConfigureTlbIn)
  /-- `MAP`. -/
  | map (F : Handle) (io : Io) (i : MapIn) (env : MapEnv)
  /-- `UNMAP`. -/
  | unmap (F : Handle) (io : Io) (userVa reserved : ℕ)
  /-- `TtMemoryFileCleanup`. -/
  | close (F : Handle) (detached : Bool)
  /-- The driver programs its own window. -/
  | kernelTlb (x y addr noc : ℕ)

/-- The handle that takes the step; `none` is the driver. -/
def TlbEvent.file : TlbEvent → Option Handle
  | .allocateTlb F _ _ => some F
  | .freeTlb F _ _ => some F
  | .configureTlb F _ _ => some F
  | .map F _ _ _ => some F
  | .unmap F _ _ _ => some F
  | .close F _ => some F
  | .kernelTlb .. => none

/-- One step. -/
def TlbWorld.next (c : MemoryConfig) (w : TlbWorld) : TlbEvent → TlbWorld
  | .allocateTlb F io size => { w with mem := (ttIoctlAllocateTlb c w.mem F io size).mem }
  | .freeTlb F io id => { w with mem := (ttIoctlFreeTlb w.mem F io id).mem }
  | .configureTlb F io i => { w with regs := (ttIoctlConfigureTlb w.mem w.regs F io i).2 }
  | .map F io i env => { w with mem := (ttIoctlMap c w.mem F io i env).mem }
  | .unmap F io userVa reserved => { w with mem := (ttIoctlUnmap w.mem F io userVa reserved).mem }
  | .close F detached => { w with mem := ttMemoryFileCleanup detached w.mem F }
  | .kernelTlb x y addr noc =>
      { w with regs := writeRegs w.regs (ttBhConfigureKernelTlb x y addr noc) }

/-- A started device, nothing open. -/
def TlbWorld.started (c : MemoryConfig) (iatu : Fin 16 → AtuRegs) (regs : ℕ → ℕ) : TlbWorld :=
  ⟨.started c iatu, regs⟩

/-- Two states agree on a window: its marks and its registers. -/
def SameWindow (w w' : TlbWorld) (id : ℕ) : Prop :=
  w'.mem.tlbUsed id = w.mem.tlbUsed id ∧ w'.mem.tlbOwner id = w.mem.tlbOwner id ∧
    ∀ offset ∈ windowOffsets id, w'.regs offset = w.regs offset

/-- What holds of the two arrays in every reachable state. -/
structure PoolOk (c : MemoryConfig) (m : MemoryState) : Prop where
  /-- A window is used exactly when a handle owns it or it is the driver's. -/
  used_iff : ∀ id, m.tlbUsed id = true ↔ m.tlbOwner id ≠ none ∨ id = kernelTlbIndex
  /-- The driver's window has no owner. -/
  kernel : m.tlbOwner kernelTlbIndex = none
  /-- Only windows of the pools are used. -/
  bound : ∀ id, m.tlbUsed id = true → id < tlb2mCount + c.tlb4gCount

section Steps

variable {c : MemoryConfig} {m : MemoryState} {F : Handle}

/-- The arrays of a started Blackhole. -/
theorem PoolOk.started (hbh : c.isBlackhole = true) (iatu : Fin 16 → AtuRegs) :
    PoolOk c (.started c iatu) := by
  refine ⟨?_, rfl, ?_⟩
  · intro id
    simp [MemoryState.started, hbh]
  · intro id hid
    have hk : id = kernelTlbIndex := by simpa [MemoryState.started, hbh] using hid
    rw [hk]
    exact Nat.lt_of_lt_of_le (by decide) (Nat.le_add_right _ _)

/-- A free window of the pools is claimed. -/
theorem PoolOk.hold (h : PoolOk c m) {id : ℕ} (hid : id < tlb2mCount + c.tlb4gCount)
    (hfree : m.tlbUsed id = false) : PoolOk c (holdTlb m F id) := by
  have hkernel : kernelTlbIndex ≠ id := by
    rintro rfl
    rw [(h.used_iff _).mpr (.inr rfl)] at hfree
    cases hfree
  refine ⟨?_, ?_, ?_⟩
  · intro j
    by_cases hj : j = id
    · subst hj
      simp [holdTlb]
    · simpa [holdTlb, hj] using h.used_iff j
  · simpa [holdTlb, hkernel] using h.kernel
  · intro j hj
    by_cases hji : j = id
    · rw [hji]
      exact hid
    · exact h.bound j (by simpa [holdTlb, hji] using hj)

/-- A window that is not the driver's is released. -/
theorem PoolOk.release (h : PoolOk c m) {id : ℕ} (hne : id ≠ kernelTlbIndex) :
    PoolOk c (releaseTlb m id) := by
  refine ⟨?_, ?_, ?_⟩
  · intro j
    by_cases hj : j = id
    · subst hj
      simp [releaseTlb, hne]
    · simpa [releaseTlb, hj] using h.used_iff j
  · simpa [releaseTlb, hne.symm] using h.kernel
  · intro j hj
    by_cases hji : j = id
    · subst hji
      simp [releaseTlb] at hj
    · exact h.bound j (by simpa [releaseTlb, hji] using hj)

/-- A window that a handle owns is not the driver's. -/
theorem PoolOk.owned_ne (h : PoolOk c m) {id : ℕ} (howner : m.tlbOwner id = some F) :
    id ≠ kernelTlbIndex := by
  rintro rfl
  rw [h.kernel] at howner
  cases howner

/-- A window that is claimed and released again is as it was. -/
theorem PoolOk.release_hold (h : PoolOk c m) {id : ℕ} (hfree : m.tlbUsed id = false) :
    releaseTlb (holdTlb m F id) id = m := by
  have howner : m.tlbOwner id = none := by
    by_contra hne
    rw [(h.used_iff id).mpr (.inl hne)] at hfree
    cases hfree
  unfold releaseTlb holdTlb
  dsimp only
  rw [Function.update_idem, Function.update_idem, ← hfree, ← howner, Function.update_eq_self,
    Function.update_eq_self]

/-- `ALLOCATE_TLB` keeps the arrays in order. -/
theorem PoolOk.allocateTlb (h : PoolOk c m) (io : Io) (size : ℕ) :
    PoolOk c (ttIoctlAllocateTlb c m F io size).mem := by
  rcases ttIoctlAllocateTlb_cases c m F io size with
    ⟨_, _, hreply⟩ | ⟨pool, hcheck, ⟨_, hreply⟩ | ⟨id, hid, hfree, _, hreply⟩⟩
  · rw [hreply]
    exact h
  · rw [hreply]
    exact h
  · rw [hreply]
    have hbound : id < tlb2mCount + c.tlb4gCount :=
      Nat.lt_of_lt_of_le hid.2 (tlbPool_lt (allocateTlbCheck_eq_ok.mp hcheck).2.2)
    split
    · exact h.hold hbound hfree
    · show PoolOk c (releaseTlb (holdTlb m F id) id)
      rw [h.release_hold hfree]
      exact h

/-- `FREE_TLB` keeps the arrays in order. -/
theorem PoolOk.freeTlb (h : PoolOk c m) (io : Io) (id : ℕ) :
    PoolOk c (ttIoctlFreeTlb m F io id).mem := by
  rcases ttIoctlFreeTlb_cases m F io id with ⟨_, hm⟩ | ⟨_, howner, _, hm⟩
  · rw [hm]
    exact h
  · rw [hm]
    exact h.release (h.owned_ne howner)

/-- Steps that leave the arrays alone keep them in order. -/
theorem PoolOk.congr {m' : MemoryState} (h : PoolOk c m) (hused : m'.tlbUsed = m.tlbUsed)
    (howner : m'.tlbOwner = m.tlbOwner) : PoolOk c m' := by
  refine ⟨?_, ?_, ?_⟩
  · rw [hused, howner]
    exact h.used_iff
  · rw [howner]
    exact h.kernel
  · rw [hused]
    exact h.bound

/-- The close of a handle keeps the arrays in order. -/
theorem PoolOk.cleanupTlb (h : PoolOk c m) : PoolOk c (cleanupTlbSection m F) := by
  refine ⟨?_, ?_, ?_⟩
  · intro id
    simp only [cleanupTlbSection]
    by_cases hown : id < tlbTotal ∧ m.tlbOwner id = some F
    · rw [if_pos hown, if_pos hown]
      simp [h.owned_ne hown.2]
    · rw [if_neg hown, if_neg hown]
      exact h.used_iff id
  · have hkept : ¬ (kernelTlbIndex < tlbTotal ∧ m.tlbOwner kernelTlbIndex = some F) := by
      rintro ⟨-, howner⟩
      exact h.owned_ne howner rfl
    simp only [cleanupTlbSection]
    rw [if_neg hkept]
    exact h.kernel
  · intro id hid
    simp only [cleanupTlbSection] at hid
    split at hid
    · cases hid
    · exact h.bound id hid

/-- The section of the cleanup under the file lock leaves the arrays alone. -/
theorem cleanupFileSection_windows (detached : Bool) (m : MemoryState) (F : Handle) :
    (cleanupFileSection detached m F).tlbUsed = m.tlbUsed ∧
      (cleanupFileSection detached m F).tlbOwner = m.tlbOwner := by
  have hfold : ∀ (slots : List ℕ) (m : MemoryState),
      (slots.foldl (cleanupDmaBuf detached F) m).tlbUsed = m.tlbUsed ∧
        (slots.foldl (cleanupDmaBuf detached F) m).tlbOwner = m.tlbOwner := by
    intro slots
    induction slots with
    | nil => exact fun _ => ⟨rfl, rfl⟩
    | cons i slots ih =>
      intro m
      rw [List.foldl_cons, (ih _).1, (ih _).2]
      rcases cleanupDmaBuf_cases detached m F i with ⟨_, hm⟩ | ⟨b, _, hm⟩
      · rw [hm]
        exact ⟨rfl, rfl⟩
      · rw [hm]
        exact ⟨rfl, rfl⟩
  obtain ⟨u', hexit⟩ := ttMemoryProcessExit_eq detached m F
  rw [cleanupFileSection, (hfold _ _).1, (hfold _ _).2, hexit]
  exact ⟨rfl, rfl⟩

/-- Every step keeps the arrays in order. -/
theorem PoolOk.next {w : TlbWorld} (h : PoolOk c w.mem) (e : TlbEvent) :
    PoolOk c (w.next c e).mem := by
  cases e with
  | allocateTlb F io size => exact h.allocateTlb io size
  | freeTlb F io id => exact h.freeTlb io id
  | configureTlb F io i => exact h
  | map F io i env =>
    obtain ⟨hused, howner⟩ := ttIoctlMap_windows c w.mem F io i env
    exact h.congr hused howner
  | unmap F io userVa reserved =>
    obtain ⟨hused, howner⟩ := ttIoctlUnmap_windows w.mem F io userVa reserved
    exact h.congr hused howner
  | close F detached =>
    obtain ⟨hused, howner⟩ := cleanupFileSection_windows detached w.mem F
    exact (h.congr hused howner).cleanupTlb
  | kernelTlb x y addr noc => exact h

/-- `ALLOCATE_TLB` leaves a window that is used. -/
theorem sameWindow_allocateTlb {w : TlbWorld} {id : ℕ} (hused : w.mem.tlbUsed id = true)
    (F : Handle) (io : Io) (size : ℕ) :
    SameWindow w (w.next c (.allocateTlb F io size)) id := by
  have hkept : (ttIoctlAllocateTlb c w.mem F io size).mem.tlbUsed id = w.mem.tlbUsed id ∧
      (ttIoctlAllocateTlb c w.mem F io size).mem.tlbOwner id = w.mem.tlbOwner id := by
    rcases ttIoctlAllocateTlb_cases c w.mem F io size with
      ⟨_, _, hreply⟩ | ⟨pool, _, ⟨_, hreply⟩ | ⟨j, _, hfree, _, hreply⟩⟩
    · simp [hreply, Reply.fail]
    · simp [hreply, Reply.fail]
    · have hne : id ≠ j := by
        rintro rfl
        rw [hused] at hfree
        cases hfree
      rw [hreply]
      split
      · simp [holdTlb, hne]
      · simp [Reply.fail, releaseTlb, holdTlb, hne]
  exact ⟨hkept.1, hkept.2, fun _ _ => rfl⟩

/-- `FREE_TLB` leaves a window that is not of its handle. -/
theorem sameWindow_freeTlb {w : TlbWorld} {id : ℕ} {F : Handle}
    (hother : w.mem.tlbOwner id ≠ some F) (io : Io) (j : ℕ) :
    SameWindow w (w.next c (.freeTlb F io j)) id := by
  have hkept : (ttIoctlFreeTlb w.mem F io j).mem.tlbUsed id = w.mem.tlbUsed id ∧
      (ttIoctlFreeTlb w.mem F io j).mem.tlbOwner id = w.mem.tlbOwner id := by
    rcases ttIoctlFreeTlb_cases w.mem F io j with ⟨_, hm⟩ | ⟨_, howner, _, hm⟩
    · simp [hm]
    · have hne : id ≠ j := by
        rintro rfl
        exact hother howner
      simp [hm, releaseTlb, hne]
  exact ⟨hkept.1, hkept.2, fun _ _ => rfl⟩

/-- `CONFIGURE_TLB` leaves a window that is not of its handle. -/
theorem sameWindow_configureTlb {w : TlbWorld} {id : ℕ} {F : Handle} (htotal : id < tlbTotal)
    (hother : w.mem.tlbOwner id ≠ some F) (io : Io) (i : ConfigureTlbIn) :
    SameWindow w (w.next c (.configureTlb F io i)) id := by
  refine ⟨rfl, rfl, ?_⟩
  intro offset hoffset
  simp only [TlbWorld.next]
  rcases ttIoctlConfigureTlb_cases w.mem w.regs F io i with
    ⟨_, hregs⟩ | ⟨hlt, _, howner, writes, hwrites, hregs⟩
  · rw [hregs]
  · have hne : id ≠ i.id := by
      rintro rfl
      exact hother howner
    rw [hregs]
    apply writeRegs_of_notMem
    rw [ttBhConfigureUserTlb_offsets hwrites]
    exact windowOffsets_disjoint htotal hlt hne hoffset

/-- The close of a handle leaves a window that is not of that handle. -/
theorem sameWindow_close {w : TlbWorld} {id : ℕ} {F : Handle}
    (hother : w.mem.tlbOwner id ≠ some F) (detached : Bool) :
    SameWindow w (w.next c (.close F detached)) id := by
  obtain ⟨hused, howner⟩ := cleanupFileSection_windows detached w.mem F
  have hkept : ¬ (id < tlbTotal ∧
      (cleanupFileSection detached w.mem F).tlbOwner id = some F) := by
    rintro ⟨-, hF⟩
    rw [howner] at hF
    exact hother hF
  refine ⟨?_, ?_, fun _ _ => rfl⟩
  · simp only [TlbWorld.next, ttMemoryFileCleanup, cleanupTlbSection]
    rw [if_neg hkept, hused]
  · simp only [TlbWorld.next, ttMemoryFileCleanup, cleanupTlbSection]
    rw [if_neg hkept, howner]

/-- No step of another handle, and no step of the driver, touches a window of a handle. -/
theorem PoolOk.sameWindow {w : TlbWorld} (h : PoolOk c w.mem) {e : TlbEvent} {id : ℕ} {G : Handle}
    (hid : w.mem.tlbOwner id = some G) (he : e.file ≠ some G) :
    SameWindow w (w.next c e) id := by
  have hused : w.mem.tlbUsed id = true := (h.used_iff id).mpr (.inl (by simp [hid]))
  have htotal : id < tlbTotal := by
    have hcount := c.tlb4gCount_fits.2
    have hbound := h.bound id hused
    unfold tlbTotal
    omega
  have hother : ∀ F, e.file = some F → w.mem.tlbOwner id ≠ some F := by
    intro F hF howner
    rw [hid] at howner
    exact he (hF.trans howner.symm)
  cases e with
  | allocateTlb F io size => exact sameWindow_allocateTlb hused F io size
  | freeTlb F io j => exact sameWindow_freeTlb (hother F rfl) io j
  | configureTlb F io i => exact sameWindow_configureTlb htotal (hother F rfl) io i
  | map F io i env =>
    obtain ⟨hu, ho⟩ := ttIoctlMap_windows c w.mem F io i env
    exact ⟨congrFun hu id, congrFun ho id, fun _ _ => rfl⟩
  | unmap F io userVa reserved =>
    obtain ⟨hu, ho⟩ := ttIoctlUnmap_windows w.mem F io userVa reserved
    exact ⟨congrFun hu id, congrFun ho id, fun _ _ => rfl⟩
  | close F detached => exact sameWindow_close (hother F rfl) detached
  | kernelTlb x y addr noc =>
    refine ⟨rfl, rfl, ?_⟩
    intro offset hoffset
    apply writeRegs_of_notMem
    rw [ttBhConfigureKernelTlb_offsets]
    exact windowOffsets_disjoint htotal (by decide) (h.owned_ne hid) hoffset

/-- Two windows have ranges in different BARs, or ranges of one BAR that do not overlap. -/
def WindowsApart (c : MemoryConfig) (i j : ℕ) : Prop :=
  ∃ bar barOffset size bar' barOffset' size',
    ttTlbDescribe c i = some (bar, barOffset, size) ∧
    ttTlbDescribe c j = some (bar', barOffset', size') ∧
    (bar ≠ bar' ∨ barOffset + size ≤ barOffset' ∨ barOffset' + size' ≤ barOffset)

/-- Two windows of the pools do not overlap. -/
theorem windowsApart_of_lt {i j : ℕ} (hi : i < tlb2mCount + c.tlb4gCount)
    (hj : j < tlb2mCount + c.tlb4gCount) (hne : i ≠ j) : WindowsApart c i j := by
  have hdescribe : ∀ k, k < tlb2mCount + c.tlb4gCount →
      ∃ bar barOffset size, ttTlbDescribe c k = some (bar, barOffset, size) := by
    intro k hk
    unfold ttTlbDescribe
    by_cases hsmall : k < tlb2mCount
    · rw [if_pos hsmall]
      exact ⟨_, _, _, rfl⟩
    · rw [if_neg hsmall, if_pos hk]
      exact ⟨_, _, _, rfl⟩
  obtain ⟨bar, barOffset, size, hdi⟩ := hdescribe i hi
  obtain ⟨bar', barOffset', size', hdj⟩ := hdescribe j hj
  refine ⟨bar, barOffset, size, bar', barOffset', size', hdi, hdj, ?_⟩
  have hwi := ttTlbDescribe_eq_some.mp hdi
  have hwj := ttTlbDescribe_eq_some.mp hdj
  omega

/-- No handle gets at the window of the driver. -/
structure KernelWindowKept (c : MemoryConfig) (w : TlbWorld) : Prop where
  /-- It is never returned. -/
  returned : ∀ F io size out, (ttIoctlAllocateTlb c w.mem F io size).out = some out →
    out.id ≠ kernelTlbIndex
  /-- It is never freed. -/
  freed : ∀ F io, (ttIoctlFreeTlb w.mem F io kernelTlbIndex).status ≠ .success
  /-- It is never configured. -/
  configured : ∀ F io config,
    (ttIoctlConfigureTlb w.mem w.regs F io ⟨kernelTlbIndex, config⟩).1 ≠ .success ∧
      (ttIoctlConfigureTlb w.mem w.regs F io ⟨kernelTlbIndex, config⟩).2 = w.regs
  /-- No token is ever resolved to it. -/
  mapped : ∀ F mmapOffset length target,
    ttResolveMapTarget c w.mem F mmapOffset length = .ok target →
      target.tlbId ≠ some kernelTlbIndex

/-- What `ALLOCATE_TLB` returns for the size of a pool, with a readable input. -/
structure AllocatesLowest (c : MemoryConfig) (m : MemoryState) (F : Handle) (io : Io)
    (size : ℕ) (pool : ℕ × ℕ) : Prop where
  /-- It runs out exactly when the pool is full. -/
  full_iff : (ttIoctlAllocateTlb c m F io size).status = .insufficientResources ↔
    ∀ id, pool.1 ≤ id → id < pool.1 + pool.2 → m.tlbUsed id = true
  /-- It returns the first free window of the pool. -/
  lowest : ∀ out, (ttIoctlAllocateTlb c m F io size).out = some out →
    pool.1 ≤ out.id ∧ out.id < pool.1 + pool.2 ∧ m.tlbUsed out.id = false ∧
      ∀ j, pool.1 ≤ j → j < out.id → m.tlbUsed j = true
  /-- It does return one when there is one and the output fits. -/
  returns : (∃ id, pool.1 ≤ id ∧ id < pool.1 + pool.2 ∧ m.tlbUsed id = false) →
    ttCompleteSizedOutBuffer io 16 32 = .success →
    (ttIoctlAllocateTlb c m F io size).status = .success ∧
      ∃ out, (ttIoctlAllocateTlb c m F io size).out = some out

/-- `ALLOCATE_TLB` returns the first free window of the pool of the size. -/
theorem allocatesLowest (hbh : c.isBlackhole = true) {io : Io} (hin : 16 ≤ io.input) {size : ℕ}
    {pool : ℕ × ℕ} (hpool : tlbPool c size = some pool) : AllocatesLowest c m F io size pool := by
  have hcheck := allocateTlbCheck_eq_ok.mpr ⟨hbh, hin, hpool⟩
  rcases ttIoctlAllocateTlb_cases c m F io size with
    ⟨_, hfail, _⟩ | ⟨pool', hcheck', ⟨hfull, hreply⟩ | ⟨id, hid, hfree, hleast, hreply⟩⟩
  · rw [hcheck] at hfail
    cases hfail
  · rw [hcheck] at hcheck'
    cases hcheck'
    refine ⟨?_, ?_, ?_⟩
    · rw [hreply]
      exact ⟨fun _ => hfull, fun _ => rfl⟩
    · rw [hreply]
      intro out hout
      cases hout
    · rintro ⟨id, hlo, hhi, hfree⟩ _
      rw [hfull id hlo hhi] at hfree
      cases hfree
  · rw [hcheck] at hcheck'
    cases hcheck'
    refine ⟨?_, ?_, ?_⟩
    · constructor
      · intro hstatus
        rw [hreply] at hstatus
        split at hstatus <;> cases hstatus
      · intro hfull
        rw [hfull id hid.1 hid.2] at hfree
        cases hfree
    · intro out hout
      rw [hreply] at hout
      split at hout
      · cases hout
        exact ⟨hid.1, hid.2, hfree, hleast⟩
      · cases hout
    · intro _ hfits
      rw [hreply, if_pos hfits]
      exact ⟨rfl, _, rfl⟩

/-- A resolved window is one of the handle. -/
theorem resolved_owned {mmapOffset length id : ℕ} {target : MapTarget}
    (h : ttResolveMapTarget c m F mmapOffset length = .ok target) (hid : target.tlbId = some id) :
    m.tlbOwner id = some F := by
  unfold ttResolveMapTarget at h
  split at h
  · obtain ⟨-, -, b, -, -, rfl⟩ := resolveDmaBuf_eq_ok.mp h
    cases hid
  split at h
  · obtain ⟨-, -, rfl⟩ := resolveBar_eq_ok.mp h
    cases hid
  split at h
  · obtain ⟨bar, barOffset, id', -, -, -, -, -, howner, rfl⟩ := resolveTlb_eq_ok.mp h
    cases hid
    exact howner
  · cases h

/-- The arrays in order keep the window of the driver from every handle. -/
theorem PoolOk.kernelWindowKept {w : TlbWorld} (h : PoolOk c w.mem) : KernelWindowKept c w := by
  refine ⟨?_, ?_, ?_, ?_⟩
  · intro F io size out hout
    rcases ttIoctlAllocateTlb_cases c w.mem F io size with
      ⟨_, _, hreply⟩ | ⟨pool, _, ⟨_, hreply⟩ | ⟨id, _, hfree, _, hreply⟩⟩
    · rw [hreply] at hout
      cases hout
    · rw [hreply] at hout
      cases hout
    · rw [hreply] at hout
      split at hout
      · cases hout
        rintro hkernel
        have hkernel : id = kernelTlbIndex := hkernel
        rw [(h.used_iff id).mpr (.inr hkernel)] at hfree
        cases hfree
      · cases hout
  · intro F io hstatus
    rcases ttIoctlFreeTlb_cases w.mem F io kernelTlbIndex with ⟨hfails, _⟩ | ⟨_, howned, _⟩
    · exact hfails hstatus
    · exact h.owned_ne howned rfl
  · intro F io config
    rcases ttIoctlConfigureTlb_cases w.mem w.regs F io ⟨kernelTlbIndex, config⟩ with
      hrefused | ⟨_, _, howner, _⟩
    · exact hrefused
    · exact absurd rfl (h.owned_ne howner)
  · intro F mmapOffset length target hresolve hid
    exact h.owned_ne (resolved_owned hresolve hid) rfl

end Steps

/-- The pool of a started Blackhole in every reachable state. -/
theorem pool_invariant {c : MemoryConfig} (hbh : c.isBlackhole = true) {iatu : Fin 16 → AtuRegs}
    {regs : ℕ → ℕ} {es : List TlbEvent} {w : TlbWorld}
    (hrun : Run (graph (TlbWorld.next c)) (.started c iatu regs) es w) :
    (∀ id, w.mem.tlbUsed id = true ↔ w.mem.tlbOwner id ≠ none ∨ id = kernelTlbIndex) ∧
    KernelWindowKept c w ∧
    (∀ id, w.mem.tlbUsed id = true → id < tlb2mCount + c.tlb4gCount) ∧
    (∀ e id G, w.mem.tlbOwner id = some G → e.file ≠ some G → SameWindow w (w.next c e) id) ∧
    (∀ F io size pool, 16 ≤ io.input → tlbPool c size = some pool →
      AllocatesLowest c w.mem F io size pool) ∧
    (∀ i j, w.mem.tlbUsed i = true → w.mem.tlbUsed j = true → i ≠ j → WindowsApart c i j) := by
  have hkeep : ∀ (w : TlbWorld) (e : TlbEvent) (w' : TlbWorld), PoolOk c w.mem →
      graph (TlbWorld.next c) w e w' → PoolOk c w'.mem := by
    intro w e w' h hstep
    rw [hstep]
    exact h.next e
  have hok : PoolOk c w.mem :=
    @Run.invariant _ _ _ (fun w => PoolOk c w.mem) _ _ _ hkeep (.started hbh iatu) hrun
  refine ⟨hok.used_iff, hok.kernelWindowKept, hok.bound, ?_, ?_, ?_⟩
  · intro e id G hid he
    exact hok.sameWindow hid he
  · intro F io size pool hin hpool
    exact allocatesLowest hbh hin hpool
  · intro i j hi hj hne
    exact windowsApart_of_lt (hok.bound i hi) (hok.bound j hj) hne

/-- Two handles, of which the first claims, configures and maps a window, the second
claims one and is closed. -/
def twoHandlesOnWindows : List TlbEvent :=
  [.allocateTlb 0 ⟨16, 48⟩ (2 ^ 21), .allocateTlb 1 ⟨16, 48⟩ (2 ^ 21),
    .configureTlb 0 ⟨40, 48⟩ ⟨0, ⟨0, 1, 2, 0, 0, 0, 0, 0, 0, 0⟩⟩,
    .map 0 ⟨16, 24⟩ ⟨6 * 2 ^ 36, 4096⟩ ⟨true, true, some 65536, 0⟩, .freeTlb 1 ⟨4, 4⟩ 0,
    .close 1 false]

/-- The run of the two handles: the window of the first is out of reach of the second. -/
theorem pool_invariant_twoHandles :
    SameWindow (twoHandlesOnWindows.foldl (TlbWorld.next wideBlackhole)
        (.started wideBlackhole (fun _ _ => 0) fun _ => 0))
      ((twoHandlesOnWindows.foldl (TlbWorld.next wideBlackhole)
        (.started wideBlackhole (fun _ _ => 0) fun _ => 0)).next wideBlackhole
          (.freeTlb 1 ⟨4, 4⟩ 0)) 0 := by
  have hrun : Run (graph (TlbWorld.next wideBlackhole))
      (.started wideBlackhole (fun _ _ => 0) fun _ => 0) twoHandlesOnWindows
      (twoHandlesOnWindows.foldl (TlbWorld.next wideBlackhole)
        (.started wideBlackhole (fun _ _ => 0) fun _ => 0)) :=
    .cons rfl (.cons rfl (.cons rfl (.cons rfl (.cons rfl (.cons rfl (.nil _))))))
  exact (pool_invariant rfl hrun).2.2.2.1 (.freeTlb 1 ⟨4, 4⟩ 0) 0 0 (by decide +kernel) (by decide)

end TtKmd
