import TtKmd.Memory.Bookkeeping
import TtKmd.Lib.Runs

/-!
# Memory requests in parallel

All memory requests hold the reset resource shared, so they run in parallel. Here a
step is one section under the file lock, `TlbLock` or `IatuLock`. Five of the eight
requests are one section. `UNMAP` and `UNPIN_PAGES` unlink a record in one step and
tear it down in a later one; `ALLOCATE_TLB` claims a window in one step and releases
it in a later one if its output cannot be returned. What is left to do between the
two steps is in `pending`.

Run back to back, the steps of a request are the handler.
-/

namespace TtKmd

open Lib

/-- The rest of a request that has left its first section. -/
inductive Pending
  /-- `UNMAP` has unlinked the mapping; its view is still there. -/
  | unmap (F : Handle) (v : UserMapping)
  /-- `UNPIN_PAGES` has unlinked the pinning; its aperture is still there. -/
  | unpin (F : Handle) (p : Pinning)
  /-- `ALLOCATE_TLB` has claimed the window; `ok` says that the output fits. -/
  | allocateTlb (F : Handle) (id : ℕ) (ok : Bool)
  deriving DecidableEq

/-- The handle of the request. -/
def Pending.file : Pending → Handle
  | .unmap F _ => F
  | .unpin F _ => F
  | .allocateTlb F _ _ => F

/-- The memory of a device and the requests in flight. -/
structure MemWorld where
  /-- The memory. -/
  mem : MemoryState
  /-- The number of the next file object. -/
  nextFile : ℕ
  /-- The requests between two sections. -/
  pending : List Pending

/-- The memory requests. -/
inductive MemRequest
  | allocateTlb (io : Io) (size : ℕ)
  | freeTlb (io : Io) (id : ℕ)
  | allocateDmaBuf (io : Io) (i : AllocateDmaBufIn) (env : DmaBufEnv)
  | freeDmaBufEx (io : Io) (i : FreeDmaBufExIn)
  | map (io : Io) (i : MapIn) (env : MapEnv)
  | unmap (io : Io) (userVa reserved : ℕ)
  | pinPages (io : Io) (i : PinPagesIn) (env : PinEnv)
  | unpinPages (io : Io) (i : UnpinPagesIn)

/-- The steps. -/
inductive MemEvent
  /-- A handle is opened. -/
  | create
  /-- A request runs its first section. -/
  | start (F : Handle) (r : MemRequest)
  /-- A request runs the rest. -/
  | finish (p : Pending)

/-- The first section of a request. -/
def MemWorld.start (c : MemoryConfig) (detached : Bool) (w : MemWorld) (F : Handle) :
    MemRequest → MemWorld
  | .allocateTlb io size =>
      match allocateTlbCheck c io size with
      | .error _ => w
      | .ok pool =>
          match claimTlb w.mem F pool with
          | (none, _) => w
          | (some id, m) =>
              { w with
                mem := m
                pending := .allocateTlb F id
                  (decide (ttCompleteSizedOutBuffer io 16 32 = .success)) :: w.pending }
  | .freeTlb io id => { w with mem := (ttIoctlFreeTlb w.mem F io id).mem }
  | .allocateDmaBuf io i env =>
      { w with mem := (ttIoctlAllocateDmaBuf c detached w.mem F io i env).mem }
  | .freeDmaBufEx io i => { w with mem := (ttIoctlFreeDmaBufEx detached w.mem F io i).mem }
  | .map io i env => { w with mem := (ttIoctlMap c w.mem F io i env).mem }
  | .unmap io userVa reserved =>
      if unmapCheck io reserved ≠ .success then w
      else
        match unmapSection w.mem F userVa with
        | (none, _) => w
        | (some v, m) => { w with mem := m, pending := .unmap F v :: w.pending }
  | .pinPages io i env => { w with mem := (ttIoctlPinPages c detached w.mem F io i env).mem }
  | .unpinPages io i =>
      if unpinPagesCheck io i ≠ .success then w
      else
        match unpinSection w.mem F i with
        | (none, _) => w
        | (some p, m) => { w with mem := m, pending := .unpin F p :: w.pending }

/-- The memory after the rest of a request. -/
def Pending.effect (detached : Bool) (m : MemoryState) : Pending → MemoryState
  | .unmap _ _ => m
  | .unpin _ p => ttDestroyPinning detached m p
  | .allocateTlb _ id ok => if ok then m else releaseTlb m id

/-- The rest of a request. -/
def MemWorld.finish (detached : Bool) (w : MemWorld) (p : Pending) : MemWorld :=
  { w with mem := p.effect detached w.mem, pending := w.pending.erase p }

/-- One step; `none` is a step that cannot be taken. -/
def MemWorld.next (c : MemoryConfig) (detached : Bool) (w : MemWorld) : MemEvent → Option MemWorld
  | .create => some { w with nextFile := w.nextFile + 1 }
  | .start F r => if F < w.nextFile then some (w.start c detached F r) else none
  | .finish p => if p ∈ w.pending then some (w.finish detached p) else none

/-- A started device, nothing open. -/
def MemWorld.started (c : MemoryConfig) (regs : Fin 16 → AtuRegs) : MemWorld :=
  ⟨.started c regs, 0, []⟩

/-- The memory the handler of a request leaves. -/
def MemRequest.handled (c : MemoryConfig) (detached : Bool) (m : MemoryState) (F : Handle) :
    MemRequest → MemoryState
  | .allocateTlb io size => (ttIoctlAllocateTlb c m F io size).mem
  | .freeTlb io id => (ttIoctlFreeTlb m F io id).mem
  | .allocateDmaBuf io i env => (ttIoctlAllocateDmaBuf c detached m F io i env).mem
  | .freeDmaBufEx io i => (ttIoctlFreeDmaBufEx detached m F io i).mem
  | .map io i env => (ttIoctlMap c m F io i env).mem
  | .unmap io userVa reserved => (ttIoctlUnmap m F io userVa reserved).mem
  | .pinPages io i env => (ttIoctlPinPages c detached m F io i env).mem
  | .unpinPages io i => (ttIoctlUnpinPages detached m F io i).mem

section Sections

variable {c : MemoryConfig} {detached : Bool} {w : MemWorld} {F : Handle}

/-- Everything the first section of `ALLOCATE_TLB` can do. -/
theorem start_allocateTlb_cases (c : MemoryConfig) (detached : Bool) (w : MemWorld) (F : Handle)
    (io : Io) (size : ℕ) :
    w.start c detached F (.allocateTlb io size) = w ∨
      ∃ id, id < tlbTotal ∧ w.mem.tlbUsed id = false ∧
        w.start c detached F (.allocateTlb io size) = { w with
          mem := { w.mem with
            tlbUsed := Function.update w.mem.tlbUsed id true
            tlbOwner := Function.update w.mem.tlbOwner id (some F) }
          pending := .allocateTlb F id
            (decide (ttCompleteSizedOutBuffer io 16 32 = .success)) :: w.pending } := by
  simp only [MemWorld.start]
  split
  · exact .inl rfl
  rename_i pool hpool
  rcases claimTlb_cases w.mem F pool with ⟨_, hclaim⟩ | ⟨id, hid, hfree, _, hclaim⟩
  · rw [hclaim]
    exact .inl rfl
  · rw [hclaim]
    exact .inr ⟨id, allocateTlbCheck_pool hpool hid.2, hfree, rfl⟩

/-- Everything the first section of `UNMAP` can do. -/
theorem start_unmap_cases (c : MemoryConfig) (detached : Bool) (w : MemWorld) (F : Handle)
    (io : Io) (userVa reserved : ℕ) :
    w.start c detached F (.unmap io userVa reserved) = w ∨
      ∃ v l, (w.mem.file F).mappings.Perm (v :: l) ∧
        w.start c detached F (.unmap io userVa reserved) = { w with
          mem := w.mem.setFile F { w.mem.file F with mappings := l }
          pending := .unmap F v :: w.pending } := by
  simp only [MemWorld.start]
  split
  · exact .inl rfl
  rcases unmapSection_cases (m := w.mem) (F := F) userVa with hsec | ⟨v, l, hperm, hsec⟩
  · rw [hsec]
    exact .inl rfl
  · rw [hsec]
    exact .inr ⟨v, l, hperm, rfl⟩

/-- Everything the first section of `UNPIN_PAGES` can do. -/
theorem start_unpinPages_cases (c : MemoryConfig) (detached : Bool) (w : MemWorld) (F : Handle)
    (io : Io) (i : UnpinPagesIn) :
    w.start c detached F (.unpinPages io i) = w ∨
      ∃ p l, (w.mem.file F).pinnings.Perm (p :: l) ∧
        w.start c detached F (.unpinPages io i) = { w with
          mem := w.mem.setFile F { w.mem.file F with pinnings := l }
          pending := .unpin F p :: w.pending } := by
  simp only [MemWorld.start]
  split
  · exact .inl rfl
  rcases unpinSection_cases (m := w.mem) (F := F) i with hsec | ⟨p, l, hperm, hsec⟩
  · rw [hsec]
    exact .inl rfl
  · rw [hsec]
    exact .inr ⟨p, l, hperm, rfl⟩

/-- The steps of a request, run back to back, leave what its handler leaves. -/
theorem start_finish_eq_handled (r : MemRequest) :
    w.start c detached F r = { w with mem := r.handled c detached w.mem F } ∨
      ∃ p, p ∈ (w.start c detached F r).pending ∧
        (w.start c detached F r).finish detached p =
          { w with mem := r.handled c detached w.mem F } := by
  cases r with
  | allocateTlb io size =>
    simp only [MemWorld.start, MemRequest.handled, ttIoctlAllocateTlb]
    cases allocateTlbCheck c io size with
    | error status => exact .inl rfl
    | ok pool =>
      dsimp only
      rcases claimTlb_cases w.mem F pool with ⟨_, hclaim⟩ | ⟨id, _, _, _, hclaim⟩
      · rw [hclaim]
        exact .inl rfl
      rw [hclaim]
      refine .inr ⟨_, List.mem_cons_self .., ?_⟩
      by_cases hfits : ttCompleteSizedOutBuffer io 16 32 = .success
      · simp [MemWorld.finish, Pending.effect, hfits]
      · simp [MemWorld.finish, Pending.effect, hfits, Reply.fail]
  | unmap io userVa reserved =>
    simp only [MemWorld.start, MemRequest.handled, ttIoctlUnmap]
    by_cases hcheck : unmapCheck io reserved = .success
    swap
    · simp [hcheck, Reply.fail]
    simp only [hcheck, ne_eq, not_true_eq_false, if_false]
    rcases unmapSection_cases (m := w.mem) (F := F) userVa with hsec | ⟨v, l, _, hsec⟩
    · rw [hsec]
      exact .inl rfl
    · rw [hsec]
      exact .inr ⟨_, List.mem_cons_self .., by simp [MemWorld.finish, Pending.effect]⟩
  | unpinPages io i =>
    simp only [MemWorld.start, MemRequest.handled, ttIoctlUnpinPages]
    by_cases hcheck : unpinPagesCheck io i = .success
    swap
    · simp [hcheck, Reply.fail]
    simp only [hcheck, ne_eq, not_true_eq_false, if_false]
    rcases unpinSection_cases (m := w.mem) (F := F) i with hsec | ⟨p, l, _, hsec⟩
    · rw [hsec]
      exact .inl rfl
    · rw [hsec]
      exact .inr ⟨_, List.mem_cons_self .., by simp [MemWorld.finish, Pending.effect]⟩
  | _ => exact .inl rfl

end Sections

/-- The requests that claim or free a window. -/
def MemRequest.onPool : MemRequest → Bool
  | .allocateTlb .. => true
  | .freeTlb .. => true
  | _ => false

/-- The first section of a request touches the records of its own handle. -/
theorem othersKept_start {w : MemWorld} (hok : SlotsOk w.mem.iatu.slots) (c : MemoryConfig)
    (detached : Bool) (F : Handle) (r : MemRequest) :
    OthersKept w.mem (w.start c detached F r).mem F := by
  cases r with
  | allocateTlb io size =>
    rcases start_allocateTlb_cases c detached w F io size with hw | ⟨id, _, _, hw⟩
    all_goals
      rw [hw]
      exact fun _ _ => rfl
  | freeTlb io id =>
    obtain ⟨used, owner, hm⟩ := ttIoctlFreeTlb_windows w.mem F io id
    show OthersKept w.mem (ttIoctlFreeTlb w.mem F io id).mem F
    rw [hm]
    exact fun _ _ => rfl
  | allocateDmaBuf io i env => exact othersKept_allocateDmaBuf hok i env
  | freeDmaBufEx io i => exact othersKept_freeDmaBufEx i
  | map io i env => exact othersKept_map i env
  | unmap io userVa reserved =>
    rcases start_unmap_cases c detached w F io userVa reserved with hw | ⟨v, l, _, hw⟩
    · rw [hw]
      exact fun _ _ => rfl
    · rw [hw]
      exact othersKept_setFile _
  | pinPages io i env => exact othersKept_pinPages hok i env
  | unpinPages io i =>
    rcases start_unpinPages_cases c detached w F io i with hw | ⟨p, l, _, hw⟩
    · rw [hw]
      exact fun _ _ => rfl
    · rw [hw]
      exact othersKept_setFile _

/-- The requests that are not on the pool leave it alone. -/
theorem windows_start {w : MemWorld} (hok : SlotsOk w.mem.iatu.slots) (c : MemoryConfig)
    (detached : Bool) (F : Handle) {r : MemRequest} (hr : r.onPool = false) :
    (w.start c detached F r).mem.tlbUsed = w.mem.tlbUsed ∧
      (w.start c detached F r).mem.tlbOwner = w.mem.tlbOwner := by
  cases r with
  | allocateTlb io size => cases hr
  | freeTlb io id => cases hr
  | allocateDmaBuf io i env => exact ttIoctlAllocateDmaBuf_windows c detached F io hok i env
  | freeDmaBufEx io i => exact ttIoctlFreeDmaBufEx_windows detached w.mem F io i
  | map io i env => exact ttIoctlMap_windows c w.mem F io i env
  | unmap io userVa reserved =>
    rcases start_unmap_cases c detached w F io userVa reserved with hw | ⟨v, l, _, hw⟩
    · rw [hw]
      exact ⟨rfl, rfl⟩
    · rw [hw]
      exact ⟨rfl, rfl⟩
  | pinPages io i env => exact ttIoctlPinPages_windows c detached F io hok i env
  | unpinPages io i =>
    rcases start_unpinPages_cases c detached w F io i with hw | ⟨p, l, _, hw⟩
    · rw [hw]
      exact ⟨rfl, rfl⟩
    · rw [hw]
      exact ⟨rfl, rfl⟩

/-- The region an unlinked pinning of the handle still has. -/
def Pending.region (F : Handle) : Pending → Option (Fin 16)
  | .unpin G p => if G = F then p.iatuRegion else none
  | _ => none

/-- The regions of the unlinked pinnings of a handle. -/
def pendingRegions (pending : List Pending) (F : Handle) : List (Fin 16) :=
  pending.filterMap (Pending.region F)

/-- The books agree when the regions of unlinked pinnings are counted in. -/
def MemWorld.Books (w : MemWorld) : Prop :=
  Bookkeeping w.nextFile (pendingRegions w.pending) w.mem

section Books

variable {c : MemoryConfig} {detached : Bool} {w w' : MemWorld} {F : Handle}

/-- One more unlinked pinning. -/
theorem pendingRegions_unpin (F : Handle) (p : Pinning) (pending : List Pending) :
    pendingRegions (.unpin F p :: pending) = Function.update (pendingRegions pending) F
      (p.iatuRegion.toList ++ pendingRegions pending F) := by
  funext G
  unfold pendingRegions
  by_cases hG : G = F
  · subst hG
    rw [Function.update_self]
    cases hr : p.iatuRegion with
    | none =>
      rw [List.filterMap_cons_none (by simp [Pending.region, hr])]
      rfl
    | some r =>
      have hregion : Pending.region G (.unpin G p) = some r := by simp [Pending.region, hr]
      rw [List.filterMap_cons_some hregion]
      rfl
  · rw [Function.update_of_ne hG, List.filterMap_cons_none (by simp [Pending.region, Ne.symm hG])]

/-- An unlinked mapping has no region. -/
theorem pendingRegions_unmap (F : Handle) (v : UserMapping) (pending : List Pending) :
    pendingRegions (.unmap F v :: pending) = pendingRegions pending :=
  funext fun _ => List.filterMap_cons_none rfl

/-- A claimed window has no region. -/
theorem pendingRegions_allocateTlb (F : Handle) (id : ℕ) (ok : Bool) (pending : List Pending) :
    pendingRegions (.allocateTlb F id ok :: pending) = pendingRegions pending :=
  funext fun _ => List.filterMap_cons_none rfl

/-- The first section of a request keeps the books. -/
theorem MemWorld.Books.start (h : w.Books) (hF : F < w.nextFile) (r : MemRequest) :
    (w.start c detached F r).Books := by
  have hbooks : Bookkeeping w.nextFile (pendingRegions w.pending) w.mem := h
  cases r with
  | allocateTlb io size =>
    rcases start_allocateTlb_cases c detached w F io size with
      hw | ⟨id, _, _, hw⟩
    · rw [hw]
      exact h
    · rw [hw, MemWorld.Books, pendingRegions_allocateTlb]
      exact hbooks.windows _ _
  | freeTlb io id =>
    obtain ⟨used, owner, hm⟩ := ttIoctlFreeTlb_windows w.mem F io id
    show Bookkeeping w.nextFile _ (ttIoctlFreeTlb w.mem F io id).mem
    rw [hm]
    exact hbooks.windows used owner
  | allocateDmaBuf io i env => exact hbooks.allocateDmaBuf hF i env
  | freeDmaBufEx io i => exact hbooks.freeDmaBufEx hF i
  | map io i env => exact hbooks.map hF i env
  | unmap io userVa reserved =>
    rcases start_unmap_cases c detached w F io userVa reserved
      with hw | ⟨v, l, hperm, hw⟩
    · rw [hw]
      exact h
    · rw [hw, MemWorld.Books, pendingRegions_unmap]
      refine hbooks.views hF ((hbooks.files F).mono ?_ (fun p hp => hp))
      exact fun x hx => hperm.mem_iff.mpr (List.mem_cons_of_mem _ hx)
  | pinPages io i env => exact hbooks.pinPages hF i env
  | unpinPages io i =>
    rcases start_unpinPages_cases c detached w F io i with
      hw | ⟨p, l, hperm, hw⟩
    · rw [hw]
      exact h
    · rw [hw, MemWorld.Books, pendingRegions_unpin]
      exact hbooks.unlinkPinning hF hperm

/-- The rest of a request keeps the books. -/
theorem MemWorld.Books.finish (h : w.Books) {p : Pending} (hp : p ∈ w.pending) :
    (w.finish detached p).Books := by
  have hbooks : Bookkeeping w.nextFile (pendingRegions (p :: w.pending.erase p)) w.mem :=
    Bookkeeping.congr h fun F => (List.perm_cons_erase hp).filterMap _
  cases p with
  | unmap F v =>
    rw [pendingRegions_unmap] at hbooks
    exact hbooks
  | allocateTlb F id ok =>
    rw [pendingRegions_allocateTlb] at hbooks
    cases ok with
    | true => exact hbooks
    | false => exact hbooks.windows _ _
  | unpin F p =>
    rw [pendingRegions_unpin] at hbooks
    have hdone := hbooks.destroyPinning detached (F := F) (p := p)
      (l := pendingRegions (w.pending.erase (.unpin F p)) F) (by rw [Function.update_self])
    rwa [Function.update_idem, Function.update_eq_self] at hdone

/-- Every step keeps the books. -/
theorem MemWorld.Books.next (h : w.Books) {e : MemEvent}
    (hstep : w.next c detached e = some w') : w'.Books := by
  cases e with
  | create =>
    cases hstep
    exact Bookkeeping.create h
  | start F r =>
    obtain ⟨hF, rfl⟩ := guard_of_eq_some hstep
    exact h.start hF r
  | finish p =>
    obtain ⟨hp, rfl⟩ := guard_of_eq_some hstep
    exact h.finish hp

/-- The books of a started device. -/
theorem MemWorld.Books.started (c : MemoryConfig) (regs : Fin 16 → AtuRegs) :
    (MemWorld.started c regs).Books := Bookkeeping.started c regs

end Books

end TtKmd
