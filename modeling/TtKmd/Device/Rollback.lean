import TtKmd.Device.Pool
import TtKmd.Device.Regions
import Mathlib.Data.Multiset.AddSub

/-!
# Failed memory requests change nothing

A request acquires its resources one after another and gives them back in its failure
path. `memOps` is the trace of what a request does to memory that the device can reach:
common buffers, locked pages and apertures, in program order. Replaying the trace gives
the regions that the handler leaves, so the trace accounts for the handler; what the
order of the trace is about is that an aperture is down before its memory goes.

The state of a running device is one that some run leads to. A chip reset may disable
regions at any moment.
-/

namespace TtKmd

open Lib

/-- What a request does to memory that the device can reach. -/
inductive MemOp
  /-- `WdfCommonBufferCreate`. -/
  | createBuffer (logical size : ℕ)
  /-- `WdfObjectDelete` of a common buffer. -/
  | deleteBuffer (logical size : ℕ)
  /-- `MmProbeAndLockPages`, with the frames of the pages. -/
  | lockPages (pfns : List ℕ)
  /-- `MmUnlockPages`. -/
  | unlockPages (pfns : List ℕ)
  /-- `TtSetupNocDma`. -/
  | setupNocDma (owner : Handle) (topDown : Bool) (size target : ℕ)
  /-- `TtTeardownNocDma`. -/
  | teardownNocDma (region : Option (Fin 16))

/-- The regions, and the host memory that is held for the device. -/
structure HostMemory where
  /-- `Iatu` and the registers behind it. -/
  iatu : IatuUnit
  /-- The common buffers, by bus address and size. -/
  buffers : Multiset (ℕ × ℕ)
  /-- The frames of the locked pages, one entry for each lock. -/
  locked : Multiset ℕ

/-- One operation on an attached device. -/
def HostMemory.apply (w : HostMemory) : MemOp → HostMemory
  | .createBuffer logical size => { w with buffers := {(logical, size)} + w.buffers }
  | .deleteBuffer logical size => { w with buffers := w.buffers - {(logical, size)} }
  | .lockPages pfns => { w with locked := (pfns : Multiset ℕ) + w.locked }
  | .unlockPages pfns => { w with locked := w.locked - (pfns : Multiset ℕ) }
  | .setupNocDma owner topDown size target =>
      { w with iatu := (ttSetupNocDma w.iatu owner topDown size target).unit }
  | .teardownNocDma region => { w with iatu := ttTeardownNocDma false w.iatu region }

/-- A sequence of operations. -/
def HostMemory.replay (w : HostMemory) (ops : List MemOp) : HostMemory :=
  ops.foldl HostMemory.apply w

/-- The operations that give memory back to the operating system. -/
def MemOp.releases : MemOp → Bool
  | .deleteBuffer .. => true
  | .unlockPages .. => true
  | _ => false

/-- Whenever the operations give memory back, the enabled regions are ones that were
enabled at the start, with the registers they had. -/
def DisabledFirst (start : IatuUnit) : HostMemory → List MemOp → Prop
  | _, [] => True
  | w, op :: ops =>
      (op.releases = true →
        ∀ r, (w.iatu.regs r).enabled = true → w.iatu.regs r = start.regs r) ∧
      DisabledFirst start (w.apply op) ops

/-- The set-up of `TtIoctlAllocateDmaBuf`, when `NOC_DMA` is asked for. -/
def dmaBufSetupOps (F : Handle) (i : AllocateDmaBufIn) (logical : ℕ) : List MemOp :=
  if i.nocDma then [.setupNocDma F true i.requestedSize logical] else []

/-- The operations of the section of `TtIoctlAllocateDmaBuf` after the reservation. -/
def allocateDmaBufReservedOps (u : IatuUnit) (F : Handle) (io : Io) (i : AllocateDmaBufIn)
    (env : DmaBufEnv) : List MemOp :=
  match env.commonBuffer with
  | none => [.teardownNocDma none]
  | some (logical, _) =>
      if u64Sub (u64 (logical + i.requestedSize)) 1 > nocDmaLimit then
        [.createBuffer logical i.requestedSize, .teardownNocDma none,
          .deleteBuffer logical i.requestedSize]
      else
        let noc := dmaBufAperture u F i logical
        .createBuffer logical i.requestedSize ::
          (dmaBufSetupOps F i logical ++
            if noc.status ≠ .success ∨ !env.pool ∨
                ttCompleteSizedOutBuffer io 24 40 ≠ .success then
              [.teardownNocDma noc.region, .deleteBuffer logical i.requestedSize]
            else [])

/-- The operations of `TtIoctlAllocateDmaBuf`. -/
def ttIoctlAllocateDmaBufOps (c : MemoryConfig) (m : MemoryState) (F : Handle) (io : Io)
    (i : AllocateDmaBufIn) (env : DmaBufEnv) : List MemOp :=
  if ttCopyInBuffer io 24 ≠ .success then []
  else if !c.dmaEnabler then []
  else if i.bufIndex ≥ maxDmaBufs then []
  else if i.requestedSize = 0 ∨ i.requestedSize % pageSize ≠ 0 ∨
      i.requestedSize > maxDmaBufSize then []
  else if (m.file F).dmaBufs i.bufIndex ≠ none then []
  else
    match ttDmaAccountReserve c m i.requestedSize with
    | none => []
    | some m => allocateDmaBufReservedOps m.iatu F io i env

/-- The set-up of `TtIoctlPinPages`, when an aperture is asked for. -/
def pinSetupOps (F : Handle) (i : PinPagesIn) (target : ℕ) : List MemOp :=
  if i.flags &&& 6 ≠ 0 then
    [.setupNocDma F (decide (i.flags &&& 4 ≠ 0)) i.size target]
  else []

/-- The operations of the section of `TtIoctlPinPages` once the device address is known;
`unlock` is what the failure path does to the pages. -/
def pinPagesLockedOps (u : IatuUnit) (F : Handle) (io : Io) (i : PinPagesIn) (target : ℕ)
    (unlock : List MemOp) : List MemOp :=
  let noc := pinAperture u F i target
  pinSetupOps F i target ++
    if noc.status ≠ .success ∨
        ttCompleteSizedOutBuffer io 24 i.outputSizeBytes ≠ .success then
      .teardownNocDma noc.region :: unlock
    else []

/-- The operations of `TtIoctlPinPages`. -/
def ttIoctlPinPagesOps (c : MemoryConfig) (m : MemoryState) (F : Handle) (io : Io)
    (i : PinPagesIn) (env : PinEnv) : List MemOp :=
  if pinPagesCheck io i ≠ .success then []
  else
    let f := m.file F
    if f.pinnings.any fun p => p.virtualAddress == i.virtualAddress && p.size == i.size then []
    else
      let backing := ttFindDmaBufView f i.virtualAddress i.size
      if backing = none ∧ (!c.dmaIdentityKnown ∨ !c.dmaIdentityMapped) then []
      else if !env.pool then []
      else
        match backing with
        | some (id, offset) =>
            pinPagesLockedOps m.iatu F io i ((f.findBuf id).elim 0 (·.logical) + offset) []
        | none =>
            if !env.mdl then [.teardownNocDma none]
            else
              match env.pfns with
              | none => [.teardownNocDma none]
              | some pfns =>
                  .lockPages pfns ::
                    if !contiguous pfns then [.teardownNocDma none, .unlockPages pfns]
                    else
                      pinPagesLockedOps m.iatu F io i (pfns.headD 0 * pageSize)
                        [.unlockPages pfns]

/-- The frames that a pinning keeps locked. -/
def Pinning.frames (p : Pinning) : List ℕ :=
  match p.mdl with
  | none => []
  | some pfn => List.range' pfn (p.size / pageSize)

/-- The operations of `TtIoctlFreeDmaBufEx`, in the order of `TtDmaBufDestroy`. -/
def ttIoctlFreeDmaBufExOps (m : MemoryState) (F : Handle) (io : Io) (i : FreeDmaBufExIn) :
    List MemOp :=
  if (ttIoctlFreeDmaBufEx false m F io i).status ≠ .success then []
  else
    match (m.file F).dmaBufs i.bufIndex with
    | none => []
    | some b => [.teardownNocDma b.iatuRegion, .deleteBuffer b.logical b.size]

/-- The operations of `TtIoctlUnpinPages`, in the order of `TtDestroyPinning`. -/
def ttIoctlUnpinPagesOps (m : MemoryState) (F : Handle) (io : Io) (i : UnpinPagesIn) :
    List MemOp :=
  if unpinPagesCheck io i ≠ .success then []
  else
    match (unpinSection m F i).1 with
    | none => []
    | some p => [.teardownNocDma p.iatuRegion, .unlockPages p.frames]

/-- The eight memory requests. -/
def Request.isMemory : Request → Bool
  | .lockCtl .. => false
  | .resetDevice .. => false
  | .other .. => false
  | _ => true

/-- The operations of a request, on either dispatch path. -/
def memOps (d : DeviceContext) (F : Handle) (caller : Process) (r : Request) : List MemOp :=
  if ttCheckIoGates d F r.nr ≠ .success then []
  else if r.inCallerContext ∧ d.creatorProcess F ≠ caller then []
  else
    match r with
    | .allocateDmaBuf io i env => ttIoctlAllocateDmaBufOps d.config d.mem F io i env
    | .freeDmaBufEx io i => ttIoctlFreeDmaBufExOps d.mem F io i
    | .pinPages io i env => ttIoctlPinPagesOps d.config d.mem F io i env
    | .unpinPages io i => ttIoctlUnpinPagesOps d.mem F io i
    | _ => []

/-- What a failed request must leave as it was. -/
structure Unchanged (m m' : MemoryState) : Prop where
  /-- `TlbUsed`. -/
  tlbUsed : m'.tlbUsed = m.tlbUsed
  /-- `TlbOwner`. -/
  tlbOwner : m'.tlbOwner = m.tlbOwner
  /-- The used slots. -/
  used : ∀ r, (m'.iatu.slots r).used = (m.iatu.slots r).used
  /-- Their ranges and owners. -/
  ranges : ∀ r, (m.iatu.slots r).used = true → m'.iatu.slots r = m.iatu.slots r
  /-- The regions that are enabled in hardware. -/
  enabled : ∀ r, (m'.iatu.regs r).enabled = (m.iatu.regs r).enabled
  /-- An enabled region translates as it did. -/
  registers : ∀ r, (m.iatu.regs r).enabled = true → m'.iatu.regs r = m.iatu.regs r
  /-- The DMA slots, the mappings and the pinnings of every handle. -/
  file : m'.file = m.file
  /-- `DmaBufBytes`. -/
  dmaBufBytes : m'.dmaBufBytes = m.dmaBufBytes

section Traces

variable {m : MemoryState} {u u' : IatuUnit} {F : Handle} {io : Io}
  {buffers : Multiset (ℕ × ℕ)} {locked : Multiset ℕ}

/-- The trace of a failed request accounts for it: the host memory is given back, the
regions are those the handler leaves, and every aperture is down before its memory goes. -/
structure RolledBack (u u' : IatuUnit) (ops : List MemOp) : Prop where
  /-- What the operations do. -/
  replay : ∀ buffers locked, (⟨u, buffers, locked⟩ : HostMemory).replay ops = ⟨u', buffers, locked⟩
  /-- The order of the operations. -/
  first : ∀ buffers locked, DisabledFirst u ⟨u, buffers, locked⟩ ops

/-- A request that fails before it acquires anything. -/
theorem RolledBack.nil (u : IatuUnit) : RolledBack u u [] :=
  ⟨fun _ _ => rfl, fun _ _ => trivial⟩

/-- A failure path without an aperture and without memory. -/
theorem RolledBack.none (u : IatuUnit) : RolledBack u u [.teardownNocDma .none] :=
  ⟨fun _ _ => rfl, fun _ _ => ⟨nofun, trivial⟩⟩

/-- After the teardown of a failure path the memory may go. -/
theorem disabledFirst_teardown {size target : ℕ} {region : Option (Fin 16)}
    (hopen : Opened u u' F size target region) (op : MemOp) :
    DisabledFirst u ⟨u', buffers, locked⟩ [.teardownNocDma region, op] := by
  refine ⟨nofun, fun _ r hr => ?_, trivial⟩
  exact (givesUp_undone hopen).undisturbed hr

/-- An operation that acquires memory, and the one that gives it back; neither touches
the regions. -/
structure GivenBack (acquire release : MemOp) : Prop where
  /-- Nothing is released by the first. -/
  acquires : acquire.releases = false
  /-- The second gives back what the first acquired. -/
  undone : ∀ u buffers locked, ∃ buffers' locked',
    (⟨u, buffers, locked⟩ : HostMemory).apply acquire = ⟨u, buffers', locked'⟩ ∧
      ∀ u', (⟨u', buffers', locked'⟩ : HostMemory).apply release = ⟨u', buffers, locked⟩

/-- A common buffer is deleted. -/
theorem givenBack_buffer (logical size : ℕ) :
    GivenBack (.createBuffer logical size) (.deleteBuffer logical size) :=
  ⟨rfl, fun u buffers locked => ⟨_, _, rfl, fun u' => by simp [HostMemory.apply]⟩⟩

/-- Pages are unlocked. -/
theorem givenBack_pages (pfns : List ℕ) : GivenBack (.lockPages pfns) (.unlockPages pfns) :=
  ⟨rfl, fun u buffers locked => ⟨_, _, rfl, fun u' => by simp [HostMemory.apply]⟩⟩

/-- The operations between the acquisition of memory and the failure: none, or a set-up. -/
inductive MaySetUp (u : IatuUnit) (F : Handle) : List MemOp → IatuUnit → Prop
  | no : MaySetUp u F [] u
  | yes (topDown : Bool) (size target : ℕ) :
      MaySetUp u F [.setupNocDma F topDown size target]
        (ttSetupNocDma u F topDown size target).unit

/-- Memory is acquired, an aperture may be opened for it, both are given back. -/
theorem rolledBack_held {size target : ℕ} {region : Option (Fin 16)} {setup : List MemOp}
    {acquire release : MemOp} (hback : GivenBack acquire release)
    (hopen : Opened u u' F size target region) (hsetup : MaySetUp u F setup u') :
    RolledBack u (ttTeardownNocDma false u' region)
      (acquire :: (setup ++ [.teardownNocDma region, release])) := by
  refine ⟨?_, ?_⟩
  · intro buffers locked
    obtain ⟨buffers', locked', hacq, hrel⟩ := hback.undone u buffers locked
    cases hsetup with
    | no =>
      simp only [HostMemory.replay, List.nil_append, List.foldl_cons, List.foldl_nil, hacq]
      exact hrel _
    | yes topDown size target =>
      simp only [HostMemory.replay, List.cons_append, List.nil_append, List.foldl_cons,
        List.foldl_nil, hacq]
      exact hrel _
  · intro buffers locked
    obtain ⟨buffers', locked', hacq, _⟩ := hback.undone u buffers locked
    refine ⟨fun h => absurd h (by simp [hback.acquires]), ?_⟩
    rw [hacq]
    cases hsetup with
    | no => exact disabledFirst_teardown hopen _
    | yes topDown size target => exact ⟨nofun, disabledFirst_teardown hopen _⟩

/-- No memory is acquired, an aperture may be opened and is given back. -/
theorem rolledBack_aperture {region : Option (Fin 16)} {setup : List MemOp}
    (hsetup : MaySetUp u F setup u') :
    RolledBack u (ttTeardownNocDma false u' region) (setup ++ [.teardownNocDma region]) := by
  cases hsetup with
  | no => exact ⟨fun _ _ => rfl, fun _ _ => ⟨nofun, trivial⟩⟩
  | yes topDown size target => exact ⟨fun _ _ => rfl, fun _ _ => ⟨nofun, nofun, trivial⟩⟩

/-- The set-up of a new DMA buffer. -/
theorem maySetUp_dmaBuf (u : IatuUnit) (F : Handle) (i : AllocateDmaBufIn) (logical : ℕ) :
    MaySetUp u F (dmaBufSetupOps F i logical) (dmaBufAperture u F i logical).unit := by
  unfold dmaBufAperture dmaBufSetupOps
  split
  · exact .yes _ _ _
  · exact .no

/-- The set-up of a pinning. -/
theorem maySetUp_pin (u : IatuUnit) (F : Handle) (i : PinPagesIn) (target : ℕ) :
    MaySetUp u F (pinSetupOps F i target) (pinAperture u F i target).unit := by
  unfold pinAperture pinSetupOps
  split
  · exact .yes _ _ _
  · exact .no

/-- The failures of `ALLOCATE_DMA_BUF` after the reservation. -/
theorem rolledBack_allocateDmaBufReserved (hok : SlotsOk m.iatu.slots) {i : AllocateDmaBufIn}
    (hsize : i.requestedSize < 2 ^ 32) {env : DmaBufEnv}
    (hfail : (allocateDmaBufReserved false m F io i env).status ≠ .success) :
    RolledBack m.iatu (allocateDmaBufReserved false m F io i env).mem.iatu
      (allocateDmaBufReservedOps m.iatu F io i env) := by
  unfold allocateDmaBufReserved at hfail ⊢
  unfold allocateDmaBufReservedOps
  cases hbuf : env.commonBuffer with
  | none => exact .none _
  | some addr =>
    obtain ⟨logical, physical⟩ := addr
    have hopen := dmaBufAperture_opened hok F i hsize logical
    have hheld := rolledBack_held (givenBack_buffer logical i.requestedSize) hopen
      (maySetUp_dmaBuf m.iatu F i logical)
    have hnone : Opened m.iatu m.iatu F i.requestedSize logical none := rfl
    simp only [hbuf] at hfail ⊢
    split
    · exact rolledBack_held (givenBack_buffer _ _) hnone .no
    rename_i hreach
    rw [if_neg hreach] at hfail
    by_cases hnoc : (dmaBufAperture m.iatu F i logical).status ≠ .success
    · rw [if_pos hnoc, if_pos (.inl hnoc)]
      exact hheld
    by_cases hpool : (!env.pool) = true
    · rw [if_neg hnoc, if_pos hpool, if_pos (.inr (.inl hpool))]
      exact hheld
    by_cases hout : ttCompleteSizedOutBuffer io 24 40 ≠ .success
    · rw [if_neg hnoc, if_neg hpool, if_pos hout, if_pos (.inr (.inr hout))]
      exact hheld
    · rw [if_neg hnoc, if_neg hpool, if_neg hout] at hfail
      exact absurd rfl hfail

/-- The failures of `ALLOCATE_DMA_BUF`. -/
theorem rolledBack_allocateDmaBuf {c : MemoryConfig} (hok : SlotsOk m.iatu.slots)
    {i : AllocateDmaBufIn} {env : DmaBufEnv}
    (hfail : (ttIoctlAllocateDmaBuf c false m F io i env).status ≠ .success) :
    RolledBack m.iatu (ttIoctlAllocateDmaBuf c false m F io i env).mem.iatu
      (ttIoctlAllocateDmaBufOps c m F io i env) := by
  unfold ttIoctlAllocateDmaBuf at hfail ⊢
  unfold ttIoctlAllocateDmaBufOps
  split
  · exact .nil _
  split
  · exact .nil _
  split
  · exact .nil _
  split
  · exact .nil _
  split
  · exact .nil _
  rename_i hin hdma hindex hsize hempty
  rw [if_neg hin, if_neg hdma, if_neg hindex, if_neg hsize, if_neg hempty] at hfail
  have hlt : i.requestedSize < 2 ^ 32 := by
    unfold maxDmaBufSize at hsize
    omega
  cases hres : ttDmaAccountReserve c m i.requestedSize with
  | none => exact .nil _
  | some m' =>
    simp only [hres] at hfail ⊢
    have hiatu : m'.iatu = m.iatu := by
      unfold ttDmaAccountReserve at hres
      dsimp only at hres
      split at hres
      · cases hres
      · cases hres
        rfl
    rw [← hiatu] at hok ⊢
    exact rolledBack_allocateDmaBufReserved hok hlt hfail

/-- The failures of `PIN_PAGES` once the device address is known, with pages that were
locked for it. -/
theorem rolledBack_pinPagesLocked (hok : SlotsOk m.iatu.slots) {i : PinPagesIn}
    (hsize : i.size < 2 ^ 32) {backing : Option ℕ} {target : ℕ} {mdl : Option ℕ} (pfns : List ℕ)
    (hfail : (pinPagesLocked false m F io i backing target mdl).status ≠ .success) :
    RolledBack m.iatu (pinPagesLocked false m F io i backing target mdl).mem.iatu
        (pinPagesLockedOps m.iatu F io i target []) ∧
      RolledBack m.iatu (pinPagesLocked false m F io i backing target mdl).mem.iatu
        (.lockPages pfns :: pinPagesLockedOps m.iatu F io i target [.unlockPages pfns]) := by
  have hopen := pinAperture_opened hok F i hsize target
  have hsetup := maySetUp_pin m.iatu F i target
  have hheld := rolledBack_held (givenBack_pages pfns) hopen hsetup
  have hbare : RolledBack m.iatu (ttTeardownNocDma false (pinAperture m.iatu F i target).unit
      (pinAperture m.iatu F i target).region) (_ ++ [.teardownNocDma _]) :=
    rolledBack_aperture hsetup
  unfold pinPagesLocked at hfail ⊢
  unfold pinPagesLockedOps
  dsimp only at hfail ⊢
  by_cases hnoc : (pinAperture m.iatu F i target).status ≠ .success
  · rw [if_pos hnoc, if_pos (.inl hnoc), if_pos (.inl hnoc)]
    exact ⟨hbare, hheld⟩
  by_cases hout : ttCompleteSizedOutBuffer io 24 i.outputSizeBytes ≠ .success
  · rw [if_neg hnoc, if_pos hout, if_pos (.inr hout), if_pos (.inr hout)]
    exact ⟨hbare, hheld⟩
  · rw [if_neg hnoc, if_neg hout] at hfail
    exact absurd rfl hfail

/-- The failures of `PIN_PAGES`. -/
theorem rolledBack_pinPages {c : MemoryConfig} (hok : SlotsOk m.iatu.slots) {i : PinPagesIn}
    {env : PinEnv} (hfail : (ttIoctlPinPages c false m F io i env).status ≠ .success) :
    RolledBack m.iatu (ttIoctlPinPages c false m F io i env).mem.iatu
      (ttIoctlPinPagesOps c m F io i env) := by
  unfold ttIoctlPinPages at hfail ⊢
  unfold ttIoctlPinPagesOps
  split
  · exact .nil _
  rename_i hcheck
  rw [if_neg hcheck] at hfail
  have hsize := (apertureSize_of_pinPagesCheck (not_not.mp hcheck)).2.1
  dsimp only at hfail ⊢
  split
  · exact .nil _
  rename_i hdup
  rw [if_neg hdup] at hfail
  split
  · exact .nil _
  rename_i hdomain
  rw [if_neg hdomain] at hfail
  split
  · exact .nil _
  rename_i hpool
  rw [if_neg hpool] at hfail
  cases hview : ttFindDmaBufView (m.file F) i.virtualAddress i.size with
  | some view =>
    obtain ⟨id, offset⟩ := view
    simp only [hview, pinPagesTarget] at hfail ⊢
    exact (rolledBack_pinPagesLocked hok hsize [] hfail).1
  | none =>
    simp only [hview, pinPagesTarget] at hfail ⊢
    by_cases hmdl : (!env.mdl) = true
    · simp only [hmdl, if_true]
      exact .none _
    simp only [hmdl] at hfail ⊢
    cases hpfns : env.pfns with
    | none => exact .none _
    | some pfns =>
      simp only [hpfns] at hfail ⊢
      by_cases hcont : (!contiguous pfns) = true
      · simp only [hcont, if_true]
        have hnone : Opened m.iatu m.iatu F i.size 0 none := rfl
        exact rolledBack_held (givenBack_pages pfns) hnone .no
      simp only [hcont] at hfail ⊢
      exact (rolledBack_pinPagesLocked hok hsize pfns hfail).2

/-- The trace of a failed request accounts for what it leaves of the regions. -/
theorem rolledBack_dispatch {d : DeviceContext} (hok : SlotsOk d.mem.iatu.slots)
    (hdet : d.detached = false) {caller : Process} {r : Request} (hmem : r.isMemory = true)
    (hfail : (dispatch d F caller r).status ≠ .success) :
    RolledBack d.mem.iatu (dispatch d F caller r).device.mem.iatu (memOps d F caller r) := by
  unfold dispatch at hfail ⊢
  unfold memOps
  split
  · exact .nil _
  rename_i hgate
  rw [if_neg hgate] at hfail
  split
  · exact .nil _
  rename_i hctx
  rw [if_neg hctx] at hfail
  cases r with
  | allocateDmaBuf io i env =>
    simp only [handle, DeviceContext.withMem, hdet] at hfail ⊢
    exact rolledBack_allocateDmaBuf hok hfail
  | freeDmaBufEx io i =>
    simp only [handle, DeviceContext.withMem, hdet] at hfail ⊢
    rcases ttIoctlFreeDmaBufEx_cases false d.mem F io i with ⟨_, hm⟩ | ⟨hs, _⟩
    · rw [hm, ttIoctlFreeDmaBufExOps, if_pos hfail]
      exact .nil _
    · exact absurd hs hfail
  | allocateTlb io size =>
    obtain ⟨used, owner, hm⟩ := ttIoctlAllocateTlb_windows d.config d.mem F io size
    simp only [handle, DeviceContext.withMem, hm]
    exact .nil _
  | freeTlb io id =>
    obtain ⟨used, owner, hm⟩ := ttIoctlFreeTlb_windows d.mem F io id
    simp only [handle, DeviceContext.withMem, hm]
    exact .nil _
  | map io i env =>
    simp only [handle, DeviceContext.withMem] at hfail ⊢
    rcases ttIoctlMap_cases d.config d.mem F io i { env with process := caller } with hm | ⟨hs, _⟩
    · rw [hm]
      exact .nil _
    · exact absurd hs hfail
  | unmap io userVa reserved =>
    simp only [handle, DeviceContext.withMem]
    rcases ttIoctlUnmap_mem d.mem F io userVa reserved with hm | hm
    · rw [hm]
      exact .nil _
    · rw [hm]
      rcases unmapSection_cases (m := d.mem) (F := F) userVa with hs | ⟨v, l, _, hs⟩
      · rw [hs]
        exact .nil _
      · rw [hs]
        exact .nil _
  | pinPages io i env =>
    simp only [handle, DeviceContext.withMem, hdet] at hfail ⊢
    exact rolledBack_pinPages hok hfail
  | unpinPages io i =>
    simp only [handle, DeviceContext.withMem, hdet] at hfail ⊢
    unfold ttIoctlUnpinPages at hfail ⊢
    unfold ttIoctlUnpinPagesOps
    split
    · exact .nil _
    rename_i hcheck
    rw [if_neg hcheck] at hfail
    rcases unpinSection_cases (m := d.mem) (F := F) i with hs | ⟨p, l, _, hs⟩
    · rw [hs]
      exact .nil _
    · rw [hs] at hfail
      exact absurd rfl hfail
  | lockCtl io i env => cases hmem
  | resetDevice io i env => cases hmem
  | other nr status => cases hmem

end Traces

/-- The regions that are not claimed are disabled. -/
def FreeDisabled (u : IatuUnit) : Prop :=
  ∀ r, (u.slots r).used = false → (u.regs r).enabled = false

section Unchanged

variable {d d' : DeviceContext} {m m' : MemoryState} {u u' : IatuUnit} {F : Handle} {io : Io}

/-- Nothing happened. -/
theorem Unchanged.refl (m : MemoryState) : Unchanged m m :=
  ⟨rfl, rfl, fun _ => rfl, fun _ _ => rfl, fun _ => rfl, fun _ _ => rfl, rfl, rfl⟩

/-- A request that opened an aperture and gave up. -/
theorem Unchanged.undone (hfree : FreeDisabled m.iatu) {size : ℕ}
    (h : Undone false m m' F size) : Unchanged m m' := by
  obtain ⟨u', target, region, hopen, rfl⟩ := h
  have hgives := givesUp_undone hopen
  have hused := undone_used hopen
  have hregs : ∀ r, (m.iatu.slots r).used = true →
      (ttTeardownNocDma false u' region).slots r = m.iatu.slots r ∧
        (ttTeardownNocDma false u' region).regs r = m.iatu.regs r := by
    intro r hr
    exact hgives.kept r (by rw [hused r]; exact hr)
  refine ⟨rfl, rfl, hused, fun r hr => (hregs r hr).1, ?_, ?_, rfl, rfl⟩
  · intro r
    cases hr : (m.iatu.slots r).used with
    | true => exact congrArg AtuRegs.enabled (hregs r hr).2
    | false =>
      have hbefore := hfree r hr
      rcases hgives.idle r (by rw [hused r]; exact hr) with hdisabled | ⟨_, hsame⟩
      · exact hdisabled.trans hbefore.symm
      · exact congrArg AtuRegs.enabled hsame
  · intro r hen
    cases hr : (m.iatu.slots r).used with
    | true => exact (hregs r hr).2
    | false =>
      rw [hfree r hr] at hen
      cases hen

/-- A window that is claimed and released again. -/
theorem Unchanged.releaseTlb_holdTlb (hfree : FreeUnowned m) {id : ℕ}
    (hid : m.tlbUsed id = false) : Unchanged m (releaseTlb (holdTlb m F id) id) := by
  have hused : Function.update (Function.update m.tlbUsed id true) id false = m.tlbUsed := by
    rw [Function.update_idem, ← hid, Function.update_eq_self]
  have howner : Function.update (Function.update m.tlbOwner id (some F)) id none =
      m.tlbOwner := by
    rw [Function.update_idem, ← hfree id hid, Function.update_eq_self]
  refine ⟨hused, howner, ?_, ?_, ?_, ?_, rfl, rfl⟩ <;> intros <;> rfl

/-- A failed handler of a memory request on an attached device. -/
theorem unchanged_handle (hok : SlotsOk d.mem.iatu.slots) (hdet : d.detached = false)
    (hfree : FreeDisabled d.mem.iatu) (hunowned : FreeUnowned d.mem) {caller : Process}
    {r : Request} (hmem : r.isMemory = true)
    (hfail : (handle d F caller r).status ≠ .success) :
    Unchanged d.mem (handle d F caller r).device.mem := by
  cases r with
  | allocateDmaBuf io i env =>
    simp only [handle, DeviceContext.withMem, hdet] at hfail ⊢
    rcases ttIoctlAllocateDmaBuf_cases d.config false F io hok i env with
      (hm | ⟨_, hundone⟩) | ⟨hs, _⟩
    · rw [hm]
      exact .refl _
    · exact .undone hfree hundone
    · exact absurd hs hfail
  | freeDmaBufEx io i =>
    simp only [handle, DeviceContext.withMem] at hfail ⊢
    rcases ttIoctlFreeDmaBufEx_cases d.detached d.mem F io i with ⟨_, hm⟩ | ⟨hs, _⟩
    · rw [hm]
      exact .refl _
    · exact absurd hs hfail
  | allocateTlb io size =>
    simp only [handle, DeviceContext.withMem] at hfail ⊢
    rcases ttIoctlAllocateTlb_cases d.config d.mem F io size with
      ⟨_, _, hreply⟩ | ⟨_, _, ⟨_, hreply⟩ | ⟨id, _, hid, _, hreply⟩⟩
    · rw [hreply]
      exact .refl _
    · rw [hreply]
      exact .refl _
    · rw [hreply] at hfail ⊢
      split
      · rename_i hout
        rw [if_pos hout] at hfail
        exact absurd rfl hfail
      · exact .releaseTlb_holdTlb hunowned hid
  | freeTlb io id =>
    simp only [handle, DeviceContext.withMem] at hfail ⊢
    rcases ttIoctlFreeTlb_cases d.mem F io id with ⟨_, hm⟩ | ⟨hs, _⟩
    · rw [hm]
      exact .refl _
    · exact absurd hs hfail
  | map io i env =>
    simp only [handle, DeviceContext.withMem] at hfail ⊢
    rcases ttIoctlMap_cases d.config d.mem F io i { env with process := caller } with hm | ⟨hs, _⟩
    · rw [hm]
      exact .refl _
    · exact absurd hs hfail
  | unmap io userVa reserved =>
    simp only [handle, DeviceContext.withMem] at hfail ⊢
    unfold ttIoctlUnmap at hfail ⊢
    split
    · exact .refl _
    rename_i hcheck
    rw [if_neg hcheck] at hfail
    rcases unmapSection_cases (m := d.mem) (F := F) userVa with hs | ⟨v, l, _, hs⟩
    · rw [hs]
      exact .refl _
    · rw [hs] at hfail
      exact absurd rfl hfail
  | pinPages io i env =>
    simp only [handle, DeviceContext.withMem, hdet] at hfail ⊢
    rcases ttIoctlPinPages_cases d.config false F io hok i env with
      (hm | ⟨_, hundone⟩) | ⟨hs, _⟩
    · rw [hm]
      exact .refl _
    · exact .undone hfree hundone
    · exact absurd hs hfail
  | unpinPages io i =>
    simp only [handle, DeviceContext.withMem] at hfail ⊢
    unfold ttIoctlUnpinPages at hfail ⊢
    split
    · exact .refl _
    rename_i hcheck
    rw [if_neg hcheck] at hfail
    rcases unpinSection_cases (m := d.mem) (F := F) i with hs | ⟨p, l, _, hs⟩
    · rw [hs]
      exact .refl _
    · rw [hs] at hfail
      exact absurd rfl hfail
  | lockCtl io i env => cases hmem
  | resetDevice io i env => cases hmem
  | other nr status => cases hmem

end Unchanged

/-- What can happen to a device and to its chip. -/
inductive ChipEvent
  /-- An entry point. -/
  | device (e : Event)
  /-- A chip reset: the registers of these regions are lost. -/
  | chipReset (lost : Fin 16 → Bool)

/-- The device after a chip reset. -/
def DeviceContext.loseRegs (d : DeviceContext) (lost : Fin 16 → Bool) : DeviceContext :=
  { d with mem := { d.mem with
      iatu := { d.mem.iatu with
        regs := fun r => if lost r then fun _ => 0 else d.mem.iatu.regs r } } }

/-- One step of a device with its chip. -/
def DeviceContext.chipNext (d : DeviceContext) : ChipEvent → Option DeviceContext
  | .device e => d.next e
  | .chipReset lost => some (d.loseRegs lost)

/-- The invariant of the runs. -/
structure Settled (d : DeviceContext) : Prop where
  /-- The books agree. -/
  resources : Resources d
  /-- Free windows have no owner. -/
  unowned : FreeUnowned d.mem
  /-- On an attached device free regions are disabled. -/
  disabled : d.detached = false → FreeDisabled d.mem.iatu

section Runs

variable {d d' : DeviceContext} {m m' : MemoryState} {u u' : IatuUnit} {F : Handle}

/-- Giving regions up keeps the free ones disabled. -/
theorem FreeDisabled.givesUp (h : FreeDisabled u) (hgives : GivesUp u u') : FreeDisabled u' := by
  intro r hr
  rcases hgives.idle r hr with hdisabled | ⟨hfree, hregs⟩
  · exact hdisabled
  · rw [hregs]
    exact h r hfree

/-- Opening an aperture keeps the free regions disabled. -/
theorem FreeDisabled.opened (h : FreeDisabled u) {size target : ℕ} {region : Option (Fin 16)}
    (hopen : Opened u u' F size target region) : FreeDisabled u' := by
  cases region with
  | none =>
    cases hopen
    exact h
  | some slot =>
    obtain ⟨topDown, base, hset⟩ := hopen
    intro r hr
    rw [hset.slots] at hr
    have hslot : r ≠ slot := by
      rintro rfl
      simp at hr
    rw [claimSlot_of_ne hslot] at hr
    rw [hset.regs, Function.update_of_ne hslot]
    exact h r hr

/-- A request keeps the free regions disabled. -/
theorem FreeDisabled.request (h : FreeDisabled m.iatu) {r : Request}
    (hafter : RegionsAfter m m' F r) : FreeDisabled m'.iatu := by
  cases hafter with
  | quiet hquiet => exact h.givesUp hquiet.regions
  | allocated hall =>
    rw [hall.mem]
    exact h.opened hall.aperture
  | pinned hpin =>
    rw [hpin.mem]
    exact h.opened hpin.aperture

/-- Every entry point keeps the invariant. -/
theorem Settled.next (h : Settled d) {e : Event} (hstep : d.next e = some d') : Settled d' := by
  have hok := h.resources.books.apertures.ok
  refine ⟨h.resources.next hstep, h.unowned.next hok hstep, ?_⟩
  intro hdet
  by_cases hreq : ∃ F caller r, e = .request F caller r
  · obtain ⟨F, caller, r, rfl⟩ := hreq
    obtain ⟨_, rfl⟩ := DeviceContext.next_request hstep
    have hatt : d.detached = false := by rwa [dispatch_detached] at hdet
    exact (h.disabled hatt).request (dispatch_regions hok hatt caller r)
  · have hquiet := next_quiet hstep hdet fun F caller r hr => hreq ⟨F, caller, r, hr⟩
    have hatt : d.detached = false := by
      cases e with
      | create opener =>
        cases hstep
        exact hdet
      | request F caller r => exact absurd ⟨F, caller, r, rfl⟩ hreq
      | cleanup F =>
        obtain ⟨_, rfl⟩ := DeviceContext.next_cleanup hstep
        exact hdet
      | processExit process =>
        cases hstep
        exact hdet
      | surpriseRemoval =>
        cases hstep
        cases hdet
      | cancel k =>
        cases hstep
        exact hdet
    exact (h.disabled hatt).givesUp hquiet.regions

/-- A chip reset keeps the invariant. -/
theorem Settled.chipReset (h : Settled d) (lost : Fin 16 → Bool) : Settled (d.loseRegs lost) := by
  obtain ⟨apertures, files, bytes, fresh⟩ := h.resources.books
  refine ⟨⟨⟨⟨apertures.ok, apertures.aligned, apertures.owned, apertures.holds⟩, files, bytes,
    fresh⟩, h.resources.listed, h.resources.nodup, h.resources.known, h.resources.gone⟩,
    h.unowned, ?_⟩
  intro hdet r hr
  simp only [DeviceContext.loseRegs]
  split
  · rfl
  · exact h.disabled hdet r hr

/-- Every run of a started device keeps the invariant. -/
theorem Settled.run {config : MemoryConfig} {subsysVendorId subsysId : ℕ} {needsHwInit : Bool}
    {regs : Fin 16 → AtuRegs} (hregs : ∀ r, (regs r).enabled = false) {es : List ChipEvent}
    (hrun : Run (partialGraph DeviceContext.chipNext)
      (.started config subsysVendorId subsysId needsHwInit regs) es d) : Settled d := by
  refine hrun.invariant ?_ ⟨.started config subsysVendorId subsysId needsHwInit regs, ?_, ?_⟩
  · intro d e d' h hstep
    cases e with
    | device e => exact h.next hstep
    | chipReset lost =>
      cases hstep
      exact h.chipReset lost
  · intro id _
    rfl
  · intro _ r _
    exact hregs r

/-- In every state that a run of a started device leads to, a memory request that fails,
wherever it fails, leaves the pool, the table and the enabled regions, the records of
every handle and the count of bytes as they were; it gives the memory back that it held,
and no region that it programmed is enabled when it does. -/
theorem failed_request_changes_nothing {config : MemoryConfig} {subsysVendorId subsysId : ℕ}
    {needsHwInit : Bool} {regs : Fin 16 → AtuRegs} (hregs : ∀ r, (regs r).enabled = false)
    {es : List ChipEvent}
    (hrun : Run (partialGraph DeviceContext.chipNext)
      (.started config subsysVendorId subsysId needsHwInit regs) es d)
    (F : Handle) (caller : Process) {r : Request} (hmem : r.isMemory = true)
    (hfail : (dispatch d F caller r).status ≠ .success) :
    Unchanged d.mem (dispatch d F caller r).device.mem ∧
      ∀ buffers locked,
        (⟨d.mem.iatu, buffers, locked⟩ : HostMemory).replay (memOps d F caller r) =
            ⟨(dispatch d F caller r).device.mem.iatu, buffers, locked⟩ ∧
          DisabledFirst d.mem.iatu ⟨d.mem.iatu, buffers, locked⟩ (memOps d F caller r) := by
  have h := Settled.run hregs hrun
  have hok := h.resources.books.apertures.ok
  by_cases hgate : ttCheckIoGates d F r.nr = .success
  · have hdet := (DeviceContext.removed_eq_false.mp (not_removed_of_gate hgate)).1
    have hback := rolledBack_dispatch hok hdet hmem hfail
    refine ⟨?_, fun buffers locked => ⟨hback.replay buffers locked, hback.first buffers locked⟩⟩
    unfold dispatch at hfail ⊢
    rw [if_neg (not_not.mpr hgate)] at hfail ⊢
    split
    · exact .refl _
    · rename_i hctx
      rw [if_neg hctx] at hfail
      exact unchanged_handle hok hdet (h.disabled hdet) h.unowned hmem hfail
  · have hops : memOps d F caller r = [] := by
      unfold memOps
      rw [if_pos hgate]
    rw [hops, dispatch_of_refused rfl hgate]
    exact ⟨.refl _, fun _ _ => ⟨rfl, trivial⟩⟩

end Runs

/-- A handle has a page with an aperture. -/
def pageWithAperture : List ChipEvent :=
  [.device (.create 7),
   .device (.request 0 7
     (.allocateDmaBuf ⟨24, 64⟩ ⟨4096, 3, true⟩ ⟨some (0x10000, 0x10000), true⟩))]

/-- A second page is asked for with an output buffer that is too short for the answer. -/
def shortRequest : Request :=
  .allocateDmaBuf ⟨24, 63⟩ ⟨4096, 4, true⟩ ⟨some (0x20000, 0x20000), true⟩

/-- The request fails after everything was acquired. -/
theorem failed_request_changes_nothing_shortOutput :
    ∃ d, Run (partialGraph DeviceContext.chipNext)
        (.started blackholeConfig 0 0 false fun _ _ => 0) pageWithAperture d ∧
      (dispatch d 0 7 shortRequest).status = .accessViolation ∧
      Unchanged d.mem (dispatch d 0 7 shortRequest).device.mem ∧
      ∀ buffers locked,
        (⟨d.mem.iatu, buffers, locked⟩ : HostMemory).replay (memOps d 0 7 shortRequest) =
            ⟨(dispatch d 0 7 shortRequest).device.mem.iatu, buffers, locked⟩ ∧
          DisabledFirst d.mem.iatu ⟨d.mem.iatu, buffers, locked⟩ (memOps d 0 7 shortRequest) :=
  have hrun : Run (partialGraph DeviceContext.chipNext)
      (.started blackholeConfig 0 0 false fun _ _ => 0) pageWithAperture _ := run_of_runList rfl
  have hstatus : (dispatch _ 0 7 shortRequest).status = .accessViolation := rfl
  ⟨_, hrun, hstatus, failed_request_changes_nothing (fun _ => rfl) hrun 0 7 rfl
    (ne_of_eq_of_ne hstatus (by decide))⟩

end TtKmd
