import TtKmd.Memory.State

/-!
# The memory requests

Each handler is written as the section it executes under the file lock, after the
checks it makes before taking the lock. `UNMAP`, `UNPIN_PAGES` and `ALLOCATE_TLB`
have more than one section: the record is unlinked under the lock and torn down
after it, and a window whose description cannot be returned is released again. The
parts are separate definitions here, and the handler is their composition.
-/

namespace TtKmd

open Lib

/-- `TtTlbDescribe`: the BAR, the byte offset and the size of a window. -/
def ttTlbDescribe (c : MemoryConfig) (id : ℕ) : Option (ℕ × ℕ × ℕ) :=
  if id < tlb2mCount then some (0, id * kernelTlbLen, kernelTlbLen)
  else if id < tlb2mCount + c.tlb4gCount then some (4, (id - tlb2mCount) * 2 ^ 32, 2 ^ 32)
  else none

/-- `tenstorrent_allocate_tlb_out`. -/
structure AllocateTlbOut where
  /-- `id`. -/
  id : ℕ
  /-- `mmap_offset_uc`. -/
  mmapOffsetUc : ℕ
  /-- `mmap_offset_wc`. -/
  mmapOffsetWc : ℕ

/-- The pool an exact size selects: its first window and their number. -/
def tlbPool (c : MemoryConfig) (size : ℕ) : Option (ℕ × ℕ) :=
  if size = kernelTlbLen then some (0, tlb2mCount)
  else if size = 2 ^ 32 then some (tlb2mCount, c.tlb4gCount)
  else none

/-- The checks of `TtIoctlAllocateTlb` before its section. -/
def allocateTlbCheck (c : MemoryConfig) (io : Io) (size : ℕ) : Except NtStatus (ℕ × ℕ) :=
  if !c.isBlackhole then .error .invalidParameter
  else if ttCopyInBuffer io 16 ≠ .success then .error .accessViolation
  else
    match tlbPool c size with
    | none => .error .invalidParameter
    | some pool => .ok pool

/-- The first section of `TtIoctlAllocateTlb`: the first free window of the pool is
claimed. -/
def claimTlb (m : MemoryState) (F : Handle) (pool : ℕ × ℕ) : Option ℕ × MemoryState :=
  match (List.range' pool.1 pool.2).find? fun id => !m.tlbUsed id with
  | none => (none, m)
  | some id =>
      (some id, { m with
        tlbUsed := Function.update m.tlbUsed id true,
        tlbOwner := Function.update m.tlbOwner id (some F) })

/-- A window is marked free. -/
def releaseTlb (m : MemoryState) (id : ℕ) : MemoryState :=
  { m with
    tlbUsed := Function.update m.tlbUsed id false,
    tlbOwner := Function.update m.tlbOwner id none }

/-- The description `TtIoctlAllocateTlb` returns. -/
def allocateTlbOut (c : MemoryConfig) (id : ℕ) : AllocateTlbOut :=
  let (bar, barOffset, _) := (ttTlbDescribe c id).getD (0, 0, 0)
  let encoded := if bar = 4 then barOffset + 2 ^ 29 else barOffset
  ⟨id, 6 * 2 ^ 36 + encoded, 7 * 2 ^ 36 + encoded⟩

/-- `TtIoctlAllocateTlb`. -/
def ttIoctlAllocateTlb (c : MemoryConfig) (m : MemoryState) (F : Handle) (io : Io) (size : ℕ) :
    Reply AllocateTlbOut :=
  match allocateTlbCheck c io size with
  | .error status => .fail m status
  | .ok pool =>
      match claimTlb m F pool with
      | (none, m) => .fail m .insufficientResources
      | (some id, m) =>
          if ttCompleteSizedOutBuffer io 16 32 = .success then
            ⟨.success, some (allocateTlbOut c id), m⟩
          else .fail (releaseTlb m id) .accessViolation

/-- `TtIoctlFreeTlb`. -/
def ttIoctlFreeTlb (m : MemoryState) (F : Handle) (io : Io) (id : ℕ) : Reply Unit :=
  if ttCopyInBuffer io 4 ≠ .success then .fail m .accessViolation
  else if id ≥ maxInboundTlbs then .fail m .invalidParameter
  else if id ≥ tlbTotal ∨ !m.tlbUsed id ∨ m.tlbOwner id ≠ some F then .fail m .accessDenied
  else if (m.file F).mappings.any fun v => v.tlbId == some id then .fail m .deviceBusy
  else ⟨.success, some (), releaseTlb m id⟩

/-- `TtDmaAccountReserve`; `none` is a refusal. -/
def ttDmaAccountReserve (c : MemoryConfig) (m : MemoryState) (bytes : ℕ) : Option MemoryState :=
  let total := m.dmaBufBytes + bytes
  if c.dmaBufLimitBytes ≠ 0 ∧ total > c.dmaBufLimitBytes then none
  else some { m with dmaBufBytes := total }

/-- `TtDmaAccountRelease`. -/
def ttDmaAccountRelease (m : MemoryState) (bytes : ℕ) : MemoryState :=
  { m with dmaBufBytes := m.dmaBufBytes - bytes }

/-- `TtDmaBufDestroy`. -/
def ttDmaBufDestroy (detached : Bool) (m : MemoryState) (b : DmaBuf) : MemoryState :=
  ttDmaAccountRelease { m with iatu := ttTeardownNocDma detached m.iatu b.iatuRegion } b.size

/-- `tenstorrent_allocate_dma_buf_in`, with `NOC_DMA` as its own field. -/
structure AllocateDmaBufIn where
  /-- `requested_size`. -/
  requestedSize : ℕ
  /-- `buf_index`. -/
  bufIndex : ℕ
  /-- `flags & TENSTORRENT_ALLOCATE_DMA_BUF_NOC_DMA`. -/
  nocDma : Bool

/-- `tenstorrent_allocate_dma_buf_out`. -/
structure AllocateDmaBufOut where
  /-- `physical_address`. -/
  physicalAddress : ℕ
  /-- `mapping_offset`. -/
  mappingOffset : ℕ
  /-- `size`. -/
  size : ℕ
  /-- `noc_address`. -/
  nocAddress : ℕ

/-- What the operating system answers to `TtIoctlAllocateDmaBuf`. -/
structure DmaBufEnv where
  /-- `WdfCommonBufferCreate`: the logical and the physical address. -/
  commonBuffer : Option (ℕ × ℕ)
  /-- `ExAllocatePool2` succeeds. -/
  pool : Bool

/-- `TT_MMAP_OFFSET_DMA_BUF`. -/
def mmapOffsetDmaBuf : ℕ := 15 * 2 ^ 36

/-- The failure path of `TtIoctlAllocateDmaBuf` once the bytes are reserved. -/
def allocateDmaBufFail (detached : Bool) (m : MemoryState) (region : Option (Fin 16))
    (bytes : ℕ) (status : NtStatus) : Reply AllocateDmaBufOut :=
  .fail (ttDmaAccountRelease { m with iatu := ttTeardownNocDma detached m.iatu region } bytes)
    status

/-- The aperture of a new DMA buffer: none is asked for, or it is set up top-down. -/
def dmaBufAperture (u : IatuUnit) (F : Handle) (i : AllocateDmaBufIn) (logical : ℕ) :
    NocDmaResult :=
  if i.nocDma then ttSetupNocDma u F true i.requestedSize logical else ⟨.success, 0, none, u⟩

/-- The section of `TtIoctlAllocateDmaBuf` after the reservation of the bytes. -/
def allocateDmaBufReserved (detached : Bool) (m : MemoryState) (F : Handle) (io : Io)
    (i : AllocateDmaBufIn) (env : DmaBufEnv) : Reply AllocateDmaBufOut :=
  match env.commonBuffer with
  | none => allocateDmaBufFail detached m none i.requestedSize .insufficientResources
  | some (logical, physical) =>
      if u64Sub (u64 (logical + i.requestedSize)) 1 > nocDmaLimit then
        allocateDmaBufFail detached m none i.requestedSize .insufficientResources
      else
        let noc := dmaBufAperture m.iatu F i logical
        let m := { m with iatu := noc.unit }
        if noc.status ≠ .success then
          allocateDmaBufFail detached m noc.region i.requestedSize noc.status
        else if !env.pool then
          allocateDmaBufFail detached m noc.region i.requestedSize .insufficientResources
        else if ttCompleteSizedOutBuffer io 24 40 ≠ .success then
          allocateDmaBufFail detached m noc.region i.requestedSize .accessViolation
        else
          let b : DmaBuf :=
            ⟨m.nextBuf, i.requestedSize, i.bufIndex, logical, physical, noc.region⟩
          let f := m.file F
          let m := m.setFile F { f with dmaBufs := Function.update f.dmaBufs i.bufIndex (some b) }
          ⟨.success,
            some ⟨logical, mmapOffsetDmaBuf + i.bufIndex * 2 ^ 32, i.requestedSize, noc.nocAddress⟩,
            { m with nextBuf := m.nextBuf + 1 }⟩

/-- `TtIoctlAllocateDmaBuf`. -/
def ttIoctlAllocateDmaBuf (c : MemoryConfig) (detached : Bool) (m : MemoryState) (F : Handle)
    (io : Io) (i : AllocateDmaBufIn) (env : DmaBufEnv) : Reply AllocateDmaBufOut :=
  if ttCopyInBuffer io 24 ≠ .success then .fail m .accessViolation
  else if !c.dmaEnabler then .fail m .invalidParameter
  else if i.bufIndex ≥ maxDmaBufs then .fail m .invalidParameter
  else if i.requestedSize = 0 ∨ i.requestedSize % pageSize ≠ 0 ∨
      i.requestedSize > maxDmaBufSize then
    .fail m .invalidParameter
  else if (m.file F).dmaBufs i.bufIndex ≠ none then .fail m .invalidParameter
  else
    match ttDmaAccountReserve c m i.requestedSize with
    | none => .fail m .quotaExceeded
    | some m => allocateDmaBufReserved detached m F io i env

/-- A mapping or a pinning in the lists of the handle refers to a buffer. -/
def bufReferenced (f : FileMemory) (b : DmaBuf) : Bool :=
  f.mappings.any (fun v => v.dmaBuf == some b.id) ||
    f.pinnings.any fun p => p.backingDmaBuf == some b.id

/-- `tenstorrent_free_dma_buf_ex_in`. -/
structure FreeDmaBufExIn where
  /-- `buf_index`. -/
  bufIndex : ℕ
  /-- `reserved`. -/
  reserved : ℕ

/-- `TtIoctlFreeDmaBufEx`. -/
def ttIoctlFreeDmaBufEx (detached : Bool) (m : MemoryState) (F : Handle) (io : Io)
    (i : FreeDmaBufExIn) : Reply Unit :=
  if ttCopyInBuffer io 8 ≠ .success then .fail m .accessViolation
  else if i.reserved ≠ 0 ∨ i.bufIndex ≥ maxDmaBufs then .fail m .invalidParameter
  else
    let f := m.file F
    match f.dmaBufs i.bufIndex with
    | none => .fail m .invalidParameter
    | some b =>
        if bufReferenced f b then .fail m .deviceBusy
        else
          let m := m.setFile F { f with dmaBufs := Function.update f.dmaBufs i.bufIndex none }
          ⟨.success, some (), ttDmaBufDestroy detached m b⟩

/-- `MEMORY_CACHING_TYPE`. -/
inductive CacheType
  | cached
  | nonCached
  | writeCombined
  deriving DecidableEq

/-- What `TtResolveMapTarget` resolves a token to. -/
structure MapTarget where
  /-- `*Physical`. -/
  physical : ℕ
  /-- `*CacheType`. -/
  cacheType : CacheType
  /-- `*TlbId`. -/
  tlbId : Option ℕ
  /-- `*DmaBuf`. -/
  dmaBuf : Option ℕ

/-- The DMA-buffer tokens of `TtResolveMapTarget`. -/
def resolveDmaBuf (f : FileMemory) (mmapOffset length : ℕ) : Except NtStatus MapTarget :=
  let rel := mmapOffset - mmapOffsetDmaBuf
  let index := rel / 2 ^ 32
  if rel % 2 ^ 32 ≠ 0 ∨ index ≥ maxDmaBufs then .error .invalidParameter
  else
    match f.dmaBufs index with
    | none => .error .invalidParameter
    | some b =>
        if length > b.size then .error .invalidParameter
        else .ok ⟨b.physical, .cached, none, some b.id⟩

/-- The BAR tokens of `TtResolveMapTarget`. -/
def resolveBar (c : MemoryConfig) (mmapOffset length : ℕ) : Except NtStatus MapTarget :=
  let region := mmapOffset / 2 ^ 36
  let offset := mmapOffset % 2 ^ 36
  let bar := region / 2 * 2
  if c.barLength bar = 0 ∨ offset ≥ c.barLength bar ∨ length > c.barLength bar - offset then
    .error .invalidParameter
  else
    .ok ⟨c.barBase bar + offset, if region % 2 = 1 then .writeCombined else .nonCached, none, none⟩

/-- The window a TLB token names: its BAR, its byte offset and its id. -/
def decodeTlb (encoded length : ℕ) : Option (ℕ × ℕ × ℕ) :=
  if encoded < 2 ^ 29 then
    if encoded % kernelTlbLen ≠ 0 ∨ length > kernelTlbLen then none
    else some (0, encoded, encoded / kernelTlbLen)
  else
    let barOffset := encoded - 2 ^ 29
    if barOffset % 2 ^ 32 ≠ 0 ∨ length > 2 ^ 32 then none
    else some (4, barOffset, tlb2mCount + barOffset / 2 ^ 32)

/-- The TLB tokens of `TtResolveMapTarget`. -/
def resolveTlb (c : MemoryConfig) (m : MemoryState) (F : Handle) (mmapOffset length : ℕ) :
    Except NtStatus MapTarget :=
  let wc := mmapOffset ≥ 7 * 2 ^ 36
  match decodeTlb (mmapOffset - if wc then 7 * 2 ^ 36 else 6 * 2 ^ 36) length with
  | none => .error .invalidParameter
  | some (bar, barOffset, id) =>
      if id ≥ tlbTotal ∨ c.barLength bar = 0 ∨ barOffset + length > c.barLength bar then
        .error .invalidParameter
      else if !m.tlbUsed id ∨ m.tlbOwner id ≠ some F then .error .accessDenied
      else .ok ⟨c.barBase bar + barOffset, if wc then .writeCombined else .nonCached, some id, none⟩

/-- `TtResolveMapTarget`. -/
def ttResolveMapTarget (c : MemoryConfig) (m : MemoryState) (F : Handle)
    (mmapOffset length : ℕ) : Except NtStatus MapTarget :=
  if mmapOffset ≥ mmapOffsetDmaBuf then resolveDmaBuf (m.file F) mmapOffset length
  else if mmapOffset < 6 * 2 ^ 36 then resolveBar c mmapOffset length
  else if mmapOffset < 8 * 2 ^ 36 then resolveTlb c m F mmapOffset length
  else .error .invalidParameter

/-- `tenstorrent_map_in`. -/
structure MapIn where
  /-- `mmap_offset`. -/
  mmapOffset : ℕ
  /-- `length`. -/
  length : ℕ

/-- What the operating system answers to `TtIoctlMap`. -/
structure MapEnv where
  /-- `ExAllocatePool2` succeeds. -/
  pool : Bool
  /-- `IoAllocateMdl` succeeds. -/
  mdl : Bool
  /-- `MmMapLockedPagesSpecifyCache`. -/
  userVa : Option ℕ
  /-- `PsGetCurrentProcess`. -/
  process : Process

/-- `TtIoctlMap`; the output is the address of the view. -/
def ttIoctlMap (c : MemoryConfig) (m : MemoryState) (F : Handle) (io : Io) (i : MapIn)
    (env : MapEnv) : Reply ℕ :=
  if ttCopyInBuffer io 16 ≠ .success then .fail m .accessViolation
  else if i.length = 0 ∨ i.length % pageSize ≠ 0 ∨ i.mmapOffset % pageSize ≠ 0 ∨
      i.length > maxUlong then
    .fail m .invalidParameter
  else
    match ttResolveMapTarget c m F i.mmapOffset i.length with
    | .error status => .fail m status
    | .ok target =>
        if !env.pool ∨ !env.mdl then .fail m .insufficientResources
        else
          match env.userVa with
          | none => .fail m .insufficientResources
          | some userVa =>
              if ttCompleteSizedOutBuffer io 16 8 ≠ .success then .fail m .accessViolation
              else
                let v : UserMapping :=
                  ⟨userVa, i.length, target.physical, target.tlbId,
                    decide (i.mmapOffset ≥ mmapOffsetDmaBuf), target.dmaBuf, env.process⟩
                let f := m.file F
                ⟨.success, some userVa, m.setFile F { f with mappings := f.mappings ++ [v] }⟩

/-- The checks of `TtIoctlUnmap` before its section. -/
def unmapCheck (io : Io) (reserved : ℕ) : NtStatus :=
  if ttCopyInBuffer io 16 ≠ .success then .accessViolation
  else if reserved ≠ 0 then .invalidParameter
  else .success

/-- The section of `TtIoctlUnmap`: the mapping is unlinked. -/
def unmapSection (m : MemoryState) (F : Handle) (userVa : ℕ) : Option UserMapping × MemoryState :=
  let f := m.file F
  match f.mappings.find? fun v => v.userVa == userVa with
  | none => (none, m)
  | some v =>
      (some v, m.setFile F { f with mappings := f.mappings.eraseP fun v => v.userVa == userVa })

/-- `TtIoctlUnmap`. `TtDestroyUserMapping` removes the view of the record it was
given and touches nothing else. -/
def ttIoctlUnmap (m : MemoryState) (F : Handle) (io : Io) (userVa reserved : ℕ) : Reply Unit :=
  if unmapCheck io reserved ≠ .success then .fail m (unmapCheck io reserved)
  else
    match unmapSection m F userVa with
    | (none, m) => .fail m .invalidParameter
    | (some _, m) => ⟨.success, some (), m⟩

/-- `TtFindDmaBufView`: the buffer and the offset of an address inside a view of it. -/
def ttFindDmaBufView (f : FileMemory) (va size : ℕ) : Option (ℕ × ℕ) :=
  f.mappings.findSome? fun v =>
    match v.dmaBuf with
    | none => none
    | some b =>
        if v.isDmaBuf ∧ va ≥ v.userVa ∧ size ≤ v.length ∧ va - v.userVa ≤ v.length - size then
          some (b, va - v.userVa)
        else none

/-- `tenstorrent_pin_pages_in`. -/
structure PinPagesIn where
  /-- `output_size_bytes`. -/
  outputSizeBytes : ℕ
  /-- `flags`. -/
  flags : ℕ
  /-- `virtual_address`. -/
  virtualAddress : ℕ
  /-- `size`. -/
  size : ℕ

/-- `tenstorrent_pin_pages_out_extended`. -/
structure PinPagesOut where
  /-- `physical_address`. -/
  physicalAddress : ℕ
  /-- `noc_address`. -/
  nocAddress : ℕ

/-- What the operating system answers to `TtIoctlPinPages`. -/
structure PinEnv where
  /-- `ExAllocatePool2` succeeds. -/
  pool : Bool
  /-- `IoAllocateMdl` succeeds. -/
  mdl : Bool
  /-- `MmProbeAndLockPages`: the frames of the pages, or a fault. -/
  pfns : Option (List ℕ)

/-- The frames follow one another. -/
def contiguous : List ℕ → Bool
  | [] => true
  | [_] => true
  | p :: q :: ps => q == p + 1 && contiguous (q :: ps)

/-- The checks of `TtIoctlPinPages` before its section. -/
def pinPagesCheck (io : Io) (i : PinPagesIn) : NtStatus :=
  if ttCopyInBuffer io 24 ≠ .success then .accessViolation
  else if i.flags &&& (maxUlong - 15) ≠ 0 then .invalidParameter
  else if i.virtualAddress % pageSize ≠ 0 ∨ i.size % pageSize ≠ 0 ∨ i.size = 0 ∨
      i.size > maxUlong then
    .invalidParameter
  else if i.flags &&& 8 ≠ 0 then .notSupported
  else .success

/-- The live buffer of an identity. -/
def FileMemory.findBuf (f : FileMemory) (id : ℕ) : Option DmaBuf :=
  f.bufs.find? fun b => b.id == id

/-- The device address of the pages to pin, and the frame of the pages locked for
it. A range inside a view of one of the handle's own buffers needs no lock. -/
def pinPagesTarget (f : FileMemory) (env : PinEnv) (backing : Option (ℕ × ℕ)) :
    Except NtStatus (ℕ × Option ℕ) :=
  match backing with
  | some (id, offset) => .ok (((f.findBuf id).elim 0 (·.logical)) + offset, none)
  | none =>
      if !env.mdl then .error .insufficientResources
      else
        match env.pfns with
        | none => .error .accessViolation
        | some pfns =>
            if !contiguous pfns then .error .invalidParameter
            else .ok (pfns.headD 0 * pageSize, some (pfns.headD 0))

/-- The aperture of a pinning: none is asked for, or it is set up as asked. -/
def pinAperture (u : IatuUnit) (F : Handle) (i : PinPagesIn) (target : ℕ) : NocDmaResult :=
  if i.flags &&& 6 ≠ 0 then ttSetupNocDma u F (decide (i.flags &&& 4 ≠ 0)) i.size target
  else ⟨.success, 0, none, u⟩

/-- The section of `TtIoctlPinPages` once the device address is known. -/
def pinPagesLocked (detached : Bool) (m : MemoryState) (F : Handle) (io : Io) (i : PinPagesIn)
    (backing : Option ℕ) (target : ℕ) (mdl : Option ℕ) : Reply PinPagesOut :=
  let noc := pinAperture m.iatu F i target
  let m := { m with iatu := noc.unit }
  if noc.status ≠ .success then
    .fail { m with iatu := ttTeardownNocDma detached m.iatu noc.region } noc.status
  else if ttCompleteSizedOutBuffer io 24 i.outputSizeBytes ≠ .success then
    .fail { m with iatu := ttTeardownNocDma detached m.iatu noc.region } .accessViolation
  else
    let p : Pinning := ⟨i.virtualAddress, i.size, mdl, backing, noc.region⟩
    let f := m.file F
    ⟨.success, some ⟨target, noc.nocAddress⟩,
      m.setFile F { f with pinnings := f.pinnings ++ [p] }⟩

/-- `TtIoctlPinPages`. -/
def ttIoctlPinPages (c : MemoryConfig) (detached : Bool) (m : MemoryState) (F : Handle) (io : Io)
    (i : PinPagesIn) (env : PinEnv) : Reply PinPagesOut :=
  if pinPagesCheck io i ≠ .success then .fail m (pinPagesCheck io i)
  else
    let f := m.file F
    if f.pinnings.any fun p => p.virtualAddress == i.virtualAddress && p.size == i.size then
      .fail m .objectNameCollision
    else
      let backing := ttFindDmaBufView f i.virtualAddress i.size
      if backing = none ∧ (!c.dmaIdentityKnown ∨ !c.dmaIdentityMapped) then .fail m .notSupported
      else if !env.pool then .fail m .insufficientResources
      else
        match pinPagesTarget f env backing with
        | .error status => .fail m status
        | .ok (target, mdl) =>
            pinPagesLocked detached m F io i (backing.map (·.1)) target mdl

/-- `tenstorrent_unpin_pages_in`. -/
structure UnpinPagesIn where
  /-- `virtual_address`. -/
  virtualAddress : ℕ
  /-- `size`. -/
  size : ℕ
  /-- `reserved`. -/
  reserved : ℕ

/-- The checks of `TtIoctlUnpinPages` before its section. -/
def unpinPagesCheck (io : Io) (i : UnpinPagesIn) : NtStatus :=
  if ttCopyInBuffer io 24 ≠ .success then .accessViolation
  else if i.reserved ≠ 0 ∨ i.size = 0 ∨ i.size / pageSize = 0 then .invalidParameter
  else .success

/-- The section of `TtIoctlUnpinPages`: the pinning is unlinked. -/
def unpinSection (m : MemoryState) (F : Handle) (i : UnpinPagesIn) : Option Pinning × MemoryState :=
  let f := m.file F
  match f.pinnings.find? fun p => p.virtualAddress == i.virtualAddress with
  | none => (none, m)
  | some p =>
      if p.size ≠ i.size then (none, m)
      else
        (some p, m.setFile F { f with
          pinnings := f.pinnings.eraseP fun p => p.virtualAddress == i.virtualAddress })

/-- The section of `TtDestroyPinning` under `IatuLock`. The pages are unlocked after it. -/
def ttDestroyPinning (detached : Bool) (m : MemoryState) (p : Pinning) : MemoryState :=
  { m with iatu := ttTeardownNocDma detached m.iatu p.iatuRegion }

/-- `TtIoctlUnpinPages`. -/
def ttIoctlUnpinPages (detached : Bool) (m : MemoryState) (F : Handle) (io : Io)
    (i : UnpinPagesIn) : Reply Unit :=
  if unpinPagesCheck io i ≠ .success then .fail m (unpinPagesCheck io i)
  else
    match unpinSection m F i with
    | (none, m) => .fail m .invalidParameter
    | (some p, m) => ⟨.success, some (), ttDestroyPinning detached m p⟩

/-- `TtMemoryProcessExit`: the views and the pinnings of a handle go. -/
def ttMemoryProcessExit (detached : Bool) (m : MemoryState) (F : Handle) : MemoryState :=
  let f := m.file F
  f.pinnings.foldl (ttDestroyPinning detached)
    (m.setFile F { f with mappings := [], pinnings := [] })

/-- One round of the loop of `TtMemoryFileCleanup` over the DMA-buffer slots. -/
def cleanupDmaBuf (detached : Bool) (F : Handle) (m : MemoryState) (i : ℕ) : MemoryState :=
  let f := m.file F
  match f.dmaBufs i with
  | none => m
  | some b =>
      ttDmaBufDestroy detached
        (m.setFile F { f with dmaBufs := Function.update f.dmaBufs i none }) b

/-- The section of `TtMemoryFileCleanup` under the file lock. -/
def cleanupFileSection (detached : Bool) (m : MemoryState) (F : Handle) : MemoryState :=
  (List.range maxDmaBufs).foldl (cleanupDmaBuf detached F) (ttMemoryProcessExit detached m F)

/-- The section of `TtMemoryFileCleanup` under `TlbLock`. -/
def cleanupTlbSection (m : MemoryState) (F : Handle) : MemoryState :=
  { m with
    tlbUsed := fun id => if id < tlbTotal ∧ m.tlbOwner id = some F then false else m.tlbUsed id,
    tlbOwner := fun id => if id < tlbTotal ∧ m.tlbOwner id = some F then none else m.tlbOwner id }

/-- `TtMemoryFileCleanup`. -/
def ttMemoryFileCleanup (detached : Bool) (m : MemoryState) (F : Handle) : MemoryState :=
  cleanupTlbSection (cleanupFileSection detached m F) F

/-- One round of `TtResetZapMappings`: the views of one handle that are not of DMA
buffers go. -/
def zapFile (m : MemoryState) (F : Handle) : MemoryState :=
  let f := m.file F
  m.setFile F { f with mappings := f.mappings.filter fun v => v.isDmaBuf }

/-- `TtResetZapMappings` over the file list. -/
def ttResetZapMappings (m : MemoryState) (fileList : List Handle) : MemoryState :=
  fileList.foldl zapFile m

end TtKmd
