import TtKmd.Device.Regions

/-!
# The outbound regions and the records that name them

On an attached device without chip resets the register file is an image of the table and
of the records: a region is enabled exactly when its slot is used, and then it maps the
range of the slot to the memory of the one buffer or pinning that names it. The addresses
that the request returned stay those of the region for as long as the record lives. A
ghost keeps, for each region, what the last request that opened it returned.
-/

namespace TtKmd

open Lib

/-- The addresses a request returns to its caller. -/
structure Answer where
  /-- `physical_address`. -/
  physicalAddress : ℕ
  /-- `noc_address`. -/
  nocAddress : ℕ

/-- A device, with what its callers were told. -/
structure MirrorWorld where
  /-- The device. -/
  device : DeviceContext
  /-- What the request that opened a region returned. -/
  told : Fin 16 → Option Answer

/-- The region that a successful request opened, and what it returned. -/
def answer (d : DeviceContext) (F : Handle) : Request → Option (Fin 16 × Answer)
  | .allocateDmaBuf io i env =>
      let reply := ttIoctlAllocateDmaBuf d.config d.detached d.mem F io i env
      let record := (reply.mem.file F).dmaBufs i.bufIndex
      reply.out.bind fun out => (record.bind (·.iatuRegion)).map fun r =>
        (r, ⟨out.physicalAddress, out.nocAddress⟩)
  | .pinPages io i env =>
      let reply := ttIoctlPinPages d.config d.detached d.mem F io i env
      let record := (reply.mem.file F).pinnings.getLast?
      reply.out.bind fun out => (record.bind (·.iatuRegion)).map fun r =>
        (r, ⟨out.physicalAddress, out.nocAddress⟩)
  | _ => none

/-- A caller is told. -/
def tell (told : Fin 16 → Option Answer) : Option (Fin 16 × Answer) → Fin 16 → Option Answer
  | none => told
  | some (r, a) => Function.update told r (some a)

/-- One step. -/
def MirrorWorld.next (w : MirrorWorld) (e : Event) : Option MirrorWorld :=
  match e with
  | .request F caller r =>
      let reply := dispatch w.device F caller r
      if w.device.isOpen F then
        some ⟨reply.device,
          if reply.status = .success then tell w.told (answer w.device F r) else w.told⟩
      else none
  | e => (w.device.next e).map fun d => ⟨d, w.told⟩

/-- The device stays and is not reset, and the operating system gives buffers and frames
that have bus addresses. -/
def KeepsChip (_ : MirrorWorld) : Event → Prop
  | .request _ _ (.allocateDmaBuf _ i env) => ∀ logical physical,
      env.commonBuffer = some (logical, physical) → logical + i.requestedSize ≤ 2 ^ 64
  | .request _ _ (.pinPages _ _ env) => ∀ pfns, env.pfns = some pfns →
      pfns.headD 0 * pageSize < 2 ^ 64
  | .request _ _ (.resetDevice ..) => False
  | .surpriseRemoval => False
  | _ => True

/-- The live buffers are known by their identities and fit into the address space. -/
structure BufsKnown (m : MemoryState) : Prop where
  /-- The identities were given out. -/
  given : ∀ G b, b ∈ (m.file G).bufs → b.id < m.nextBuf
  /-- A buffer of a handle is known by its identity. -/
  unique : ∀ G b b', b ∈ (m.file G).bufs → b' ∈ (m.file G).bufs → b.id = b'.id → b = b'
  /-- A buffer fits into the address space. -/
  fits : ∀ G b, b ∈ (m.file G).bufs → b.logical + b.size ≤ 2 ^ 64

/-- The device address of a pinning: that of its locked pages, or one inside the live
buffer that backs it. -/
def PinAddress (f : FileMemory) (p : Pinning) (address : ℕ) : Prop :=
  (∃ pfn, p.mdl = some pfn ∧ address = pfn * pageSize) ∨
    ∃ b ∈ f.bufs, p.backingDmaBuf = some b.id ∧ b.logical ≤ address ∧
      address + p.size ≤ b.logical + b.size

/-- The region of a record maps a range of its size to its address, and the caller was
told this address and the NOC address of the range. -/
structure Told (w : MirrorWorld) (r : Fin 16) (size address : ℕ) : Prop where
  /-- The registers. -/
  serves : Serves w.device.mem.iatu r size address
  /-- The answer. -/
  told : w.told r = some ⟨address, 2 ^ 60 + (w.device.mem.iatu.slots r).base⟩

/-- The invariant of the runs. -/
structure WorldMirrored (w : MirrorWorld) : Prop where
  /-- The books agree. -/
  resources : Resources w.device
  /-- The device is attached. -/
  attached : w.device.detached = false
  /-- The registers agree with the table. -/
  mirrors : Mirrors w.device.mem.iatu
  /-- The buffers are known. -/
  known : BufsKnown w.device.mem
  /-- The region of a buffer. -/
  bufs : ∀ G b r, b ∈ (w.device.mem.file G).bufs → b.iatuRegion = some r →
    Told w r b.size b.logical
  /-- The region of a pinning. -/
  pinnings : ∀ G p r, p ∈ (w.device.mem.file G).pinnings → p.iatuRegion = some r →
    ∃ address, Told w r p.size address ∧ PinAddress (w.device.mem.file G) p address

section Steps

variable {w w' : MirrorWorld} {d d' : DeviceContext} {F : Handle}

/-- Buffers that are still there are known. -/
theorem BufsKnown.fewer {m m' : MemoryState} (h : BufsKnown m)
    (hbufs : ∀ G b, b ∈ (m'.file G).bufs → b ∈ (m.file G).bufs) (hnext : m'.nextBuf = m.nextBuf) :
    BufsKnown m' where
  given := fun G b hb => by
    rw [hnext]
    exact h.given G b (hbufs G b hb)
  unique := fun G b b' hb hb' => h.unique G b b' (hbufs G b hb) (hbufs G b' hb')
  fits := fun G b hb => h.fits G b (hbufs G b hb)

/-- The buffers of a handle after one was allocated. -/
theorem Allocated.mem_bufs {m m' : MemoryState} {i : AllocateDmaBufIn} {env : DmaBufEnv}
    {b : DmaBuf} {u' : IatuUnit} (hall : Allocated m m' F i env b u') {G : Handle} {b' : DmaBuf} :
    b' ∈ (m'.file G).bufs ↔ (G = F ∧ b' = b) ∨ b' ∈ (m.file G).bufs := by
  rw [hall.mem]
  exact MemoryState.mem_bufs_insert hall.index hall.empty

/-- A new buffer is known. -/
theorem BufsKnown.allocated {m m' : MemoryState} {i : AllocateDmaBufIn} {env : DmaBufEnv}
    {b : DmaBuf} {u' : IatuUnit} (h : BufsKnown m) (hall : Allocated m m' F i env b u')
    (hfit : b.logical + b.size ≤ 2 ^ 64) : BufsKnown m' := by
  have hnext : m'.nextBuf = m.nextBuf + 1 := by rw [hall.mem]
  refine ⟨?_, ?_, ?_⟩
  · intro G b' hb'
    rw [hnext]
    rcases hall.mem_bufs.mp hb' with ⟨-, rfl⟩ | hold
    · rw [hall.id]
      exact Nat.lt_succ_self _
    · exact (h.given G b' hold).trans (Nat.lt_succ_self _)
  · intro G b₁ b₂ hb₁ hb₂ hid
    rcases hall.mem_bufs.mp hb₁ with ⟨-, rfl⟩ | hold₁ <;>
      rcases hall.mem_bufs.mp hb₂ with ⟨-, rfl⟩ | hold₂
    · rfl
    · have := h.given G b₂ hold₂
      rw [← hid, hall.id] at this
      exact absurd this (lt_irrefl _)
    · have := h.given G b₁ hold₁
      rw [hid, hall.id] at this
      exact absurd this (lt_irrefl _)
    · exact h.unique G b₁ b₂ hold₁ hold₂ hid
  · intro G b' hb'
    rcases hall.mem_bufs.mp hb' with ⟨-, rfl⟩ | hold
    · exact hfit
    · exact h.fits G b' hold

/-- Where there is no buffer, all are known. -/
theorem BufsKnown.of_none {m : MemoryState} (h : ∀ G b, b ∉ (m.file G).bufs) : BufsKnown m where
  given := fun G b hb => absurd hb (h G b)
  unique := fun G b _ hb => absurd hb (h G b)
  fits := fun G b hb => absurd hb (h G b)

/-- A started device has no buffers. -/
theorem DeviceContext.notMem_bufs_started (config : MemoryConfig) (subsysVendorId subsysId : ℕ)
    (needsHwInit : Bool) (regs : Fin 16 → AtuRegs) (G : Handle) (b : DmaBuf) :
    b ∉ ((DeviceContext.started config subsysVendorId subsysId needsHwInit regs).mem.file
      G).bufs := by
  show b ∉ FileMemory.init.bufs
  rw [FileMemory.bufs_init]
  exact List.not_mem_nil

/-- The region of a live buffer is used. -/
theorem Resources.used_of_buf (h : Resources d) {G : Handle} {b : DmaBuf} {r : Fin 16}
    (hb : b ∈ (d.mem.file G).bufs) (hr : b.iatuRegion = some r) :
    (d.mem.iatu.slots r).used = true := by
  refine ((h.mem_regions G r).mp ?_).1
  exact List.mem_append_left _ (List.mem_filterMap.mpr ⟨b, hb, hr⟩)

/-- The region of a pinning is used. -/
theorem Resources.used_of_pinning (h : Resources d) {G : Handle} {p : Pinning} {r : Fin 16}
    (hp : p ∈ (d.mem.file G).pinnings) (hr : p.iatuRegion = some r) :
    (d.mem.iatu.slots r).used = true := by
  refine ((h.mem_regions G r).mp ?_).1
  exact List.mem_append_right _ (List.mem_filterMap.mpr ⟨p, hp, hr⟩)

/-- A region that is still claimed serves the record it served. -/
theorem Told.quiet {r : Fin 16} {size address : ℕ} (h : Told w r size address)
    (hgives : GivesUp w.device.mem.iatu d'.mem.iatu) (hr : (d'.mem.iatu.slots r).used = true) :
    Told ⟨d', w.told⟩ r size address := by
  refine ⟨h.serves.givesUp hgives hr, ?_⟩
  show w.told r = _
  rw [h.told, (hgives.kept r hr).1]

/-- A quiet step keeps the invariant. -/
theorem WorldMirrored.quiet (h : WorldMirrored w) (hquiet : Quiet w.device.mem d'.mem)
    (hres : Resources d') (hatt : d'.detached = false) : WorldMirrored ⟨d', w.told⟩ where
  resources := hres
  attached := hatt
  mirrors := h.mirrors.givesUp hquiet.regions
  known := h.known.fewer hquiet.bufs hquiet.nextBuf
  bufs := fun G b r hb hr =>
    (h.bufs G b r (hquiet.bufs G b hb) hr).quiet hquiet.regions (hres.used_of_buf hb hr)
  pinnings := fun G p r hp hr => by
    obtain ⟨address, htold, haddress⟩ := h.pinnings G p r (hquiet.pinnings G p hp) hr
    refine ⟨address, htold.quiet hquiet.regions (hres.used_of_pinning hp hr), ?_⟩
    rcases haddress with hpages | ⟨b, hb, hback, hrange⟩
    · exact .inl hpages
    · -- the buffer that backs a pinning cannot have gone
      obtain ⟨b', hb', hid⟩ := (hres.books.files G).backing p hp b.id hback
      have heq := h.known.unique G b' b (hquiet.bufs G b' hb') hb hid
      exact .inr ⟨b, heq ▸ hb', hback, hrange⟩

/-- The NOC address of a new DMA buffer is that of the base of its region. -/
theorem dmaBufAperture_nocAddress {u : IatuUnit} (hok : SlotsOk u.slots) {i : AllocateDmaBufIn}
    (hsize : i.requestedSize < 2 ^ 32) (logical : ℕ) {r : Fin 16}
    (hr : (dmaBufAperture u F i logical).region = some r) :
    (dmaBufAperture u F i logical).nocAddress =
      2 ^ 60 + ((dmaBufAperture u F i logical).unit.slots r).base := by
  unfold dmaBufAperture at hr ⊢
  split
  · rename_i hnoc
    rw [if_pos hnoc] at hr
    exact ttSetupNocDma_nocAddress hok F true hsize logical hr
  · rename_i hnoc
    rw [if_neg hnoc] at hr
    cases hr

/-- The NOC address of a pinning is that of the base of its region. -/
theorem pinAperture_nocAddress {u : IatuUnit} (hok : SlotsOk u.slots) {i : PinPagesIn}
    (hsize : i.size < 2 ^ 32) (target : ℕ) {r : Fin 16}
    (hr : (pinAperture u F i target).region = some r) :
    (pinAperture u F i target).nocAddress =
      2 ^ 60 + ((pinAperture u F i target).unit.slots r).base := by
  unfold pinAperture at hr ⊢
  split
  · rename_i hnoc
    rw [if_pos hnoc] at hr
    exact ttSetupNocDma_nocAddress hok F _ hsize target hr
  · rename_i hnoc
    rw [if_neg hnoc] at hr
    cases hr

/-- The answer to a request that put the record of `region` in its place. -/
def answerOf (u : IatuUnit) (address : ℕ) (region : Option (Fin 16)) : Option (Fin 16 × Answer) :=
  region.map fun r => (r, ⟨address, 2 ^ 60 + (u.slots r).base⟩)

/-- The section of a successful `ALLOCATE_DMA_BUF` after the reservation. -/
theorem allocateDmaBufReserved_of_success {detached : Bool} {m : MemoryState} {io : Io}
    {i : AllocateDmaBufIn} {env : DmaBufEnv}
    (hs : (allocateDmaBufReserved detached m F io i env).status = .success) :
    ∃ logical physical, env.commonBuffer = some (logical, physical) ∧
      u64Sub (u64 (logical + i.requestedSize)) 1 ≤ nocDmaLimit ∧
      let noc := dmaBufAperture m.iatu F i logical
      let b : DmaBuf := ⟨m.nextBuf, i.requestedSize, i.bufIndex, logical, physical, noc.region⟩
      allocateDmaBufReserved detached m F io i env =
        ⟨.success, some ⟨logical, mmapOffsetDmaBuf + i.bufIndex * 2 ^ 32, i.requestedSize,
            noc.nocAddress⟩,
          { m.setFile F { m.file F with
              dmaBufs := Function.update (m.file F).dmaBufs i.bufIndex (some b) } with
            iatu := noc.unit, nextBuf := m.nextBuf + 1 }⟩ := by
  unfold allocateDmaBufReserved at hs ⊢
  cases hbuf : env.commonBuffer with
  | none =>
    simp only [hbuf] at hs
    cases hs
  | some addr =>
    obtain ⟨logical, physical⟩ := addr
    simp only [hbuf] at hs ⊢
    refine ⟨logical, physical, rfl, ?_⟩
    split at hs
    · cases hs
    rename_i hreach
    rw [if_neg hreach]
    split at hs
    · rename_i hnoc
      exact absurd hs hnoc
    rename_i hnoc
    rw [if_neg hnoc]
    split at hs
    · cases hs
    rename_i hpool
    rw [if_neg hpool]
    split at hs
    · cases hs
    rename_i hout
    rw [if_neg hout]
    exact ⟨not_lt.mp hreach, rfl⟩

/-- A successful `ALLOCATE_DMA_BUF` passed its checks and reserved the bytes. -/
theorem ttIoctlAllocateDmaBuf_of_success {c : MemoryConfig} {detached : Bool} {m : MemoryState}
    {io : Io} {i : AllocateDmaBufIn} {env : DmaBufEnv}
    (hs : (ttIoctlAllocateDmaBuf c detached m F io i env).status = .success) :
    i.bufIndex < maxDmaBufs ∧ (m.file F).dmaBufs i.bufIndex = none ∧
      ApertureSize i.requestedSize ∧
      ttIoctlAllocateDmaBuf c detached m F io i env = allocateDmaBufReserved detached
        { m with dmaBufBytes := m.dmaBufBytes + i.requestedSize } F io i env := by
  unfold ttIoctlAllocateDmaBuf at hs ⊢
  split at hs
  · cases hs
  rename_i hin
  rw [if_neg hin]
  split at hs
  · cases hs
  rename_i hdma
  rw [if_neg hdma]
  split at hs
  · cases hs
  rename_i hindex
  rw [if_neg hindex]
  split at hs
  · cases hs
  rename_i hsize
  rw [if_neg hsize]
  split at hs
  · cases hs
  rename_i hempty
  rw [if_neg hempty]
  have hpages : ApertureSize i.requestedSize := by
    unfold maxDmaBufSize at hsize
    exact apertureSize_of_pages (by omega) (by omega) (by omega)
  refine ⟨by omega, not_not.mp hempty, hpages, ?_⟩
  unfold ttDmaAccountReserve at hs ⊢
  dsimp only at hs ⊢
  split_ifs at hs ⊢ with hquota
  · cases hs
  · rfl

/-- What `ALLOCATE_DMA_BUF` leaves and returns: a failure is quiet, a success returns the
addresses of the new buffer. -/
theorem allocateDmaBuf_answer (hok : SlotsOk d.mem.iatu.slots) (hdet : d.detached = false)
    (io : Io) (i : AllocateDmaBufIn) (env : DmaBufEnv) :
    let reply := ttIoctlAllocateDmaBuf d.config d.detached d.mem F io i env
    (reply.status ≠ .success ∧ Quiet d.mem reply.mem) ∨
      (reply.status = .success ∧ ∃ b u', Allocated d.mem reply.mem F i env b u' ∧
        answer d F (.allocateDmaBuf io i env) = answerOf u' b.logical b.iatuRegion) := by
  intro reply
  by_cases hs : reply.status = .success
  swap
  · refine .inl ⟨hs, ?_⟩
    rcases ttIoctlAllocateDmaBuf_cases d.config d.detached F io hok i env with
      (hm | ⟨_, u', target, region, hopen, hm⟩) | ⟨hs', _⟩
    · rw [show reply.mem = d.mem from hm]
      exact .refl _
    · rw [show reply.mem = _ from hm, hdet]
      exact quiet_iatu (givesUp_undone hopen)
    · exact absurd hs' hs
  · refine .inr ⟨hs, ?_⟩
    obtain ⟨hindex, hempty, hsize, heq⟩ := ttIoctlAllocateDmaBuf_of_success hs
    have hs' := hs
    rw [show reply = _ from heq] at hs'
    obtain ⟨logical, physical, hbuf, hreach, hreply⟩ := allocateDmaBufReserved_of_success hs'
    simp only at hreply
    have hopen := dmaBufAperture_opened hok F i hsize.2.1 logical
    refine ⟨⟨d.mem.nextBuf, i.requestedSize, i.bufIndex, logical, physical,
      (dmaBufAperture d.mem.iatu F i logical).region⟩,
      (dmaBufAperture d.mem.iatu F i logical).unit,
      ⟨hindex, hempty, rfl, rfl, hsize, hbuf, hreach, hopen, ?_⟩, ?_⟩
    · show (ttIoctlAllocateDmaBuf d.config d.detached d.mem F io i env).mem = _
      rw [heq, hreply]
      rfl
    · simp only [answer, heq, hreply, MemoryState.setFile_self, Function.update_self,
        Option.bind_some, answerOf]
      cases hregion : (dmaBufAperture d.mem.iatu F i logical).region with
      | none => rfl
      | some r =>
        rw [dmaBufAperture_nocAddress hok hsize.2.1 logical hregion]
        rfl

/-- A successful `PIN_PAGES` found the device address of its pages. -/
theorem ttIoctlPinPages_of_success {c : MemoryConfig} {detached : Bool} {m : MemoryState}
    {io : Io} {i : PinPagesIn} {env : PinEnv}
    (hs : (ttIoctlPinPages c detached m F io i env).status = .success) :
    ApertureSize i.size ∧ ∃ target mdl,
      pinPagesTarget (m.file F) env (ttFindDmaBufView (m.file F) i.virtualAddress i.size) =
        .ok (target, mdl) ∧
      ttIoctlPinPages c detached m F io i env = pinPagesLocked detached m F io i
        ((ttFindDmaBufView (m.file F) i.virtualAddress i.size).map (·.1)) target mdl := by
  unfold ttIoctlPinPages at hs ⊢
  split at hs
  · rename_i hcheck
    exact absurd hs hcheck
  rename_i hcheck
  rw [if_neg hcheck]
  dsimp only at hs ⊢
  split at hs
  · cases hs
  rename_i hdup
  rw [if_neg hdup]
  split at hs
  · cases hs
  rename_i hdomain
  rw [if_neg hdomain]
  split at hs
  · cases hs
  rename_i hpool
  rw [if_neg hpool]
  refine ⟨apertureSize_of_pinPagesCheck (not_not.mp hcheck), ?_⟩
  cases htarget : pinPagesTarget (m.file F) env
      (ttFindDmaBufView (m.file F) i.virtualAddress i.size) with
  | error status =>
    simp only [htarget] at hs
    -- every error of the address is a failure of the request
    have hne : status ≠ .success := by
      rintro rfl
      unfold pinPagesTarget at htarget
      split at htarget
      · cases htarget
      split at htarget
      · cases htarget
      split at htarget
      · cases htarget
      split at htarget
      · cases htarget
      · cases htarget
    exact absurd hs hne
  | ok res =>
    obtain ⟨target, mdl⟩ := res
    exact ⟨target, mdl, rfl, rfl⟩

/-- What `PIN_PAGES` leaves and returns: a failure is quiet, a success returns the
addresses of the new pinning. -/
theorem pinPages_answer (hok : SlotsOk d.mem.iatu.slots) (hdet : d.detached = false)
    (io : Io) (i : PinPagesIn) (env : PinEnv) :
    let reply := ttIoctlPinPages d.config d.detached d.mem F io i env
    (reply.status ≠ .success ∧ Quiet d.mem reply.mem) ∨
      (reply.status = .success ∧ ∃ p target u', Pinned d.mem reply.mem F i env p target u' ∧
        answer d F (.pinPages io i env) = answerOf u' target p.iatuRegion) := by
  intro reply
  by_cases hs : reply.status = .success
  swap
  · refine .inl ⟨hs, ?_⟩
    rcases ttIoctlPinPages_cases d.config d.detached F io hok i env with
      (hm | ⟨_, u', target, region, hopen, hm⟩) | ⟨hs', _⟩
    · rw [show reply.mem = d.mem from hm]
      exact .refl _
    · rw [show reply.mem = _ from hm, hdet]
      exact quiet_iatu (givesUp_undone hopen)
    · exact absurd hs' hs
  · refine .inr ⟨hs, ?_⟩
    obtain ⟨hsize, target, mdl, htarget, heq⟩ := ttIoctlPinPages_of_success hs
    have hs' := hs
    rw [show reply = _ from heq] at hs'
    have hopen := pinAperture_opened hok F i hsize.2.1 target
    have hpages := pinPagesTarget_cases (i := i) htarget
    set backing := (ttFindDmaBufView (d.mem.file F) i.virtualAddress i.size).map (·.1)
    set noc := pinAperture d.mem.iatu F i target
    set p : Pinning := ⟨i.virtualAddress, i.size, mdl, backing, noc.region⟩
    have hreply : pinPagesLocked d.detached d.mem F io i backing target mdl =
        ⟨.success, some ⟨target, noc.nocAddress⟩,
          { d.mem with iatu := noc.unit }.setFile F { d.mem.file F with
            pinnings := (d.mem.file F).pinnings ++ [p] }⟩ := by
      unfold pinPagesLocked at hs' ⊢
      dsimp only at hs' ⊢
      split at hs'
      · rename_i hfail
        exact absurd hs' hfail
      rename_i hok'
      rw [if_neg hok']
      split at hs'
      · cases hs'
      rename_i hout
      rw [if_neg hout]
    refine ⟨p, target, noc.unit, ⟨rfl, rfl, hsize, asked_of_pinAperture, hpages _, hopen, ?_⟩, ?_⟩
    · show (ttIoctlPinPages d.config d.detached d.mem F io i env).mem = _
      rw [heq, hreply]
    · simp only [answer, heq, hreply, MemoryState.setFile_self, Option.bind_some,
        List.getLast?_concat, answerOf]
      have hregion : p.iatuRegion = noc.region := rfl
      rw [hregion]
      cases hr : noc.region with
      | none => rfl
      | some r =>
        have haddress : noc.nocAddress = 2 ^ 60 + (noc.unit.slots r).base :=
          pinAperture_nocAddress hok hsize.2.1 target hr
        simp only [Option.map_some, haddress]

/-- What was told of a claimed region is not touched when another one is opened. -/
theorem Told.opened {r : Fin 16} {size address : ℕ} (h : Told w r size address)
    (hr : (w.device.mem.iatu.slots r).used = true) {size' target : ℕ}
    {region : Option (Fin 16)} {u' : IatuUnit}
    (hopen : Opened w.device.mem.iatu u' F size' target region) (hiatu : d'.mem.iatu = u')
    (a : ℕ) : Told ⟨d', tell w.told (answerOf u' a region)⟩ r size address := by
  have hkept := (hopen.kept hr).1
  refine ⟨?_, ?_⟩
  · show Serves d'.mem.iatu r size address
    rw [hiatu]
    exact h.serves.opened hopen hr
  · show tell w.told (answerOf u' a region) r = _
    rw [show (MirrorWorld.device ⟨d', tell w.told (answerOf u' a region)⟩).mem.iatu = u' from hiatu,
      hkept, ← h.told]
    cases region with
    | none => rfl
    | some slot =>
      obtain ⟨topDown, base, hset⟩ := hopen
      have hne : r ≠ slot := by
        rintro rfl
        rw [hset.unused] at hr
        cases hr
      exact Function.update_of_ne hne _ _

/-- What is told of a region that was just opened. -/
theorem told_opened (told : Fin 16 → Option Answer) {u u' : IatuUnit} (hok : SlotsOk u.slots)
    {size address : ℕ} (hsize : ApertureSize size) (haddress : address < 2 ^ 64) {r : Fin 16}
    (hopen : Opened u u' F size address (some r)) (hiatu : d'.mem.iatu = u') :
    Told ⟨d', tell told (answerOf u' address (some r))⟩ r size address := by
  obtain ⟨topDown, base, hset⟩ := hopen
  obtain ⟨_, _, _, _, _, hserves⟩ := hset.mirror hok hsize.1 hsize.2.1 haddress
  refine ⟨?_, ?_⟩
  · show Serves d'.mem.iatu r size address
    rw [hiatu]
    exact hserves
  · show Function.update told r _ r = _
    rw [Function.update_self]
    show _ = some (Answer.mk address (2 ^ 60 + (d'.mem.iatu.slots r).base))
    rw [hiatu]

/-- A new buffer keeps the invariant. -/
theorem WorldMirrored.allocated (h : WorldMirrored w) {i : AllocateDmaBufIn} {env : DmaBufEnv}
    {b : DmaBuf} {u' : IatuUnit} (hall : Allocated w.device.mem d'.mem F i env b u')
    (hfits : b.logical + b.size ≤ 2 ^ 64) (hres : Resources d') (hatt : d'.detached = false) :
    WorldMirrored ⟨d', tell w.told (answerOf u' b.logical b.iatuRegion)⟩ := by
  have hok := h.resources.books.apertures.ok
  have hpos := hall.sizeOk.1
  have hiatu : d'.mem.iatu = u' := by rw [hall.mem]
  have hpins : ∀ G, (d'.mem.file G).pinnings = (w.device.mem.file G).pinnings := by
    rw [hall.mem]
    exact MemoryState.setFile_proj FileMemory.pinnings rfl
  refine ⟨hres, hatt, ?_, h.known.allocated hall hfits, ?_, ?_⟩
  · show Mirrors d'.mem.iatu
    rw [hiatu]
    exact h.mirrors.opened hok hpos hall.sizeOk.2.1 (by omega) hall.aperture
  · intro G b' r hb' hr
    rcases hall.mem_bufs.mp hb' with ⟨rfl, rfl⟩ | hold
    · have hopen := hall.aperture
      rw [hr] at hopen ⊢
      exact told_opened w.told hok hall.sizeOk (by omega) hopen hiatu
    · exact (h.bufs G b' r hold hr).opened (h.resources.used_of_buf hold hr) hall.aperture hiatu _
  · intro G p r hp hr
    have hold : p ∈ (w.device.mem.file G).pinnings := by rwa [← hpins G]
    obtain ⟨address, htold, haddress⟩ := h.pinnings G p r hold hr
    refine ⟨address, htold.opened (h.resources.used_of_pinning hold hr) hall.aperture hiatu _, ?_⟩
    rcases haddress with hpages | ⟨b', hb', hback, hrange⟩
    · exact .inl hpages
    · exact .inr ⟨b', hall.mem_bufs.mpr (.inr hb'), hback, hrange⟩

/-- The device address of a new pinning. -/
theorem WorldMirrored.pinAddress (h : WorldMirrored w) {i : PinPagesIn} {env : PinEnv} {p : Pinning}
    {target : ℕ} {m' : MemoryState} {u' : IatuUnit}
    (hpin : Pinned w.device.mem m' F i env p target u')
    (hos : ∀ pfns, env.pfns = some pfns → pfns.headD 0 * pageSize < 2 ^ 64) :
    target < 2 ^ 64 ∧ PinAddress (w.device.mem.file F) p target := by
  rcases hpin.pages with ⟨_, id, offset, hback, hfind, htarget⟩ | ⟨_, _, pfns, hpfns, hmdl, htarget⟩
  · obtain ⟨v, hv, hdma, hbuf, hlen⟩ := ttFindDmaBufView_eq_some hfind
    obtain ⟨b, hb, href, hsize⟩ := (h.resources.books.files F).view v hv hdma
    obtain rfl : id = b.id := Option.some.inj (hbuf.symm.trans href)
    have hfound : (w.device.mem.file F).findBuf b.id = some b :=
      FileMemory.findBuf_eq hb fun b' hb' hid => h.known.unique F b' b hb' hb hid
    rw [hfound] at htarget
    have hat : target = b.logical + offset := htarget
    have hfit := h.known.fits F b hb
    have hpos := hpin.sizeOk.1
    exact ⟨by omega, .inr ⟨b, hb, hback, by omega, by omega⟩⟩
  · rw [htarget]
    exact ⟨hos pfns hpfns, .inl ⟨_, hmdl, rfl⟩⟩

/-- A new pinning keeps the invariant. -/
theorem WorldMirrored.pinned (h : WorldMirrored w) {i : PinPagesIn} {env : PinEnv} {p : Pinning}
    {target : ℕ} {u' : IatuUnit} (hpin : Pinned w.device.mem d'.mem F i env p target u')
    (hos : ∀ pfns, env.pfns = some pfns → pfns.headD 0 * pageSize < 2 ^ 64)
    (hres : Resources d') (hatt : d'.detached = false) :
    WorldMirrored ⟨d', tell w.told (answerOf u' target p.iatuRegion)⟩ := by
  have hok := h.resources.books.apertures.ok
  obtain ⟨htarget, hpages⟩ := h.pinAddress hpin hos
  have hiatu : d'.mem.iatu = u' := by
    rw [hpin.mem]
    rfl
  have hself : (d'.mem.file F).pinnings = (w.device.mem.file F).pinnings ++ [p] := by
    rw [hpin.mem, MemoryState.setFile_self]
  have hother : ∀ G, G ≠ F → d'.mem.file G = w.device.mem.file G := by
    intro G hG
    rw [hpin.mem, MemoryState.setFile_of_ne hG]
  have hbufs : ∀ G, (d'.mem.file G).bufs = (w.device.mem.file G).bufs := by
    rw [hpin.mem]
    exact MemoryState.setFile_proj FileMemory.bufs rfl
  have haddr : ∀ G q a, PinAddress (w.device.mem.file G) q a →
      PinAddress (d'.mem.file G) q a := by
    intro G q a hq
    unfold PinAddress at hq ⊢
    rwa [hbufs G]
  have hnext : d'.mem.nextBuf = w.device.mem.nextBuf := by
    rw [hpin.mem]
    rfl
  refine ⟨hres, hatt, ?_, h.known.fewer (fun G b hb => by rwa [← hbufs G]) hnext, ?_, ?_⟩
  · show Mirrors d'.mem.iatu
    rw [hiatu]
    exact h.mirrors.opened hok hpin.sizeOk.1 hpin.sizeOk.2.1 htarget hpin.aperture
  · intro G b r hb hr
    have hold : b ∈ (w.device.mem.file G).bufs := by rwa [← hbufs G]
    exact (h.bufs G b r hold hr).opened (h.resources.used_of_buf hold hr) hpin.aperture hiatu _
  · intro G q r hq hr
    have hcases : q ∈ (w.device.mem.file G).pinnings ∨ (G = F ∧ q = p) := by
      by_cases hG : G = F
      · subst hG
        have hmem : q ∈ (w.device.mem.file G).pinnings ++ [p] := by rwa [← hself]
        rcases List.mem_append.mp hmem with hold | hnew
        · exact .inl hold
        · exact .inr ⟨rfl, List.mem_singleton.mp hnew⟩
      · have hold : q ∈ (w.device.mem.file G).pinnings := by rwa [← hother G hG]
        exact .inl hold
    rcases hcases with hold | ⟨rfl, rfl⟩
    · obtain ⟨address, htold, haddress⟩ := h.pinnings G q r hold hr
      exact ⟨address, htold.opened (h.resources.used_of_pinning hold hr) hpin.aperture hiatu _,
        haddr G q address haddress⟩
    · have hopen := hpin.aperture
      rw [hr] at hopen ⊢
      exact ⟨target, told_opened w.told hok hpin.sizeOk htarget hopen hiatu,
        haddr G q target hpages⟩

/-- Every request keeps the invariant. -/
theorem WorldMirrored.request (h : WorldMirrored w) {caller : Process} {r : Request}
    (hopen : w.device.isOpen F = true) (hcond : KeepsChip w (.request F caller r)) :
    WorldMirrored ⟨(dispatch w.device F caller r).device,
      if (dispatch w.device F caller r).status = .success then
        tell w.told (answer w.device F r) else w.told⟩ := by
  have hok := h.resources.books.apertures.ok
  have hres := h.resources.dispatch hopen caller r
  have hatt : (dispatch w.device F caller r).device.detached = false := by
    rw [dispatch_detached]
    exact h.attached
  -- a request that opens nothing tells nothing
  have hsame : answer w.device F r = none → Quiet w.device.mem
      (dispatch w.device F caller r).device.mem →
      WorldMirrored ⟨(dispatch w.device F caller r).device,
        if (dispatch w.device F caller r).status = .success then
          tell w.told (answer w.device F r) else w.told⟩ := by
    intro hnone hquiet
    rw [hnone, show tell w.told none = w.told from rfl, ite_self]
    exact h.quiet hquiet hres hatt
  by_cases hgate : ttCheckIoGates w.device F r.nr = .success ∧
      ¬(r.inCallerContext = true ∧ w.device.creatorProcess F ≠ caller)
  swap
  · -- refused before the handler
    have hfail : (dispatch w.device F caller r).status ≠ .success ∧
        (dispatch w.device F caller r).device = w.device := by
      unfold dispatch
      split
      · rename_i hrefused
        exact ⟨hrefused, rfl⟩
      rename_i hpass
      split
      · exact ⟨nofun, rfl⟩
      · rename_i hctx
        exact absurd ⟨not_not.mp hpass, hctx⟩ hgate
    rw [hfail.2, if_neg hfail.1]
    exact h
  have hdispatch : dispatch w.device F caller r = handle w.device F caller r := by
    unfold dispatch
    rw [if_neg (not_not.mpr hgate.1), if_neg hgate.2]
  have hregions := handle_regions (F := F) hok h.attached caller r
  rw [hdispatch] at hres hatt hsame ⊢
  cases r with
  | allocateDmaBuf io i env =>
    rcases allocateDmaBuf_answer (F := F) hok h.attached io i env with
      ⟨hs, hquiet⟩ | ⟨hs, b, u', hall, hanswer⟩
    · rw [if_neg (show ¬(handle w.device F caller (.allocateDmaBuf io i env)).status = .success
        from hs)]
      exact h.quiet hquiet hres hatt
    · rw [if_pos (show (handle w.device F caller (.allocateDmaBuf io i env)).status = .success
        from hs), hanswer]
      refine h.allocated hall ?_ hres hatt
      have hfit := hcond _ _ hall.memory
      rwa [← hall.size] at hfit
  | pinPages io i env =>
    rcases pinPages_answer (F := F) hok h.attached io i env with
      ⟨hs, hquiet⟩ | ⟨hs, p, target, u', hpin, hanswer⟩
    · rw [if_neg (show ¬(handle w.device F caller (.pinPages io i env)).status = .success from hs)]
      exact h.quiet hquiet hres hatt
    · rw [if_pos (show (handle w.device F caller (.pinPages io i env)).status = .success from hs),
        hanswer]
      exact h.pinned hpin hcond hres hatt
  | resetDevice io i env => exact absurd hcond id
  | _ => exact hsame rfl (hregions.quiet_of nofun nofun)

/-- Every step keeps the invariant. -/
theorem WorldMirrored.next (h : WorldMirrored w) {e : Event} (hcond : KeepsChip w e)
    (hstep : w.next e = some w') : WorldMirrored w' := by
  have hcallback : ∀ e, (∀ F caller r, e ≠ .request F caller r) → e ≠ .surpriseRemoval →
      ∀ d', w.device.next e = some d' → WorldMirrored ⟨d', w.told⟩ := by
    intro e hreq hremoval d' hd'
    have hatt : d'.detached = w.device.detached := by
      cases e with
      | request F caller r => exact absurd rfl (hreq F caller r)
      | surpriseRemoval => exact absurd rfl hremoval
      | cleanup F =>
        obtain ⟨_, rfl⟩ := DeviceContext.next_cleanup hd'
        rfl
      | _ =>
        cases hd'
        rfl
    rw [h.attached] at hatt
    exact h.quiet (next_quiet hd' hatt hreq) (h.resources.next hd') hatt
  cases e with
  | request F caller r =>
    obtain ⟨hopen, rfl⟩ := guard_of_eq_some hstep
    exact h.request hopen hcond
  | surpriseRemoval => exact absurd hcond id
  | _ =>
    simp only [MirrorWorld.next, Option.map_eq_some_iff] at hstep
    obtain ⟨d', hd', rfl⟩ := hstep
    exact hcallback _ (by simp) (by simp) d' hd'

/-- A started device with all regions disabled. -/
def MirrorWorld.started (config : MemoryConfig) (subsysVendorId subsysId : ℕ)
    (needsHwInit : Bool) (regs : Fin 16 → AtuRegs) : MirrorWorld :=
  ⟨.started config subsysVendorId subsysId needsHwInit regs, fun _ => none⟩

/-- A started device with all regions disabled keeps the invariant. -/
theorem WorldMirrored.started (config : MemoryConfig) (subsysVendorId subsysId : ℕ)
    (needsHwInit : Bool) {regs : Fin 16 → AtuRegs} (hregs : ∀ r, (regs r).enabled = false) :
    WorldMirrored (.started config subsysVendorId subsysId needsHwInit regs) := by
  have hnone := DeviceContext.notMem_bufs_started config subsysVendorId subsysId needsHwInit regs
  refine ⟨.started config subsysVendorId subsysId needsHwInit regs, rfl, ⟨hregs, nofun, nofun⟩,
    .of_none hnone, ?_, ?_⟩
  · exact fun G b r hb => absurd hb (hnone G b)
  · exact fun G p r hp => absurd hp List.not_mem_nil

end Steps

/-- What the registers of a region, its slot, the records and the answers say of one
another. -/
structure RegionMirrored (w : MirrorWorld) (r : Fin 16) : Prop where
  /-- The region is enabled exactly when its slot is used. -/
  enabled : (w.device.mem.iatu.regs r).enabled = true ↔ (w.device.mem.iatu.slots r).used = true
  /-- The base registers decode to the base of the slot. -/
  base : (w.device.mem.iatu.slots r).used = true →
    (w.device.mem.iatu.regs r).base = (w.device.mem.iatu.slots r).base
  /-- The limit registers decode to the limit of the slot. -/
  limit : (w.device.mem.iatu.slots r).used = true →
    (w.device.mem.iatu.regs r).limit = (w.device.mem.iatu.slots r).limit
  /-- A used region is named by a buffer or by a pinning of a handle. -/
  named : (w.device.mem.iatu.slots r).used = true → ∃ G,
    (∃ b ∈ (w.device.mem.file G).bufs, b.iatuRegion = some r) ∨
      ∃ p ∈ (w.device.mem.file G).pinnings, p.iatuRegion = some r
  /-- No region is named by two records. -/
  once : w.device.namedRegions.count r ≤ 1
  /-- The region of a buffer targets the buffer, has its size, and is what its caller was
  told. -/
  buf : ∀ G, ∀ b ∈ (w.device.mem.file G).bufs, b.iatuRegion = some r →
    (w.device.mem.iatu.regs r).target = b.logical ∧
      (w.device.mem.iatu.slots r).limit + 1 = (w.device.mem.iatu.slots r).base + b.size ∧
      w.told r = some ⟨b.logical, 2 ^ 60 + (w.device.mem.iatu.slots r).base⟩
  /-- The region of a pinning targets its device address, has its size, and is what its
  caller was told. -/
  pin : ∀ G, ∀ p ∈ (w.device.mem.file G).pinnings, p.iatuRegion = some r →
    ∃ address, PinAddress (w.device.mem.file G) p address ∧
      (w.device.mem.iatu.regs r).target = address ∧
      (w.device.mem.iatu.slots r).limit + 1 = (w.device.mem.iatu.slots r).base + p.size ∧
      w.told r = some ⟨address, 2 ^ 60 + (w.device.mem.iatu.slots r).base⟩
  /-- An enabled region reaches the memory of a live buffer, or pages that a live pinning
  has locked. -/
  live : ∀ a h, (w.device.mem.iatu.regs r).translate a = some h → ∃ G,
    (∃ b ∈ (w.device.mem.file G).bufs, b.logical ≤ h ∧ h < b.logical + b.size) ∨
      ∃ p ∈ (w.device.mem.file G).pinnings, ∃ pfn, p.mdl = some pfn ∧
        pfn * pageSize ≤ h ∧ h < pfn * pageSize + p.size

section Mirror

variable {w : MirrorWorld}

/-- The invariant, region by region. -/
theorem WorldMirrored.region (h : WorldMirrored w) (r : Fin 16) : RegionMirrored w r := by
  have hnamed : (w.device.mem.iatu.slots r).used = true → ∃ G,
      (∃ b ∈ (w.device.mem.file G).bufs, b.iatuRegion = some r) ∨
        ∃ p ∈ (w.device.mem.file G).pinnings, p.iatuRegion = some r := by
    intro hused
    obtain ⟨G, hG⟩ := h.resources.books.apertures.owned r hused
    have hmem := (h.resources.mem_regions G r).mpr ⟨hused, hG⟩
    refine ⟨G, ?_⟩
    rcases List.mem_append.mp hmem with hb | hp
    · exact .inl (List.mem_filterMap.mp hb)
    · exact .inr (List.mem_filterMap.mp hp)
  refine ⟨by rw [h.mirrors.enabled r], h.mirrors.base r, h.mirrors.limit r, hnamed, ?_, ?_, ?_, ?_⟩
  · exact List.nodup_iff_count_le_one.mp h.resources.nodup_namedRegions r
  · intro G b hb hr
    have htold := h.bufs G b r hb hr
    exact ⟨htold.serves.target, htold.serves.size, htold.told⟩
  · intro G p hp hr
    obtain ⟨address, htold, haddress⟩ := h.pinnings G p r hp hr
    exact ⟨address, haddress, htold.serves.target, htold.serves.size, htold.told⟩
  · intro a host htranslate
    obtain ⟨hen, hlo, hhi, rfl⟩ := AtuRegs.translate_eq_some.mp htranslate
    have hused : (w.device.mem.iatu.slots r).used = true := by rwa [← h.mirrors.enabled r]
    rw [h.mirrors.base r hused] at hlo ⊢
    rw [h.mirrors.limit r hused] at hhi
    obtain ⟨G, ⟨b, hb, hr⟩ | ⟨p, hp, hr⟩⟩ := hnamed hused
    · have htold := h.bufs G b r hb hr
      have hsize := htold.serves.size
      rw [htold.serves.target]
      exact ⟨G, .inl ⟨b, hb, by omega, by omega⟩⟩
    · obtain ⟨address, htold, haddress⟩ := h.pinnings G p r hp hr
      have hsize := htold.serves.size
      rw [htold.serves.target]
      rcases haddress with ⟨pfn, hmdl, rfl⟩ | ⟨b, hb, _, hfirst, hlast⟩
      · exact ⟨G, .inr ⟨p, hp, pfn, hmdl, by omega, by omega⟩⟩
      · exact ⟨G, .inl ⟨b, hb, by omega, by omega⟩⟩

/-- In every run of an attached device that starts with all regions disabled and has no
chip reset, over any handles and with any failures, the registers mirror the table and
the records. -/
theorem regions_mirror_records {config : MemoryConfig} {subsysVendorId subsysId : ℕ}
    {needsHwInit : Bool} {regs : Fin 16 → AtuRegs} (hregs : ∀ r, (regs r).enabled = false)
    {es : List Event}
    (hrun : Run (restrict (partialGraph MirrorWorld.next) KeepsChip)
      (.started config subsysVendorId subsysId needsHwInit regs) es w) (r : Fin 16) :
    RegionMirrored w r := by
  have h : WorldMirrored w := hrun.invariant (fun _ _ _ h hstep => h.next hstep.1 hstep.2)
    (.started config subsysVendorId subsysId needsHwInit hregs)
  exact h.region r

end Mirror

/-- A buffer with an aperture, a view of it, and a pinning of the view with a second
aperture. -/
def pinnedView : List Event :=
  [.create 7,
   .request 0 7 (.allocateDmaBuf ⟨24, 64⟩ ⟨4096, 3, true⟩ ⟨some (0x10000, 0x10000), true⟩),
   .request 0 7 (.map ⟨16, 24⟩ ⟨mmapOffsetDmaBuf + 3 * 2 ^ 32, 4096⟩ ⟨true, true, some 0x5000, 7⟩),
   .request 0 7 (.pinPages ⟨24, 40⟩ ⟨16, 2, 0x5000, 4096⟩ ⟨true, true, none⟩)]

/-- Both apertures of that run are mirrored. -/
theorem regions_mirror_records_pinnedView :
    ∃ w, Run (restrict (partialGraph MirrorWorld.next) KeepsChip)
        (.started blackholeConfig 0 0 false fun _ _ => 0) pinnedView w ∧
      (w.device.mem.iatu.slots 0).used = true ∧ (w.device.mem.iatu.slots 1).used = true ∧
      ∀ r, RegionMirrored w r :=
  have hrun : Run (restrict (partialGraph MirrorWorld.next) KeepsChip)
      (.started blackholeConfig 0 0 false fun _ _ => 0) pinnedView _ :=
    .cons ⟨trivial, rfl⟩
      (.cons ⟨fun _ _ hbuf => (by cases hbuf; decide), rfl⟩
        (.cons ⟨trivial, rfl⟩
          (.cons ⟨fun _ hpfns => (by cases hpfns), rfl⟩ (.nil _))))
  ⟨_, hrun, rfl, rfl, fun r => regions_mirror_records (fun _ => rfl) hrun r⟩

end TtKmd
