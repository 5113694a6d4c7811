import TtKmd.Memory.Requests
import TtKmd.Iatu.Ownership

/-!
# What a memory request can do

One lemma for each request lists everything the request can leave behind. A failed
request changes nothing but an aperture that was opened and torn down again. The
invariants of the later files are derived from these lemmas, and never from the
handlers themselves.
-/

namespace TtKmd

open Lib

/-- A view that `MAP` may create for the handle: of a live DMA buffer of the handle,
of a window the handle owns, or of a BAR. -/
def ViewOk (m : MemoryState) (F : Handle) (v : UserMapping) : Prop :=
  (v.isDmaBuf = true ∧ v.tlbId = none ∧
      ∃ b ∈ (m.file F).bufs, v.dmaBuf = some b.id ∧ v.length ≤ b.size) ∨
    (v.isDmaBuf = false ∧ v.dmaBuf = none ∧
      ∀ id, v.tlbId = some id → id < tlbTotal ∧ m.tlbUsed id = true ∧ m.tlbOwner id = some F)

/-- The sizes an aperture is opened for: whole pages, less than 4 GiB. -/
def ApertureSize (size : ℕ) : Prop := 1 < size ∧ size < 2 ^ 32 ∧ pageSize ∣ size

/-- A positive number of whole pages below 4 GiB is the size of an aperture. -/
theorem apertureSize_of_pages {size : ℕ} (hpos : size ≠ 0) (hpage : size % pageSize = 0)
    (hlt : size < 2 ^ 32) : ApertureSize size := by
  unfold pageSize at hpage
  refine ⟨by omega, hlt, ?_⟩
  exact Nat.dvd_of_mod_eq_zero hpage

section Requests

variable {c : MemoryConfig} {detached : Bool} {m : MemoryState} {F : Handle} {io : Io}

/-- The memory of the other handles is untouched. -/
@[simp]
theorem MemoryState.setFile_of_ne {G : Handle} (hG : G ≠ F) (f : FileMemory) :
    (m.setFile F f).file G = m.file G := Function.update_of_ne hG _ _

/-- The memory of the handle is replaced. -/
@[simp]
theorem MemoryState.setFile_self (f : FileMemory) : (m.setFile F f).file F = f :=
  Function.update_self _ _ _

/-- A function of the records of a handle that a change leaves as it was. -/
theorem MemoryState.setFile_proj {α : Type} (g : FileMemory → α) {f : FileMemory}
    (h : g f = g (m.file F)) (G : Handle) : g ((m.setFile F f).file G) = g (m.file G) := by
  by_cases hG : G = F
  · subst hG
    rw [MemoryState.setFile_self, h]
  · rw [MemoryState.setFile_of_ne hG]

/-- The buffers of a handle after one was put into an empty slot. -/
theorem MemoryState.mem_bufs_insert {i : ℕ} (hi : i < maxDmaBufs)
    (hempty : (m.file F).dmaBufs i = none) {b b' : DmaBuf} {G : Handle} :
    b' ∈ ((m.setFile F { m.file F with
        dmaBufs := Function.update (m.file F).dmaBufs i (some b) }).file G).bufs ↔
      (G = F ∧ b' = b) ∨ b' ∈ (m.file G).bufs := by
  by_cases hG : G = F
  · subst hG
    rw [MemoryState.setFile_self, (FileMemory.bufs_insert hi hempty b).mem_iff, List.mem_cons]
    simp
  · rw [MemoryState.setFile_of_ne hG]
    simp [hG]

/-- The state after a request that opened an aperture and gave up. -/
def Undone (detached : Bool) (m m' : MemoryState) (F : Handle) (size : ℕ) : Prop :=
  ∃ u' target region, Opened m.iatu u' F size target region ∧
    m' = { m with iatu := ttTeardownNocDma detached u' region }

/-- A request that changed nothing. -/
theorem Undone.refl (detached : Bool) (m : MemoryState) (F : Handle) (size : ℕ) :
    Undone detached m m F size := ⟨m.iatu, 0, none, rfl, rfl⟩

/-- The state after `ALLOCATE_DMA_BUF` put a buffer into an empty slot. -/
structure Allocated (m m' : MemoryState) (F : Handle) (i : AllocateDmaBufIn) (env : DmaBufEnv)
    (b : DmaBuf) (u' : IatuUnit) : Prop where
  /-- The slot exists. -/
  index : i.bufIndex < maxDmaBufs
  /-- The slot was empty. -/
  empty : (m.file F).dmaBufs i.bufIndex = none
  /-- The identity of the buffer is new. -/
  id : b.id = m.nextBuf
  /-- The size asked for. -/
  size : b.size = i.requestedSize
  /-- The size is one of an aperture. -/
  sizeOk : ApertureSize b.size
  /-- The memory is what the operating system gave. -/
  memory : env.commonBuffer = some (b.logical, b.physical)
  /-- The addresses are in reach of the device. -/
  reach : u64Sub (u64 (b.logical + b.size)) 1 ≤ nocDmaLimit
  /-- The aperture. -/
  aperture : Opened m.iatu u' F b.size b.logical b.iatuRegion
  /-- The state. -/
  mem : m' = { m.setFile F { m.file F with
      dmaBufs := Function.update (m.file F).dmaBufs i.bufIndex (some b) } with
    iatu := u', dmaBufBytes := m.dmaBufBytes + b.size, nextBuf := m.nextBuf + 1 }

/-- The aperture of a new DMA buffer. -/
theorem dmaBufAperture_opened {u : IatuUnit} (hok : SlotsOk u.slots) (F : Handle)
    (i : AllocateDmaBufIn) (hsize : i.requestedSize < 2 ^ 32) (logical : ℕ) :
    Opened u (dmaBufAperture u F i logical).unit F i.requestedSize logical
      (dmaBufAperture u F i logical).region := by
  unfold dmaBufAperture
  split
  · exact ttSetupNocDma_opened hok F true hsize logical
  · rfl

/-- The failure path gives the bytes and the aperture back. -/
theorem allocateDmaBufFail_undone {u' : IatuUnit} {target : ℕ} {region : Option (Fin 16)}
    {size : ℕ} (hopen : Opened m.iatu u' F size target region) (bytes : ℕ) (status : NtStatus) :
    Undone detached m (allocateDmaBufFail detached
      { m with iatu := u', dmaBufBytes := m.dmaBufBytes + bytes } region bytes status).mem F
      size := by
  refine ⟨u', target, region, hopen, ?_⟩
  simp [allocateDmaBufFail, Reply.fail, ttDmaAccountRelease]

/-- The section of `ALLOCATE_DMA_BUF` after the reservation of the bytes. -/
theorem allocateDmaBufReserved_cases (detached : Bool) (io : Io) (hok : SlotsOk m.iatu.slots)
    {i : AllocateDmaBufIn}
    (hindex : i.bufIndex < maxDmaBufs) (hempty : (m.file F).dmaBufs i.bufIndex = none)
    (hsize : ApertureSize i.requestedSize) (env : DmaBufEnv) :
    let reply := allocateDmaBufReserved detached
      { m with dmaBufBytes := m.dmaBufBytes + i.requestedSize } F io i env
    Undone detached m reply.mem F i.requestedSize ∨
      (reply.status = .success ∧ ∃ b u', Allocated m reply.mem F i env b u') := by
  intro reply
  have hnone : Opened m.iatu m.iatu F i.requestedSize 0 none := rfl
  simp only [reply, allocateDmaBufReserved]
  cases hbuf : env.commonBuffer with
  | none =>
    exact .inl (allocateDmaBufFail_undone hnone _ _)
  | some addr =>
    obtain ⟨logical, physical⟩ := addr
    have hopen := dmaBufAperture_opened hok F i hsize.2.1 logical
    dsimp only
    split
    · exact .inl (allocateDmaBufFail_undone hnone _ _)
    · rename_i hreach
      split
      · exact .inl (allocateDmaBufFail_undone hopen _ _)
      · split
        · exact .inl (allocateDmaBufFail_undone hopen _ _)
        · split
          · exact .inl (allocateDmaBufFail_undone hopen _ _)
          · refine .inr ⟨rfl, ⟨m.nextBuf, i.requestedSize, i.bufIndex, logical, physical,
              (dmaBufAperture m.iatu F i logical).region⟩,
              (dmaBufAperture m.iatu F i logical).unit, ?_⟩
            exact ⟨hindex, hempty, rfl, rfl, hsize, hbuf, not_lt.mp hreach, hopen, rfl⟩

/-- Everything `ALLOCATE_DMA_BUF` can do. -/
theorem ttIoctlAllocateDmaBuf_cases (c : MemoryConfig) (detached : Bool) (F : Handle) (io : Io)
    (hok : SlotsOk m.iatu.slots) (i : AllocateDmaBufIn) (env : DmaBufEnv) :
    let reply := ttIoctlAllocateDmaBuf c detached m F io i env
    (reply.mem = m ∨ ApertureSize i.requestedSize ∧
        Undone detached m reply.mem F i.requestedSize) ∨
      (reply.status = .success ∧ ∃ b u', Allocated m reply.mem F i env b u') := by
  intro reply
  simp only [reply, ttIoctlAllocateDmaBuf]
  split
  · exact .inl (.inl rfl)
  split
  · exact .inl (.inl rfl)
  split
  · exact .inl (.inl rfl)
  rename_i hindex
  split
  · exact .inl (.inl rfl)
  rename_i hsize
  split
  · exact .inl (.inl rfl)
  rename_i hempty
  have hpages : ApertureSize i.requestedSize := by
    unfold maxDmaBufSize at hsize
    exact apertureSize_of_pages (by omega) (by omega) (by omega)
  unfold ttDmaAccountReserve
  dsimp only
  split_ifs with hquota
  · exact .inl (.inl rfl)
  · rcases allocateDmaBufReserved_cases detached io hok (by omega)
      (not_not.mp hempty) hpages env with hundone | hdone
    · exact .inl (.inr ⟨hpages, hundone⟩)
    · exact .inr hdone

/-- Everything `FREE_DMA_BUF_EX` can do. -/
theorem ttIoctlFreeDmaBufEx_cases (detached : Bool) (m : MemoryState) (F : Handle) (io : Io)
    (i : FreeDmaBufExIn) :
    let reply := ttIoctlFreeDmaBufEx detached m F io i
    (reply.status ≠ .success ∧ reply.mem = m) ∨
      (reply.status = .success ∧ ∃ b, i.bufIndex < maxDmaBufs ∧
        (m.file F).dmaBufs i.bufIndex = some b ∧ bufReferenced (m.file F) b = false ∧
        reply.mem = ttDmaBufDestroy detached (m.setFile F { m.file F with
          dmaBufs := Function.update (m.file F).dmaBufs i.bufIndex none }) b) := by
  intro reply
  simp only [reply, ttIoctlFreeDmaBufEx]
  split
  · exact .inl ⟨nofun, rfl⟩
  split
  · exact .inl ⟨nofun, rfl⟩
  rename_i hin
  cases hb : (m.file F).dmaBufs i.bufIndex with
  | none => exact .inl ⟨nofun, rfl⟩
  | some b =>
    dsimp only
    split
    · exact .inl ⟨nofun, rfl⟩
    · rename_i href
      exact .inr ⟨rfl, b, by omega, rfl, by simpa using href, rfl⟩

/-- What a successful `FREE_DMA_BUF_EX` has done. -/
theorem ttIoctlFreeDmaBufEx_success {i : FreeDmaBufExIn}
    (h : (ttIoctlFreeDmaBufEx detached m F io i).status = .success) :
    ∃ b, i.bufIndex < maxDmaBufs ∧ (m.file F).dmaBufs i.bufIndex = some b ∧
      bufReferenced (m.file F) b = false ∧
      (ttIoctlFreeDmaBufEx detached m F io i).mem.iatu =
        ttTeardownNocDma detached m.iatu b.iatuRegion := by
  rcases ttIoctlFreeDmaBufEx_cases detached m F io i with
    ⟨hfails, _⟩ | ⟨_, b, hindex, hb, hfree, hm⟩
  · exact absurd h hfails
  · refine ⟨b, hindex, hb, hfree, ?_⟩
    rw [hm]
    rfl

/-- The part of a TLB token behind the base of its region. -/
def tlbEncoded (mmapOffset : ℕ) : ℕ :=
  mmapOffset - if mmapOffset ≥ 7 * 2 ^ 36 then 7 * 2 ^ 36 else 6 * 2 ^ 36

/-- The caching kind of a TLB token. -/
def tlbCaching (mmapOffset : ℕ) : CacheType :=
  if mmapOffset ≥ 7 * 2 ^ 36 then .writeCombined else .nonCached

/-- The requests the BAR branch of `TtResolveMapTarget` accepts. -/
theorem resolveBar_eq_ok {c : MemoryConfig} {mmapOffset length : ℕ} {target : MapTarget} :
    resolveBar c mmapOffset length = .ok target ↔
      mmapOffset % 2 ^ 36 < c.barLength (mmapOffset / 2 ^ 36 / 2 * 2) ∧
      mmapOffset % 2 ^ 36 + length ≤ c.barLength (mmapOffset / 2 ^ 36 / 2 * 2) ∧
      target = ⟨c.barBase (mmapOffset / 2 ^ 36 / 2 * 2) + mmapOffset % 2 ^ 36,
        if mmapOffset / 2 ^ 36 % 2 = 1 then .writeCombined else .nonCached, none, none⟩ := by
  unfold resolveBar
  dsimp only
  generalize c.barLength (mmapOffset / 2 ^ 36 / 2 * 2) = barLength
  constructor
  · intro h
    split at h
    · cases h
    · rename_i hbound
      cases h
      exact ⟨by omega, by omega, rfl⟩
  · rintro ⟨hlt, hfit, rfl⟩
    rw [if_neg (by omega)]

/-- The requests the DMA-buffer branch of `TtResolveMapTarget` accepts. -/
theorem resolveDmaBuf_eq_ok {f : FileMemory} {mmapOffset length : ℕ} {target : MapTarget} :
    resolveDmaBuf f mmapOffset length = .ok target ↔
      (mmapOffset - mmapOffsetDmaBuf) % 2 ^ 32 = 0 ∧
      (mmapOffset - mmapOffsetDmaBuf) / 2 ^ 32 < maxDmaBufs ∧
      ∃ b, f.dmaBufs ((mmapOffset - mmapOffsetDmaBuf) / 2 ^ 32) = some b ∧ length ≤ b.size ∧
        target = ⟨b.physical, .cached, none, some b.id⟩ := by
  unfold resolveDmaBuf
  dsimp only
  generalize mmapOffset - mmapOffsetDmaBuf = rel
  by_cases hbad : rel % 2 ^ 32 ≠ 0 ∨ rel / 2 ^ 32 ≥ maxDmaBufs
  · rw [if_pos hbad]
    constructor
    · intro h
      cases h
    · rintro ⟨haligned, hindex, -⟩
      omega
  rw [if_neg hbad]
  cases hbuf : f.dmaBufs (rel / 2 ^ 32) with
  | none => simp
  | some b =>
    dsimp only
    constructor
    · intro h
      split at h
      · cases h
      · rename_i hlength
        cases h
        exact ⟨by omega, by omega, b, rfl, by omega, rfl⟩
    · rintro ⟨-, -, b', hb', hlength, rfl⟩
      obtain rfl := Option.some.inj hb'
      rw [if_neg (by omega)]

/-- The requests the TLB branch of `TtResolveMapTarget` accepts. -/
theorem resolveTlb_eq_ok {c : MemoryConfig} {m : MemoryState} {F : Handle}
    {mmapOffset length : ℕ} {target : MapTarget} :
    resolveTlb c m F mmapOffset length = .ok target ↔
      ∃ bar barOffset id, decodeTlb (tlbEncoded mmapOffset) length = some (bar, barOffset, id) ∧
        id < tlbTotal ∧ c.barLength bar ≠ 0 ∧ barOffset + length ≤ c.barLength bar ∧
        m.tlbUsed id = true ∧ m.tlbOwner id = some F ∧
        target = ⟨c.barBase bar + barOffset, tlbCaching mmapOffset, some id, none⟩ := by
  unfold resolveTlb tlbEncoded tlbCaching
  dsimp only
  cases hdecode : decodeTlb (mmapOffset -
      if mmapOffset ≥ 7 * 2 ^ 36 then 7 * 2 ^ 36 else 6 * 2 ^ 36) length with
  | none => simp
  | some window =>
    obtain ⟨bar, barOffset, id⟩ := window
    dsimp only
    constructor
    · intro h
      split at h
      · cases h
      · rename_i hbound
        split at h
        · cases h
        · rename_i howner
          cases h
          refine ⟨bar, barOffset, id, rfl, by omega, by omega, by omega, ?_, ?_, rfl⟩
          · simpa using (not_or.mp howner).1
          · simpa using (not_or.mp howner).2
    · rintro ⟨bar', barOffset', id', hw, hid, hlen, hfit, hused, howner, rfl⟩
      cases hw
      rw [if_neg (by omega), if_neg (by simp [hused, howner])]

/-- What a token resolves to can be viewed. -/
theorem viewOk_of_resolve {mmapOffset length userVa : ℕ} {target : MapTarget} {process : Process}
    (h : ttResolveMapTarget c m F mmapOffset length = .ok target) :
    ViewOk m F ⟨userVa, length, target.physical, target.tlbId,
      decide (mmapOffset ≥ mmapOffsetDmaBuf), target.dmaBuf, process⟩ := by
  unfold ttResolveMapTarget at h
  split_ifs at h with hdma hbar htlb
  · obtain ⟨-, hindex, b, hb, hlength, rfl⟩ := resolveDmaBuf_eq_ok.mp h
    exact .inl ⟨by simpa using hdma, rfl, b, FileMemory.mem_bufs.mpr ⟨_, hindex, hb⟩, rfl, hlength⟩
  · obtain ⟨-, -, rfl⟩ := resolveBar_eq_ok.mp h
    exact .inr ⟨by simpa using hdma, rfl, by simp⟩
  · obtain ⟨bar, barOffset, id, -, hid, -, -, hused, howner, rfl⟩ := resolveTlb_eq_ok.mp h
    refine .inr ⟨by simpa using hdma, rfl, ?_⟩
    rintro id' ⟨⟩
    exact ⟨hid, hused, howner⟩

/-- Everything `MAP` can do. -/
theorem ttIoctlMap_cases (c : MemoryConfig) (m : MemoryState) (F : Handle) (io : Io) (i : MapIn)
    (env : MapEnv) :
    let reply := ttIoctlMap c m F io i env
    reply.mem = m ∨
      (reply.status = .success ∧ ∃ v, ViewOk m F v ∧ v.process = env.process ∧
        reply.mem = m.setFile F { m.file F with mappings := (m.file F).mappings ++ [v] }) := by
  intro reply
  simp only [reply, ttIoctlMap]
  split
  · exact .inl rfl
  split
  · exact .inl rfl
  split
  · exact .inl rfl
  rename_i target htarget
  split
  · exact .inl rfl
  split
  · exact .inl rfl
  split
  · exact .inl rfl
  · exact .inr ⟨rfl, _, viewOk_of_resolve htarget, rfl, rfl⟩

/-- Everything the section of `UNMAP` can do. -/
theorem unmapSection_cases (userVa : ℕ) :
    unmapSection m F userVa = (none, m) ∨
      ∃ v l, (m.file F).mappings.Perm (v :: l) ∧
        unmapSection m F userVa = (some v, m.setFile F { m.file F with mappings := l }) := by
  simp only [unmapSection]
  cases hfind : (m.file F).mappings.find? fun v => v.userVa == userVa with
  | none => exact .inl rfl
  | some v => exact .inr ⟨v, _, perm_cons_eraseP hfind, rfl⟩

/-- A buffer found through a view of the handle: the view contains the range. -/
theorem ttFindDmaBufView_eq_some {f : FileMemory} {va size id offset : ℕ}
    (h : ttFindDmaBufView f va size = some (id, offset)) :
    ∃ v ∈ f.mappings, v.isDmaBuf = true ∧ v.dmaBuf = some id ∧ offset + size ≤ v.length := by
  obtain ⟨v, hv, hfound⟩ := List.exists_of_findSome?_eq_some h
  cases hbuf : v.dmaBuf with
  | none => simp [hbuf] at hfound
  | some b =>
    simp only [hbuf] at hfound
    split at hfound
    · rename_i hin
      cases hfound
      exact ⟨v, hv, hin.1, hbuf, by omega⟩
    · cases hfound

/-- A live buffer that is known by its identity is found by it. -/
theorem FileMemory.findBuf_eq {f : FileMemory} {b : DmaBuf} (hb : b ∈ f.bufs)
    (hunique : ∀ b' ∈ f.bufs, b'.id = b.id → b' = b) : f.findBuf b.id = some b := by
  unfold FileMemory.findBuf
  cases hf : f.bufs.find? fun b' => b'.id == b.id with
  | none =>
    have hno := List.find?_eq_none.mp hf b hb
    simp at hno
  | some b' =>
    have hid : b'.id = b.id := by simpa using List.find?_some hf
    rw [hunique b' (List.mem_of_find?_eq_some hf) hid]

/-- The pages a pinning covers: part of a DMA buffer of the handle, seen through one
of its views, or user pages that were locked. -/
def PinTarget (f : FileMemory) (env : PinEnv) (p : Pinning) (target : ℕ) : Prop :=
  (p.mdl = none ∧ ∃ id offset, p.backingDmaBuf = some id ∧
      ttFindDmaBufView f p.virtualAddress p.size = some (id, offset) ∧
      target = (f.findBuf id).elim 0 (·.logical) + offset) ∨
    (p.backingDmaBuf = none ∧ ttFindDmaBufView f p.virtualAddress p.size = none ∧
      ∃ pfns, env.pfns = some pfns ∧ p.mdl = some (pfns.headD 0) ∧
        target = pfns.headD 0 * pageSize)

/-- The state after `PIN_PAGES` registered a pinning. -/
structure Pinned (m m' : MemoryState) (F : Handle) (i : PinPagesIn) (env : PinEnv) (p : Pinning)
    (target : ℕ) (u' : IatuUnit) : Prop where
  /-- The address asked for. -/
  virtualAddress : p.virtualAddress = i.virtualAddress
  /-- The size asked for. -/
  size : p.size = i.size
  /-- The size is one of an aperture. -/
  sizeOk : ApertureSize p.size
  /-- An aperture was asked for. -/
  asked : p.iatuRegion ≠ none → i.flags &&& 6 ≠ 0
  /-- The pages. -/
  pages : PinTarget (m.file F) env p target
  /-- The aperture. -/
  aperture : Opened m.iatu u' F p.size target p.iatuRegion
  /-- The state. -/
  mem : m' = { m with iatu := u' }.setFile F { m.file F with
    pinnings := (m.file F).pinnings ++ [p] }

/-- The aperture of a pinning. -/
theorem pinAperture_opened {u : IatuUnit} (hok : SlotsOk u.slots) (F : Handle) (i : PinPagesIn)
    (hsize : i.size < 2 ^ 32) (target : ℕ) :
    Opened u (pinAperture u F i target).unit F i.size target (pinAperture u F i target).region := by
  unfold pinAperture
  split
  · exact ttSetupNocDma_opened hok F _ hsize target
  · rfl

/-- There is no aperture unless one was asked for. -/
theorem asked_of_pinAperture {u : IatuUnit} {F : Handle} {i : PinPagesIn} {target : ℕ}
    (h : (pinAperture u F i target).region ≠ none) : i.flags &&& 6 ≠ 0 := by
  intro hflags
  simp [pinAperture, hflags] at h

/-- The section of `PIN_PAGES` once the device address is known. -/
theorem pinPagesLocked_cases (detached : Bool) (io : Io) (hok : SlotsOk m.iatu.slots)
    {i : PinPagesIn}
    (hsize : ApertureSize i.size) {env : PinEnv} {backing : Option ℕ} {target : ℕ} {mdl : Option ℕ}
    (hpages : ∀ r, PinTarget (m.file F) env ⟨i.virtualAddress, i.size, mdl, backing, r⟩ target) :
    let reply := pinPagesLocked detached m F io i backing target mdl
    Undone detached m reply.mem F i.size ∨
      (reply.status = .success ∧ ∃ p u', Pinned m reply.mem F i env p target u') := by
  intro reply
  have hopen := pinAperture_opened hok F i hsize.2.1 target
  simp only [reply, pinPagesLocked]
  split
  · exact .inl ⟨_, target, _, hopen, rfl⟩
  split
  · exact .inl ⟨_, target, _, hopen, rfl⟩
  · exact .inr ⟨rfl, _, _, rfl, rfl, hsize, asked_of_pinAperture, hpages _, hopen, rfl⟩

/-- The pages the section of `PIN_PAGES` finds. -/
theorem pinPagesTarget_cases {f : FileMemory} {i : PinPagesIn} {env : PinEnv} {target : ℕ}
    {mdl : Option ℕ}
    (h : pinPagesTarget f env (ttFindDmaBufView f i.virtualAddress i.size) = .ok (target, mdl))
    (r : Option (Fin 16)) :
    PinTarget f env ⟨i.virtualAddress, i.size, mdl,
      (ttFindDmaBufView f i.virtualAddress i.size).map (·.1), r⟩ target := by
  cases hview : ttFindDmaBufView f i.virtualAddress i.size with
  | some view =>
    obtain ⟨id, offset⟩ := view
    rw [hview] at h
    cases h
    exact .inl ⟨rfl, id, offset, rfl, hview, rfl⟩
  | none =>
    rw [hview] at h
    simp only [pinPagesTarget] at h
    split at h
    · cases h
    split at h
    · cases h
    rename_i pfns hpfns
    split at h
    · cases h
    cases h
    exact .inr ⟨rfl, hview, pfns, hpfns, rfl, rfl⟩

/-- The sizes `PIN_PAGES` accepts. -/
theorem apertureSize_of_pinPagesCheck {i : PinPagesIn} (h : pinPagesCheck io i = .success) :
    ApertureSize i.size := by
  unfold pinPagesCheck at h
  split_ifs at h with _ _ hsize
  unfold maxUlong at hsize
  exact apertureSize_of_pages (by omega) (by omega) (by omega)

/-- Everything `PIN_PAGES` can do. -/
theorem ttIoctlPinPages_cases (c : MemoryConfig) (detached : Bool) (F : Handle) (io : Io)
    (hok : SlotsOk m.iatu.slots) (i : PinPagesIn) (env : PinEnv) :
    let reply := ttIoctlPinPages c detached m F io i env
    (reply.mem = m ∨ ApertureSize i.size ∧ Undone detached m reply.mem F i.size) ∨
      (reply.status = .success ∧ ∃ p target u', Pinned m reply.mem F i env p target u') := by
  intro reply
  simp only [reply, ttIoctlPinPages]
  split
  · exact .inl (.inl rfl)
  rename_i hcheck
  have hsize := apertureSize_of_pinPagesCheck (not_not.mp hcheck)
  split
  · exact .inl (.inl rfl)
  split
  · exact .inl (.inl rfl)
  split
  · exact .inl (.inl rfl)
  split
  · exact .inl (.inl rfl)
  rename_i target mdl htarget
  rcases pinPagesLocked_cases detached io hok hsize
    (pinPagesTarget_cases htarget) with hundone | ⟨hstatus, p, u', hpinned⟩
  · exact .inl (.inr ⟨hsize, hundone⟩)
  · exact .inr ⟨hstatus, p, target, u', hpinned⟩

/-- Everything the section of `UNPIN_PAGES` can do. -/
theorem unpinSection_cases (i : UnpinPagesIn) :
    unpinSection m F i = (none, m) ∨
      ∃ p l, (m.file F).pinnings.Perm (p :: l) ∧
        unpinSection m F i = (some p, m.setFile F { m.file F with pinnings := l }) := by
  simp only [unpinSection]
  cases hfind : (m.file F).pinnings.find? fun p => p.virtualAddress == i.virtualAddress with
  | none => exact .inl rfl
  | some p =>
    dsimp only
    split
    · exact .inl rfl
    · exact .inr ⟨p, _, perm_cons_eraseP hfind, rfl⟩

/-- The state after a window was claimed. -/
def holdTlb (m : MemoryState) (F : Handle) (id : ℕ) : MemoryState :=
  { m with
    tlbUsed := Function.update m.tlbUsed id true
    tlbOwner := Function.update m.tlbOwner id (some F) }

/-- The claim of `ALLOCATE_TLB` finds no window or takes the first one that is free. -/
theorem claimTlb_cases (m : MemoryState) (F : Handle) (pool : ℕ × ℕ) :
    ((∀ id, pool.1 ≤ id → id < pool.1 + pool.2 → m.tlbUsed id = true) ∧
        claimTlb m F pool = (none, m)) ∨
      ∃ id, (pool.1 ≤ id ∧ id < pool.1 + pool.2) ∧ m.tlbUsed id = false ∧
        (∀ j, pool.1 ≤ j → j < id → m.tlbUsed j = true) ∧
        claimTlb m F pool = (some id, holdTlb m F id) := by
  unfold claimTlb
  cases hfind : (List.range' pool.1 pool.2).find? fun id => !m.tlbUsed id with
  | none =>
    refine .inl ⟨?_, rfl⟩
    intro id hlo hhi
    have hused := List.find?_eq_none.mp hfind id (List.mem_range'_1.mpr ⟨hlo, hhi⟩)
    simpa using hused
  | some id =>
    have hmem := List.mem_range'_1.mp (List.mem_of_find?_eq_some hfind)
    have hfree := List.find?_some hfind
    refine .inr ⟨id, hmem, by simpa using hfree, ?_, rfl⟩
    intro j hlo hlt
    obtain ⟨-, before, after, hsplit, hbefore⟩ := List.find?_eq_some_iff_append.mp hfind
    have hj : j ∈ before := by
      have hjmem : j ∈ List.range' pool.1 pool.2 := List.mem_range'_1.mpr ⟨hlo, by omega⟩
      have hsorted : (List.range' pool.1 pool.2).Pairwise (· < ·) := List.pairwise_lt_range'
      rw [hsplit] at hjmem hsorted
      rcases List.mem_append.mp hjmem with h | h
      · exact h
      · have hafter := List.pairwise_cons.mp (List.pairwise_append.mp hsorted).2.1
        rcases List.mem_cons.mp h with rfl | h
        · omega
        · have := hafter.1 j h
          omega
    simpa using hbefore j hj

/-- The pools and the inputs that lead to them. -/
theorem allocateTlbCheck_eq_ok {io : Io} {size : ℕ} {pool : ℕ × ℕ} :
    allocateTlbCheck c io size = .ok pool ↔
      c.isBlackhole = true ∧ 16 ≤ io.input ∧ tlbPool c size = some pool := by
  unfold allocateTlbCheck ttCopyInBuffer
  cases c.isBlackhole with
  | false => simp
  | true =>
    by_cases hinput : io.input < 16
    · simp [hinput]
    · cases hpool : tlbPool c size with
      | none => simp [hinput]
      | some pool => simp [hinput, Nat.le_of_not_lt hinput]

/-- The pool of a size has described windows only. -/
theorem tlbPool_lt {size : ℕ} {pool : ℕ × ℕ} (h : tlbPool c size = some pool) :
    pool.1 + pool.2 ≤ tlb2mCount + c.tlb4gCount := by
  unfold tlbPool at h
  split_ifs at h
  all_goals
    cases h
    dsimp only
    omega

/-- The pool of a size has windows below `TT_TLB_TOTAL` only. -/
theorem allocateTlbCheck_pool {io : Io} {size : ℕ} {pool : ℕ × ℕ}
    (h : allocateTlbCheck c io size = .ok pool) {id : ℕ} (hid : id < pool.1 + pool.2) :
    id < tlbTotal := by
  have hcount : c.tlb4gCount ≤ 8 := Nat.min_le_right _ _
  have hpool := tlbPool_lt (allocateTlbCheck_eq_ok.mp h).2.2
  unfold tlbTotal
  omega

/-- Everything `ALLOCATE_TLB` can do once its checks have selected a pool. -/
theorem ttIoctlAllocateTlb_cases (c : MemoryConfig) (m : MemoryState) (F : Handle) (io : Io)
    (size : ℕ) :
    (∃ status, allocateTlbCheck c io size = .error status ∧
        ttIoctlAllocateTlb c m F io size = .fail m status) ∨
      ∃ pool, allocateTlbCheck c io size = .ok pool ∧
        (((∀ id, pool.1 ≤ id → id < pool.1 + pool.2 → m.tlbUsed id = true) ∧
            ttIoctlAllocateTlb c m F io size = .fail m .insufficientResources) ∨
          ∃ id, (pool.1 ≤ id ∧ id < pool.1 + pool.2) ∧ m.tlbUsed id = false ∧
            (∀ j, pool.1 ≤ j → j < id → m.tlbUsed j = true) ∧
            ttIoctlAllocateTlb c m F io size =
              if ttCompleteSizedOutBuffer io 16 32 = .success then
                ⟨.success, some (allocateTlbOut c id), holdTlb m F id⟩
              else .fail (releaseTlb (holdTlb m F id) id) .accessViolation) := by
  unfold ttIoctlAllocateTlb
  cases hcheck : allocateTlbCheck c io size with
  | error status => exact .inl ⟨status, rfl, rfl⟩
  | ok pool =>
    refine .inr ⟨pool, rfl, ?_⟩
    dsimp only
    rcases claimTlb_cases m F pool with ⟨hfull, hclaim⟩ | ⟨id, hid, hfree, hleast, hclaim⟩
    · rw [hclaim]
      exact .inl ⟨hfull, rfl⟩
    · rw [hclaim]
      exact .inr ⟨id, hid, hfree, hleast, rfl⟩

/-- `ALLOCATE_TLB` changes the pool and nothing else. -/
theorem ttIoctlAllocateTlb_windows (c : MemoryConfig) (m : MemoryState) (F : Handle) (io : Io)
    (size : ℕ) :
    ∃ used owner, (ttIoctlAllocateTlb c m F io size).mem =
      { m with tlbUsed := used, tlbOwner := owner } := by
  rcases ttIoctlAllocateTlb_cases c m F io size with
    ⟨_, _, hreply⟩ | ⟨_, _, ⟨_, hreply⟩ | ⟨_, _, _, _, hreply⟩⟩
  · rw [hreply]
    exact ⟨m.tlbUsed, m.tlbOwner, rfl⟩
  · rw [hreply]
    exact ⟨m.tlbUsed, m.tlbOwner, rfl⟩
  · rw [hreply]
    split
    · exact ⟨_, _, rfl⟩
    · exact ⟨_, _, rfl⟩

/-- Everything `FREE_TLB` can do. -/
theorem ttIoctlFreeTlb_cases (m : MemoryState) (F : Handle) (io : Io) (id : ℕ) :
    let reply := ttIoctlFreeTlb m F io id
    (reply.status ≠ .success ∧ reply.mem = m) ∨
      (reply.status = .success ∧ m.tlbOwner id = some F ∧
        (∀ v ∈ (m.file F).mappings, v.tlbId ≠ some id) ∧ reply.mem = releaseTlb m id) := by
  intro reply
  simp only [reply, ttIoctlFreeTlb]
  split
  · exact .inl ⟨nofun, rfl⟩
  split
  · exact .inl ⟨nofun, rfl⟩
  split
  · exact .inl ⟨nofun, rfl⟩
  rename_i hown
  split
  · exact .inl ⟨nofun, rfl⟩
  rename_i hview
  simp only [not_or, ne_eq, not_not] at hown
  refine .inr ⟨rfl, hown.2.2, ?_, rfl⟩
  intro v hv htlb
  exact hview (List.any_eq_true.mpr ⟨v, hv, by simp [htlb]⟩)

/-- `FREE_TLB` changes the pool and nothing else. -/
theorem ttIoctlFreeTlb_windows (m : MemoryState) (F : Handle) (io : Io) (id : ℕ) :
    ∃ used owner,
      (ttIoctlFreeTlb m F io id).mem = { m with tlbUsed := used, tlbOwner := owner } := by
  rcases ttIoctlFreeTlb_cases m F io id with ⟨_, hm⟩ | ⟨_, _, _, hm⟩
  · exact ⟨m.tlbUsed, m.tlbOwner, hm⟩
  · exact ⟨_, _, hm⟩

end Requests

/-- A step of the handle `F`: the records of the other handles are untouched. -/
def OthersKept (m m' : MemoryState) (F : Handle) : Prop := ∀ G, G ≠ F → m'.file G = m.file G

section OthersKept

variable {c : MemoryConfig} {detached : Bool} {m : MemoryState} {F : Handle} {io : Io}

/-- A step that replaces the memory of its handle. -/
theorem othersKept_setFile (f : FileMemory) : OthersKept m (m.setFile F f) F :=
  fun _ hG => MemoryState.setFile_of_ne hG f

/-- `ALLOCATE_DMA_BUF` touches its own handle. -/
theorem othersKept_allocateDmaBuf (hok : SlotsOk m.iatu.slots) (i : AllocateDmaBufIn)
    (env : DmaBufEnv) : OthersKept m (ttIoctlAllocateDmaBuf c detached m F io i env).mem F := by
  rcases ttIoctlAllocateDmaBuf_cases c detached F io hok i env with
    (hm | ⟨_, u', _, _, _, hm⟩) | ⟨_, b, u', hall⟩
  · rw [hm]
    exact fun _ _ => rfl
  · rw [hm]
    exact fun _ _ => rfl
  · rw [hall.mem]
    exact othersKept_setFile _

/-- `FREE_DMA_BUF_EX` touches its own handle. -/
theorem othersKept_freeDmaBufEx (i : FreeDmaBufExIn) :
    OthersKept m (ttIoctlFreeDmaBufEx detached m F io i).mem F := by
  rcases ttIoctlFreeDmaBufEx_cases detached m F io i with
    ⟨_, hm⟩ | ⟨_, b, _, _, _, hm⟩
  · rw [hm]
    exact fun _ _ => rfl
  · rw [hm]
    exact othersKept_setFile _

/-- `MAP` touches its own handle. -/
theorem othersKept_map (i : MapIn) (env : MapEnv) :
    OthersKept m (ttIoctlMap c m F io i env).mem F := by
  rcases ttIoctlMap_cases c m F io i env with hm | ⟨_, v, _, _, hm⟩
  · rw [hm]
    exact fun _ _ => rfl
  · rw [hm]
    exact othersKept_setFile _

/-- `UNMAP` touches its own handle. -/
theorem othersKept_unmapSection (userVa : ℕ) : OthersKept m (unmapSection m F userVa).2 F := by
  rcases unmapSection_cases (m := m) (F := F) userVa with hm | ⟨v, l, _, hm⟩
  · rw [hm]
    exact fun _ _ => rfl
  · rw [hm]
    exact othersKept_setFile _

/-- `PIN_PAGES` touches its own handle. -/
theorem othersKept_pinPages (hok : SlotsOk m.iatu.slots) (i : PinPagesIn) (env : PinEnv) :
    OthersKept m (ttIoctlPinPages c detached m F io i env).mem F := by
  rcases ttIoctlPinPages_cases c detached F io hok i env with
    (hm | ⟨_, u', _, _, _, hm⟩) | ⟨_, p, target, u', hpin⟩
  · rw [hm]
    exact fun _ _ => rfl
  · rw [hm]
    exact fun _ _ => rfl
  · rw [hpin.mem]
    exact othersKept_setFile _

/-- `UNPIN_PAGES` touches its own handle. -/
theorem othersKept_unpinSection (i : UnpinPagesIn) : OthersKept m (unpinSection m F i).2 F := by
  rcases unpinSection_cases (m := m) (F := F) i with hm | ⟨p, l, _, hm⟩
  · rw [hm]
    exact fun _ _ => rfl
  · rw [hm]
    exact othersKept_setFile _

end OthersKept

/-- `UNMAP` leaves what its section leaves, or nothing happened. -/
theorem ttIoctlUnmap_mem (m : MemoryState) (F : Handle) (io : Io) (userVa reserved : ℕ) :
    (ttIoctlUnmap m F io userVa reserved).mem = m ∨
      (ttIoctlUnmap m F io userVa reserved).mem = (unmapSection m F userVa).2 := by
  unfold ttIoctlUnmap
  split
  · exact .inl rfl
  · right
    cases hsec : unmapSection m F userVa with
    | mk found m' => cases found <;> rfl

/-- `UNPIN_PAGES` leaves what its section and the teardown leave, or nothing happened. -/
theorem ttIoctlUnpinPages_mem (detached : Bool) (m : MemoryState) (F : Handle) (io : Io)
    (i : UnpinPagesIn) :
    (ttIoctlUnpinPages detached m F io i).mem = m ∨
      ∃ p, (unpinSection m F i).1 = some p ∧
        (ttIoctlUnpinPages detached m F io i).mem =
          ttDestroyPinning detached (unpinSection m F i).2 p := by
  unfold ttIoctlUnpinPages
  split
  · exact .inl rfl
  · rcases unpinSection_cases (m := m) (F := F) i with hm | ⟨p, l, _, hm⟩
    · rw [hm]
      exact .inl rfl
    · rw [hm]
      exact .inr ⟨p, rfl, rfl⟩

/-! ## The pool of windows -/

section Windows

variable {m : MemoryState}

/-- `ALLOCATE_DMA_BUF` leaves the arrays alone. -/
theorem ttIoctlAllocateDmaBuf_windows (c : MemoryConfig) (detached : Bool) (F : Handle) (io : Io)
    (hok : SlotsOk m.iatu.slots) (i : AllocateDmaBufIn) (env : DmaBufEnv) :
    (ttIoctlAllocateDmaBuf c detached m F io i env).mem.tlbUsed = m.tlbUsed ∧
      (ttIoctlAllocateDmaBuf c detached m F io i env).mem.tlbOwner = m.tlbOwner := by
  rcases ttIoctlAllocateDmaBuf_cases c detached F io hok i env with
    (hm | ⟨_, u', _, _, _, hm⟩) | ⟨_, b, u', hall⟩
  · rw [hm]
    exact ⟨rfl, rfl⟩
  · rw [hm]
    exact ⟨rfl, rfl⟩
  · rw [hall.mem]
    exact ⟨rfl, rfl⟩

/-- `FREE_DMA_BUF_EX` leaves the arrays alone. -/
theorem ttIoctlFreeDmaBufEx_windows (detached : Bool) (m : MemoryState) (F : Handle) (io : Io)
    (i : FreeDmaBufExIn) :
    (ttIoctlFreeDmaBufEx detached m F io i).mem.tlbUsed = m.tlbUsed ∧
      (ttIoctlFreeDmaBufEx detached m F io i).mem.tlbOwner = m.tlbOwner := by
  rcases ttIoctlFreeDmaBufEx_cases detached m F io i with ⟨_, hm⟩ | ⟨_, b, _, _, _, hm⟩
  · rw [hm]
    exact ⟨rfl, rfl⟩
  · rw [hm]
    exact ⟨rfl, rfl⟩

/-- `MAP` leaves the arrays alone. -/
theorem ttIoctlMap_windows (c : MemoryConfig) (m : MemoryState) (F : Handle) (io : Io) (i : MapIn)
    (env : MapEnv) :
    (ttIoctlMap c m F io i env).mem.tlbUsed = m.tlbUsed ∧
      (ttIoctlMap c m F io i env).mem.tlbOwner = m.tlbOwner := by
  rcases ttIoctlMap_cases c m F io i env with hm | ⟨_, v, _, _, hm⟩
  · rw [hm]
    exact ⟨rfl, rfl⟩
  · rw [hm]
    exact ⟨rfl, rfl⟩

/-- `UNMAP` leaves the arrays alone. -/
theorem ttIoctlUnmap_windows (m : MemoryState) (F : Handle) (io : Io) (userVa reserved : ℕ) :
    (ttIoctlUnmap m F io userVa reserved).mem.tlbUsed = m.tlbUsed ∧
      (ttIoctlUnmap m F io userVa reserved).mem.tlbOwner = m.tlbOwner := by
  rcases ttIoctlUnmap_mem m F io userVa reserved with hm | hm
  · rw [hm]
    exact ⟨rfl, rfl⟩
  · rw [hm]
    rcases unmapSection_cases (m := m) (F := F) userVa with hsec | ⟨v, l, _, hsec⟩
    · rw [hsec]
      exact ⟨rfl, rfl⟩
    · rw [hsec]
      exact ⟨rfl, rfl⟩

/-- `PIN_PAGES` leaves the arrays alone. -/
theorem ttIoctlPinPages_windows (c : MemoryConfig) (detached : Bool) (F : Handle) (io : Io)
    (hok : SlotsOk m.iatu.slots) (i : PinPagesIn) (env : PinEnv) :
    (ttIoctlPinPages c detached m F io i env).mem.tlbUsed = m.tlbUsed ∧
      (ttIoctlPinPages c detached m F io i env).mem.tlbOwner = m.tlbOwner := by
  rcases ttIoctlPinPages_cases c detached F io hok i env with
    (hm | ⟨_, u', _, _, _, hm⟩) | ⟨_, p, target, u', hpin⟩
  · rw [hm]
    exact ⟨rfl, rfl⟩
  · rw [hm]
    exact ⟨rfl, rfl⟩
  · rw [hpin.mem]
    exact ⟨rfl, rfl⟩

/-- `UNPIN_PAGES` leaves the arrays alone. -/
theorem ttIoctlUnpinPages_windows (detached : Bool) (m : MemoryState) (F : Handle) (io : Io)
    (i : UnpinPagesIn) :
    (ttIoctlUnpinPages detached m F io i).mem.tlbUsed = m.tlbUsed ∧
      (ttIoctlUnpinPages detached m F io i).mem.tlbOwner = m.tlbOwner := by
  rcases ttIoctlUnpinPages_mem detached m F io i with hm | ⟨p, _, hm⟩
  · rw [hm]
    exact ⟨rfl, rfl⟩
  · rw [hm]
    rcases unpinSection_cases (m := m) (F := F) i with hs | ⟨q, l, _, hs⟩
    · rw [hs]
      exact ⟨rfl, rfl⟩
    · rw [hs]
      exact ⟨rfl, rfl⟩

end Windows

end TtKmd
