import TtKmd.Memory.Tokens

/-!
# What `MAP` accepts

`QUERY_MAPPINGS` lists the BARs, and `MAP` decodes a token and a length to a physical
range. The two are written separately. Here the validation of `MAP` is put side by
side with the list: on BAR tokens it accepts the page-aligned ranges inside a listed
mapping. Every accepted range stays inside one BAR or one buffer of the caller, and
the 64-bit arithmetic on the way does not wrap.

The header of the interface promises that a token plus any byte offset inside its
entity can be mapped. The validation keeps this promise for BAR tokens and breaks it
for windows, for buffers of more than one page and for lengths of 4 GiB.
-/

namespace TtKmd

/-- `tenstorrent_mapping`. -/
structure Mapping where
  /-- `mapping_id`. -/
  mappingId : ℕ
  /-- `mapping_base`. -/
  mappingBase : ℕ
  /-- `mapping_size`. -/
  mappingSize : ℕ
  deriving DecidableEq

/-- The table of `TtIoctlQueryMappings`: a BAR and the id of its uncached mapping. -/
def mappingTable : List (ℕ × ℕ) := [(0, 1), (2, 3), (4, 5)]

/-- The two mappings of one BAR, if it exists. -/
def barMappings (c : MemoryConfig) (row : ℕ × ℕ) : List Mapping :=
  if c.barLength row.1 = 0 then []
  else
    [⟨row.2, (row.2 - 1) * 2 ^ 36, c.barLength row.1⟩,
      ⟨row.2 + 1, row.2 * 2 ^ 36, c.barLength row.1⟩]

/-- The valid mappings of the device, in the order of the table. -/
def validMappings (c : MemoryConfig) : List Mapping := mappingTable.flatMap (barMappings c)

/-- `TtIoctlQueryMappings`: the status and the declared slots. -/
def ttIoctlQueryMappings (c : MemoryConfig) (io : Io) (outputMappingCount : ℕ) :
    NtStatus × List Mapping :=
  let declaredBytes := outputMappingCount * 24
  if ttCopyInBuffer io 8 ≠ .success then (.accessViolation, [])
  else if declaredBytes > maxUlong then (.accessViolation, [])
  else if io.output < 8 ∨ io.output - 8 < declaredBytes then (.accessViolation, [])
  else
    (.success, (validMappings c).take outputMappingCount ++
      List.replicate (outputMappingCount - (validMappings c).length) ⟨0, 0, 0⟩)

/-- A mapping some `QUERY_MAPPINGS` reports; the id 0 is `TENSTORRENT_MAPPING_UNUSED`. -/
def Reported (c : MemoryConfig) (e : Mapping) : Prop :=
  e.mappingId ≠ 0 ∧
    ∃ io count slots, ttIoctlQueryMappings c io count = (.success, slots) ∧ e ∈ slots

/-- The BAR of a mapping id. -/
def mappingBar (mappingId : ℕ) : ℕ := (mappingId - 1) / 2 * 2

/-- The caching kind of a mapping id. -/
def mappingCaching (mappingId : ℕ) : CacheType :=
  if mappingId % 2 = 0 then .writeCombined else .nonCached

/-- The valid mappings, by BAR. -/
theorem mem_validMappings {c : MemoryConfig} {e : Mapping} :
    e ∈ validMappings c ↔ 1 ≤ e.mappingId ∧ e.mappingId ≤ 6 ∧
      c.barLength (mappingBar e.mappingId) ≠ 0 ∧ e.mappingBase = (e.mappingId - 1) * 2 ^ 36 ∧
      e.mappingSize = c.barLength (mappingBar e.mappingId) := by
  obtain ⟨id, base, size⟩ := e
  have hrow : ∀ row : ℕ × ℕ, (⟨id, base, size⟩ : Mapping) ∈ barMappings c row ↔
      c.barLength row.1 ≠ 0 ∧ size = c.barLength row.1 ∧
        ((id = row.2 ∧ base = (row.2 - 1) * 2 ^ 36) ∨
          (id = row.2 + 1 ∧ base = row.2 * 2 ^ 36)) := by
    intro row
    unfold barMappings
    by_cases hlen : c.barLength row.1 = 0
    · simp [hlen]
    · simp only [if_neg hlen, List.mem_cons, Mapping.mk.injEq, List.not_mem_nil, or_false]
      constructor
      · rintro (⟨hid, hbase, hsize⟩ | ⟨hid, hbase, hsize⟩)
        · exact ⟨hlen, hsize, .inl ⟨hid, hbase⟩⟩
        · exact ⟨hlen, hsize, .inr ⟨hid, hbase⟩⟩
      · rintro ⟨-, hsize, ⟨hid, hbase⟩ | ⟨hid, hbase⟩⟩
        · exact .inl ⟨hid, hbase, hsize⟩
        · exact .inr ⟨hid, hbase, hsize⟩
  unfold validMappings mappingTable
  simp only [List.flatMap_cons, List.flatMap_nil, List.append_nil, List.mem_append, hrow]
  constructor
  · rintro (⟨hlen, hsize, h⟩ | ⟨hlen, hsize, h⟩ | ⟨hlen, hsize, h⟩)
    all_goals
      rcases h with ⟨hid, hbase⟩ | ⟨hid, hbase⟩
      all_goals
        subst hid
        exact ⟨by omega, by omega, hlen, by omega, hsize⟩
  · rintro ⟨hlo, hhi, hlen, hbase, hsize⟩
    obtain h | h | h | h | h | h :
        id = 1 ∨ id = 2 ∨ id = 3 ∨ id = 4 ∨ id = 5 ∨ id = 6 := by omega
    · exact .inl ⟨by rwa [h] at hlen, by rwa [h] at hsize, .inl ⟨h, by rw [hbase, h]⟩⟩
    · exact .inl ⟨by rwa [h] at hlen, by rwa [h] at hsize, .inr ⟨h, by rw [hbase, h]⟩⟩
    · exact .inr (.inl ⟨by rwa [h] at hlen, by rwa [h] at hsize, .inl ⟨h, by rw [hbase, h]⟩⟩)
    · exact .inr (.inl ⟨by rwa [h] at hlen, by rwa [h] at hsize, .inr ⟨h, by rw [hbase, h]⟩⟩)
    · exact .inr (.inr ⟨by rwa [h] at hlen, by rwa [h] at hsize, .inl ⟨h, by rw [hbase, h]⟩⟩)
    · exact .inr (.inr ⟨by rwa [h] at hlen, by rwa [h] at hsize, .inr ⟨h, by rw [hbase, h]⟩⟩)

/-- `QUERY_MAPPINGS` reports the valid mappings. -/
theorem reported_iff {c : MemoryConfig} {e : Mapping} : Reported c e ↔ e ∈ validMappings c := by
  constructor
  · rintro ⟨hid, io, count, slots, hquery, he⟩
    simp only [ttIoctlQueryMappings] at hquery
    split at hquery
    · cases hquery
    split at hquery
    · cases hquery
    split at hquery
    · cases hquery
    cases hquery
    rcases List.mem_append.mp he with he | he
    · exact List.mem_of_mem_take he
    · rw [List.eq_of_mem_replicate he] at hid
      exact absurd rfl hid
  · intro he
    have hvalid := mem_validMappings.mp he
    refine ⟨by omega, ⟨8, 8 + 6 * 24⟩, 6, _, rfl, List.mem_append_left _ ?_⟩
    have hlength : (validMappings c).length ≤ 6 := by
      have hrow : ∀ row, (barMappings c row).length ≤ 2 := by
        intro row
        unfold barMappings
        split <;> simp
      have h0 := hrow (0, 1)
      have h2 := hrow (2, 3)
      have h4 := hrow (4, 5)
      unfold validMappings mappingTable
      simp only [List.flatMap_cons, List.flatMap_nil, List.length_append, List.length_nil]
      omega
    rw [List.take_of_length_le hlength]
    exact he

/-- What `TtIoctlMap` validates before it builds a view. -/
def mapValidate (c : MemoryConfig) (m : MemoryState) (F : Handle) (i : MapIn) :
    Except NtStatus MapTarget :=
  if i.length = 0 ∨ i.length % pageSize ≠ 0 ∨ i.mmapOffset % pageSize ≠ 0 ∨
      i.length > maxUlong then
    .error .invalidParameter
  else ttResolveMapTarget c m F i.mmapOffset i.length

/-- What `TtIoctlMap` does with a resolved target. -/
def mapView (m : MemoryState) (F : Handle) (io : Io) (i : MapIn) (env : MapEnv)
    (target : MapTarget) : Reply ℕ :=
  if !env.pool ∨ !env.mdl then .fail m .insufficientResources
  else
    match env.userVa with
    | none => .fail m .insufficientResources
    | some userVa =>
        if ttCompleteSizedOutBuffer io 16 8 ≠ .success then .fail m .accessViolation
        else
          ⟨.success, some userVa, m.setFile F { m.file F with
            mappings := (m.file F).mappings ++
              [⟨userVa, i.length, target.physical, target.tlbId,
                decide (i.mmapOffset ≥ mmapOffsetDmaBuf), target.dmaBuf, env.process⟩] }⟩

/-- `MAP` validates and then builds the view of what the token resolves to. -/
theorem ttIoctlMap_eq (c : MemoryConfig) (m : MemoryState) (F : Handle) (io : Io) (i : MapIn)
    (env : MapEnv) :
    ttIoctlMap c m F io i env =
      if ttCopyInBuffer io 16 ≠ .success then .fail m .accessViolation
      else
        match mapValidate c m F i with
        | .error status => .fail m status
        | .ok target => mapView m F io i env target := by
  unfold ttIoctlMap mapValidate
  split
  · rfl
  split
  · rfl
  · rfl

/-- A `UINT64` addition that reports a wrap. -/
def checkedAdd (a b : ℕ) : Option ℕ := if a + b < 2 ^ 64 then some (a + b) else none

/-- A `UINT64` subtraction that reports a wrap. -/
def checkedSub (a b : ℕ) : Option ℕ := if b ≤ a then some (a - b) else none

/-- A cast to 32 bits that reports a truncation. -/
def checkedCast (a : ℕ) : Option ℕ := if a < 2 ^ 32 then some a else none

/-- The DMA-buffer branch of `TtResolveMapTarget` in checked arithmetic. -/
def resolveDmaBufChecked (f : FileMemory) (mmapOffset length : ℕ) :
    Option (Except NtStatus MapTarget) := do
  let rel ← checkedSub mmapOffset mmapOffsetDmaBuf
  let index := rel / 2 ^ 32
  if rel % 2 ^ 32 ≠ 0 ∨ index ≥ maxDmaBufs then return .error .invalidParameter
  match f.dmaBufs index with
  | none => return .error .invalidParameter
  | some b =>
      if length > b.size then return .error .invalidParameter
      return .ok ⟨b.physical, .cached, none, some b.id⟩

/-- The BAR branch of `TtResolveMapTarget` in checked arithmetic. -/
def resolveBarChecked (c : MemoryConfig) (mmapOffset length : ℕ) :
    Option (Except NtStatus MapTarget) := do
  let region ← checkedCast (mmapOffset / 2 ^ 36)
  let offset := mmapOffset % 2 ^ 36
  let bar := region / 2 * 2
  if c.barLength bar = 0 ∨ offset ≥ c.barLength bar then return .error .invalidParameter
  let rest ← checkedSub (c.barLength bar) offset
  if length > rest then return .error .invalidParameter
  let physical ← checkedAdd (c.barBase bar) offset
  return .ok ⟨physical, if region % 2 = 1 then .writeCombined else .nonCached, none, none⟩

/-- The window a TLB token names, in checked arithmetic. -/
def decodeTlbChecked (encoded length : ℕ) : Option (Option (ℕ × ℕ × ℕ)) :=
  if encoded < 2 ^ 29 then do
    let id ← checkedCast (encoded / kernelTlbLen)
    if encoded % kernelTlbLen ≠ 0 ∨ length > kernelTlbLen then return none
    return some (0, encoded, id)
  else do
    let barOffset ← checkedSub encoded (2 ^ 29)
    let index ← checkedCast (barOffset / 2 ^ 32)
    let id ← checkedCast (tlb2mCount + index)
    if barOffset % 2 ^ 32 ≠ 0 ∨ length > 2 ^ 32 then return none
    return some (4, barOffset, id)

/-- The TLB branch of `TtResolveMapTarget` in checked arithmetic. -/
def resolveTlbChecked (c : MemoryConfig) (m : MemoryState) (F : Handle) (mmapOffset length : ℕ) :
    Option (Except NtStatus MapTarget) := do
  let wc := mmapOffset ≥ 7 * 2 ^ 36
  let encoded ← checkedSub mmapOffset (if wc then 7 * 2 ^ 36 else 6 * 2 ^ 36)
  match ← decodeTlbChecked encoded length with
  | none => return .error .invalidParameter
  | some (bar, barOffset, id) =>
      if id ≥ tlbTotal ∨ c.barLength bar = 0 then return .error .invalidParameter
      let last ← checkedAdd barOffset length
      if last > c.barLength bar then return .error .invalidParameter
      if !m.tlbUsed id ∨ m.tlbOwner id ≠ some F then return .error .accessDenied
      let physical ← checkedAdd (c.barBase bar) barOffset
      return .ok ⟨physical, if wc then .writeCombined else .nonCached, some id, none⟩

/-- `TtResolveMapTarget` in checked arithmetic: `none` is a wrap or a truncation. -/
def resolveChecked (c : MemoryConfig) (m : MemoryState) (F : Handle) (mmapOffset length : ℕ) :
    Option (Except NtStatus MapTarget) :=
  if mmapOffset ≥ mmapOffsetDmaBuf then resolveDmaBufChecked (m.file F) mmapOffset length
  else if mmapOffset < 6 * 2 ^ 36 then resolveBarChecked c mmapOffset length
  else if mmapOffset < 8 * 2 ^ 36 then resolveTlbChecked c m F mmapOffset length
  else some (.error .invalidParameter)

/-- A subtraction that does not wrap. -/
theorem checkedSub_of_le {a b : ℕ} (h : b ≤ a) : checkedSub a b = some (a - b) := if_pos h

/-- An addition that does not wrap. -/
theorem checkedAdd_of_lt {a b : ℕ} (h : a + b < 2 ^ 64) : checkedAdd a b = some (a + b) :=
  if_pos h

/-- A cast that does not truncate. -/
theorem checkedCast_of_lt {a : ℕ} (h : a < 2 ^ 32) : checkedCast a = some a := if_pos h

/-- The DMA-buffer branch does not wrap. -/
theorem resolveDmaBufChecked_eq {f : FileMemory} {mmapOffset length : ℕ}
    (hoff : mmapOffsetDmaBuf ≤ mmapOffset) :
    resolveDmaBufChecked f mmapOffset length = some (resolveDmaBuf f mmapOffset length) := by
  unfold resolveDmaBufChecked resolveDmaBuf
  rw [checkedSub_of_le hoff, Option.bind_eq_bind, Option.bind_some]
  generalize mmapOffset - mmapOffsetDmaBuf = rel
  by_cases hbad : rel % 2 ^ 32 ≠ 0 ∨ rel / 2 ^ 32 ≥ maxDmaBufs
  · rw [if_pos hbad, if_pos hbad]
    rfl
  rw [if_neg hbad, if_neg hbad]
  cases f.dmaBufs (rel / 2 ^ 32) with
  | none => rfl
  | some b =>
    by_cases hlength : length > b.size
    · simp [hlength]
    · simp [hlength]

/-- The BAR branch does not wrap when the BARs do not. -/
theorem resolveBarChecked_eq {c : MemoryConfig} {mmapOffset length : ℕ}
    (hbars : ∀ bar, c.barBase bar + c.barLength bar ≤ 2 ^ 64) (hoff : mmapOffset < 6 * 2 ^ 36) :
    resolveBarChecked c mmapOffset length = some (resolveBar c mmapOffset length) := by
  unfold resolveBarChecked resolveBar
  have hregion : mmapOffset / 2 ^ 36 < 2 ^ 32 := by omega
  rw [checkedCast_of_lt hregion, Option.bind_eq_bind, Option.bind_some]
  generalize mmapOffset / 2 ^ 36 = region
  generalize mmapOffset % 2 ^ 36 = offset
  dsimp only
  have hbar := hbars (region / 2 * 2)
  by_cases hout : c.barLength (region / 2 * 2) = 0 ∨ offset ≥ c.barLength (region / 2 * 2)
  · rw [if_pos hout, if_pos (by omega)]
    rfl
  rw [if_neg hout, checkedSub_of_le (by omega), Option.bind_some]
  by_cases hlong : length > c.barLength (region / 2 * 2) - offset
  · rw [if_pos hlong, if_pos (by omega)]
    rfl
  · have hin : ¬ (c.barLength (region / 2 * 2) = 0 ∨ offset ≥ c.barLength (region / 2 * 2) ∨
        length > c.barLength (region / 2 * 2) - offset) := by omega
    rw [if_neg hlong, if_neg hin, checkedAdd_of_lt (by omega)]
    rfl

/-- The decoding of a window does not wrap. -/
theorem decodeTlbChecked_eq {encoded length : ℕ} (henc : encoded < 2 ^ 36) :
    decodeTlbChecked encoded length = some (decodeTlb encoded length) := by
  unfold decodeTlbChecked decodeTlb kernelTlbLen tlb2mCount
  by_cases hsmall : encoded < 2 ^ 29
  · rw [if_pos hsmall, if_pos hsmall, checkedCast_of_lt (by omega), Option.bind_eq_bind,
      Option.bind_some]
    by_cases hbad : encoded % 2 ^ 21 ≠ 0 ∨ length > 2 ^ 21
    · rw [if_pos hbad, if_pos hbad]
      rfl
    · rw [if_neg hbad, if_neg hbad]
      rfl
  · rw [if_neg hsmall, if_neg hsmall, checkedSub_of_le (by omega), Option.bind_eq_bind,
      Option.bind_some, checkedCast_of_lt (by omega), Option.bind_some,
      checkedCast_of_lt (by omega), Option.bind_some]
    dsimp only
    by_cases hbad : (encoded - 2 ^ 29) % 2 ^ 32 ≠ 0 ∨ length > 2 ^ 32
    · rw [if_pos hbad, if_pos hbad]
      rfl
    · rw [if_neg hbad, if_neg hbad]
      rfl

/-- The encoded part of a TLB token has 36 bits. -/
theorem tlbEncoded_lt {mmapOffset : ℕ} (hhi : mmapOffset < 8 * 2 ^ 36) :
    tlbEncoded mmapOffset < 2 ^ 36 := by
  unfold tlbEncoded
  by_cases hwc : mmapOffset ≥ 7 * 2 ^ 36
  · rw [if_pos hwc]
    omega
  · rw [if_neg hwc]
    omega

/-- The TLB branch does not wrap when the BARs do not. -/
theorem resolveTlbChecked_eq {c : MemoryConfig} {m : MemoryState} {F : Handle}
    {mmapOffset length : ℕ} (hbars : ∀ bar, c.barBase bar + c.barLength bar ≤ 2 ^ 64)
    (hlo : 6 * 2 ^ 36 ≤ mmapOffset) (hhi : mmapOffset < 8 * 2 ^ 36) (hpos : length ≠ 0)
    (hlen : length < 2 ^ 32) :
    resolveTlbChecked c m F mmapOffset length = some (resolveTlb c m F mmapOffset length) := by
  have hbase : (if mmapOffset ≥ 7 * 2 ^ 36 then 7 * 2 ^ 36 else 6 * 2 ^ 36) ≤ mmapOffset := by
    split <;> omega
  have henc := tlbEncoded_lt hhi
  unfold tlbEncoded at henc
  unfold resolveTlbChecked resolveTlb
  dsimp only
  rw [checkedSub_of_le hbase, Option.bind_eq_bind, Option.bind_some, decodeTlbChecked_eq henc,
    Option.bind_eq_bind, Option.bind_some]
  generalize (mmapOffset - if mmapOffset ≥ 7 * 2 ^ 36 then 7 * 2 ^ 36 else 6 * 2 ^ 36) =
    encoded at henc
  cases hdecode : decodeTlb encoded length with
  | none => rfl
  | some window =>
    obtain ⟨bar, barOffset, id⟩ := window
    have hoffset : barOffset < 2 ^ 36 := by
      rcases decodeTlb_eq_some.mp hdecode with ⟨-, -, -, -, ho, -⟩ | ⟨-, -, -, -, ho, -⟩ <;> omega
    have hbar := hbars bar
    dsimp only
    by_cases hout : id ≥ tlbTotal ∨ c.barLength bar = 0
    · have hbad : id ≥ tlbTotal ∨ c.barLength bar = 0 ∨ barOffset + length > c.barLength bar := by
        omega
      rw [if_pos hout, if_pos hbad]
      rfl
    rw [if_neg hout, checkedAdd_of_lt (by omega), Option.bind_some]
    by_cases hlong : barOffset + length > c.barLength bar
    · rw [if_pos hlong, if_pos (.inr (.inr hlong))]
      rfl
    have hin : ¬ (id ≥ tlbTotal ∨ c.barLength bar = 0 ∨ barOffset + length > c.barLength bar) := by
      omega
    rw [if_neg hlong, if_neg hin]
    by_cases howner : (!m.tlbUsed id) = true ∨ m.tlbOwner id ≠ some F
    · rw [if_pos howner, if_pos howner]
      rfl
    · rw [if_neg howner, if_neg howner, checkedAdd_of_lt (by omega)]
      rfl

/-- `TtResolveMapTarget` does not wrap on the lengths `MAP` passes to it. -/
theorem resolveChecked_eq {c : MemoryConfig} {m : MemoryState} {F : Handle}
    {mmapOffset length : ℕ} (hbars : ∀ bar, c.barBase bar + c.barLength bar ≤ 2 ^ 64)
    (hpos : length ≠ 0) (hlen : length < 2 ^ 32) :
    resolveChecked c m F mmapOffset length = some (ttResolveMapTarget c m F mmapOffset length) := by
  unfold resolveChecked ttResolveMapTarget
  by_cases hdma : mmapOffset ≥ mmapOffsetDmaBuf
  · rw [if_pos hdma, if_pos hdma]
    exact resolveDmaBufChecked_eq hdma
  rw [if_neg hdma, if_neg hdma]
  by_cases hregion : mmapOffset < 6 * 2 ^ 36
  · rw [if_pos hregion, if_pos hregion]
    exact resolveBarChecked_eq hbars hregion
  rw [if_neg hregion, if_neg hregion]
  by_cases htlb : mmapOffset < 8 * 2 ^ 36
  · rw [if_pos htlb, if_pos htlb]
    exact resolveTlbChecked_eq hbars (by omega) htlb hpos hlen
  · rw [if_neg htlb, if_neg htlb]

/-- `BYTES_TO_PAGES`. -/
def bytesToPages (size : ℕ) : ℕ := size / pageSize + if size % pageSize ≠ 0 then 1 else 0

/-- The MDL of a physical range: the byte count it is allocated for and its frames. -/
structure PhysicalMdl where
  /-- The `Length` argument of `IoAllocateMdl`. -/
  byteCount : ℕ
  /-- The frame array. -/
  pfns : List ℕ

/-- `TtBuildPhysicalMdl`. The shift of the signed address copies its sign. -/
def ttBuildPhysicalMdl (physical length : ℕ) : PhysicalMdl :=
  let pageCount := u32 (bytesToPages length)
  let basePfn := if physical < 2 ^ 63 then physical / pageSize
    else physical / pageSize + (2 ^ 64 - 2 ^ 52)
  ⟨u32 length, (List.range pageCount).map fun i => u64 (basePfn + i)⟩

/-- The lengths and tokens `MAP` passes on, and what it makes of them. -/
theorem mapValidate_eq_ok {c : MemoryConfig} {m : MemoryState} {F : Handle} {i : MapIn}
    {target : MapTarget} :
    mapValidate c m F i = .ok target ↔
      (i.length ≠ 0 ∧ i.length % pageSize = 0 ∧ i.mmapOffset % pageSize = 0 ∧
        i.length < 2 ^ 32) ∧ ttResolveMapTarget c m F i.mmapOffset i.length = .ok target := by
  unfold mapValidate
  by_cases hbad : i.length = 0 ∨ i.length % pageSize ≠ 0 ∨ i.mmapOffset % pageSize ≠ 0 ∨
      i.length > maxUlong
  · rw [if_pos hbad]
    unfold maxUlong at hbad
    constructor
    · intro h
      cases h
    · omega
  · rw [if_neg hbad]
    unfold maxUlong at hbad
    constructor
    · intro h
      exact ⟨by omega, h⟩
    · intro h
      exact h.2

/-- The resolved range lies inside a BAR, or inside the buffer of the caller that the
token names. -/
def RangeConfined (c : MemoryConfig) (m : MemoryState) (F : Handle) (i : MapIn)
    (target : MapTarget) : Prop :=
  (∃ bar, c.barBase bar ≤ target.physical ∧
      target.physical + i.length ≤ c.barBase bar + c.barLength bar) ∨
    ∃ index b, index < maxDmaBufs ∧ i.mmapOffset = mmapOffsetDmaBuf + index * 2 ^ 32 ∧
      (m.file F).dmaBufs index = some b ∧ target.dmaBuf = some b.id ∧
      b.physical ≤ target.physical ∧ target.physical + i.length ≤ b.physical + b.size

/-- What `TtResolveMapTarget` resolves is confined. -/
theorem rangeConfined_of_resolve {c : MemoryConfig} {m : MemoryState} {F : Handle} {i : MapIn}
    {target : MapTarget} (h : ttResolveMapTarget c m F i.mmapOffset i.length = .ok target) :
    RangeConfined c m F i target := by
  unfold ttResolveMapTarget at h
  by_cases hdma : i.mmapOffset ≥ mmapOffsetDmaBuf
  · rw [if_pos hdma, resolveDmaBuf_eq_ok] at h
    obtain ⟨haligned, hindex, b, hb, hlength, rfl⟩ := h
    exact .inr ⟨_, b, hindex, by omega, hb, rfl, le_rfl, Nat.add_le_add_left hlength _⟩
  rw [if_neg hdma] at h
  by_cases hregion : i.mmapOffset < 6 * 2 ^ 36
  · rw [if_pos hregion, resolveBar_eq_ok] at h
    obtain ⟨-, hfit, rfl⟩ := h
    exact .inl ⟨_, Nat.le_add_right _ _, by rw [Nat.add_assoc]; exact Nat.add_le_add_left hfit _⟩
  rw [if_neg hregion] at h
  by_cases htlb : i.mmapOffset < 8 * 2 ^ 36
  · rw [if_pos htlb, resolveTlb_eq_ok] at h
    obtain ⟨bar, barOffset, id, -, -, -, hfit, -, -, rfl⟩ := h
    exact .inl ⟨bar, Nat.le_add_right _ _, by rw [Nat.add_assoc]; exact Nat.add_le_add_left hfit _⟩
  · rw [if_neg htlb] at h
    cases h

/-- A whole number of pages has as many frames, and no cast truncates their number. -/
theorem ttBuildPhysicalMdl_pages {length : ℕ} (physical : ℕ) (hpages : length % pageSize = 0)
    (hlen : length < 2 ^ 32) :
    (ttBuildPhysicalMdl physical length).byteCount = length ∧
      (ttBuildPhysicalMdl physical length).pfns.length = length / pageSize := by
  have hcount : bytesToPages length = length / pageSize := by
    unfold bytesToPages
    rw [if_neg (by omega), Nat.add_zero]
  have hlt : length / pageSize < 2 ^ 32 := lt_of_le_of_lt (Nat.div_le_self _ _) hlen
  unfold ttBuildPhysicalMdl u32
  rw [hcount, Nat.mod_eq_of_lt hlt, List.length_map, List.length_range]
  exact ⟨Nat.mod_eq_of_lt hlen, rfl⟩

/-- A page-aligned range of less than 4 GiB inside a reported mapping, and the target
at the same offset of its BAR and with its caching kind. -/
def InReported (c : MemoryConfig) (i : MapIn) (target : MapTarget) : Prop :=
  (i.length ≠ 0 ∧ i.length % pageSize = 0 ∧ i.mmapOffset % pageSize = 0 ∧ i.length < 2 ^ 32) ∧
    ∃ e, Reported c e ∧ e.mappingBase ≤ i.mmapOffset ∧
      i.mmapOffset + i.length ≤ e.mappingBase + e.mappingSize ∧
      target = ⟨c.barBase (mappingBar e.mappingId) + (i.mmapOffset - e.mappingBase),
        mappingCaching e.mappingId, none, none⟩

/-- An accepted BAR request lies inside a reported mapping. -/
theorem inReported_of_resolveBar {c : MemoryConfig} {i : MapIn} {target : MapTarget}
    (hi : i.length ≠ 0 ∧ i.length % pageSize = 0 ∧ i.mmapOffset % pageSize = 0 ∧
      i.length < 2 ^ 32)
    (hoff : i.mmapOffset < 6 * 2 ^ 36)
    (h : resolveBar c i.mmapOffset i.length = .ok target) : InReported c i target := by
  obtain ⟨hlt, hfit, rfl⟩ := resolveBar_eq_ok.mp h
  generalize hregion : i.mmapOffset / 2 ^ 36 = region at *
  have hbar : mappingBar (region + 1) = region / 2 * 2 := rfl
  refine ⟨hi, ⟨region + 1, region * 2 ^ 36, c.barLength (region / 2 * 2)⟩, ?_, ?_, ?_, ?_⟩
  · rw [reported_iff, mem_validMappings]
    dsimp only
    rw [hbar]
    exact ⟨by omega, by omega, by omega, rfl, rfl⟩
  · dsimp only
    omega
  · dsimp only
    omega
  · dsimp only
    have hcaching : mappingCaching (region + 1) =
        if region % 2 = 1 then .writeCombined else .nonCached := by
      unfold mappingCaching
      by_cases hodd : region % 2 = 1
      · rw [if_pos hodd, if_pos (by omega)]
      · rw [if_neg hodd, if_neg (by omega)]
    have hoffset : i.mmapOffset % 2 ^ 36 = i.mmapOffset - region * 2 ^ 36 := by omega
    rw [hbar, hcaching, hoffset]

/-- A range inside a reported mapping of at most 64 GiB is accepted. -/
theorem resolveBar_of_inReported {c : MemoryConfig} {i : MapIn} {target : MapTarget}
    (hbars : ∀ bar, c.barLength bar ≤ 2 ^ 36) (h : InReported c i target) :
    i.mmapOffset < 6 * 2 ^ 36 ∧ resolveBar c i.mmapOffset i.length = .ok target := by
  obtain ⟨⟨hpos, -, -, -⟩, e, he, hlo, hhi, rfl⟩ := h
  obtain ⟨hid, hid', -, hbase, hsize⟩ := mem_validMappings.mp (reported_iff.mp he)
  have hbound := hbars (mappingBar e.mappingId)
  rw [hsize] at hhi
  have hregion : i.mmapOffset / 2 ^ 36 = e.mappingId - 1 := by omega
  have hoffset : i.mmapOffset % 2 ^ 36 = i.mmapOffset - e.mappingBase := by omega
  refine ⟨by omega, resolveBar_eq_ok.mpr ?_⟩
  rw [hregion, hoffset]
  have hbar : (e.mappingId - 1) / 2 * 2 = mappingBar e.mappingId := rfl
  have hcaching : mappingCaching e.mappingId =
      if (e.mappingId - 1) % 2 = 1 then .writeCombined else .nonCached := by
    unfold mappingCaching
    by_cases heven : e.mappingId % 2 = 0
    · rw [if_pos heven, if_pos (by omega)]
    · rw [if_neg heven, if_neg (by omega)]
  rw [hbar, hcaching]
  exact ⟨by omega, by omega, rfl⟩

/-- An accepted range is confined, computed without a wrap, and described by an MDL of
as many frames as it has pages; and on BAR tokens the accepted ranges are those inside
a reported mapping. -/
theorem map_confined {c : MemoryConfig} (m : MemoryState) (F : Handle)
    (hbars : ∀ bar, c.barBase bar + c.barLength bar ≤ 2 ^ 64) (i : MapIn) (target : MapTarget) :
    (mapValidate c m F i = .ok target →
      RangeConfined c m F i target ∧
        resolveChecked c m F i.mmapOffset i.length = some (.ok target) ∧
        (ttBuildPhysicalMdl target.physical i.length).byteCount = i.length ∧
        (ttBuildPhysicalMdl target.physical i.length).pfns.length = i.length / pageSize) ∧
    ((∀ bar, c.barLength bar ≤ 2 ^ 36) →
      (i.mmapOffset < 6 * 2 ^ 36 ∧ mapValidate c m F i = .ok target ↔ InReported c i target)) := by
  constructor
  · intro h
    obtain ⟨⟨hpos, hpages, -, hlen⟩, hresolve⟩ := mapValidate_eq_ok.mp h
    refine ⟨rangeConfined_of_resolve hresolve, ?_, ttBuildPhysicalMdl_pages _ hpages hlen⟩
    rw [resolveChecked_eq hbars hpos hlen, hresolve]
  · intro hlengths
    have hbranch (hoff : i.mmapOffset < 6 * 2 ^ 36) :
        ttResolveMapTarget c m F i.mmapOffset i.length =
          resolveBar c i.mmapOffset i.length := by
      unfold ttResolveMapTarget mmapOffsetDmaBuf
      rw [if_neg (by omega), if_pos hoff]
    constructor
    · rintro ⟨hoff, h⟩
      obtain ⟨hi, hresolve⟩ := mapValidate_eq_ok.mp h
      rw [hbranch hoff] at hresolve
      exact inReported_of_resolveBar hi hoff hresolve
    · intro h
      obtain ⟨hoff, hresolve⟩ := resolveBar_of_inReported hlengths h
      exact ⟨hoff, mapValidate_eq_ok.mpr ⟨h.1, by rw [hbranch hoff, hresolve]⟩⟩

/-- The BARs of the wide Blackhole do not wrap, and each fits its region. -/
theorem wideBlackhole_bars (bar : ℕ) :
    wideBlackhole.barBase bar + wideBlackhole.barLength bar ≤ 2 ^ 64 ∧
      wideBlackhole.barLength bar ≤ 2 ^ 36 := by
  unfold wideBlackhole
  dsimp only
  split_ifs <;> omega

/-- The whole of BAR 0 of the wide Blackhole can be mapped. -/
theorem map_confined_wholeBar :
    mapValidate wideBlackhole largeWindowHeld 0 ⟨0, 2 ^ 29⟩ = .ok ⟨2 ^ 39, .nonCached, none, none⟩ ∧
      RangeConfined wideBlackhole largeWindowHeld 0 ⟨0, 2 ^ 29⟩ ⟨2 ^ 39, .nonCached, none, none⟩ ∧
      InReported wideBlackhole ⟨0, 2 ^ 29⟩ ⟨2 ^ 39, .nonCached, none, none⟩ := by
  have haccept : mapValidate wideBlackhole largeWindowHeld 0 ⟨0, 2 ^ 29⟩ =
      .ok ⟨2 ^ 39, .nonCached, none, none⟩ := rfl
  have hmap := map_confined largeWindowHeld 0 (fun bar => (wideBlackhole_bars bar).1)
    ⟨0, 2 ^ 29⟩ ⟨2 ^ 39, .nonCached, none, none⟩
  exact ⟨haccept, (hmap.1 haccept).1,
    (hmap.2 fun bar => (wideBlackhole_bars bar).2).mp ⟨by decide, haccept⟩⟩

/-- The three kinds of tokens. -/
inductive TokenKind
  /-- `QUERY_MAPPINGS.mapping_base`. -/
  | mapping
  /-- `ALLOCATE_DMA_BUF.mapping_offset`. -/
  | dmaBuf
  /-- `ALLOCATE_TLB.mmap_offset_uc` and `mmap_offset_wc`. -/
  | tlb
  deriving DecidableEq

/-- A token that was returned to the handle and names something the handle still has:
its kind, the token, and the physical base and the size of the BAR, the buffer or the
window. -/
inductive Granted (c : MemoryConfig) (m : MemoryState) (F : Handle) : TokenKind → ℕ → ℕ → ℕ → Prop
  /-- A reported mapping. -/
  | mapping {e : Mapping} (he : Reported c e) :
      Granted c m F .mapping e.mappingBase (c.barBase (mappingBar e.mappingId)) e.mappingSize
  /-- A buffer that is still in the slot it was allocated in. -/
  | dmaBuf {detached : Bool} {before after : MemoryState} {io : Io} {i : AllocateDmaBufIn}
      {env : DmaBufEnv} {out : AllocateDmaBufOut} {b : DmaBuf}
      (hreply : ttIoctlAllocateDmaBuf c detached before F io i env = ⟨.success, some out, after⟩)
      (hafter : (after.file F).dmaBufs i.bufIndex = some b)
      (hlive : (m.file F).dmaBufs i.bufIndex = some b) :
      Granted c m F .dmaBuf out.mappingOffset b.physical b.size
  /-- A window that the handle still holds. -/
  | tlb {before after : MemoryState} {io : Io} {size : ℕ} {out : AllocateTlbOut}
      {bar barOffset winSize token : ℕ}
      (hreply : ttIoctlAllocateTlb c before F io size = ⟨.success, some out, after⟩)
      (hd : ttTlbDescribe c out.id = some (bar, barOffset, winSize))
      (hused : m.tlbUsed out.id = true) (howner : m.tlbOwner out.id = some F)
      (htoken : token = out.mmapOffsetUc ∨ token = out.mmapOffsetWc) :
      Granted c m F .tlb token (c.barBase bar + barOffset) winSize

/-- A page-aligned range of whole pages inside an entity of a size. -/
structure PageRange (size offset length : ℕ) : Prop where
  /-- The offset is page-aligned. -/
  aligned : offset % pageSize = 0
  /-- The range is not empty. -/
  pos : length ≠ 0
  /-- The length is a number of pages. -/
  pages : length % pageSize = 0
  /-- The range ends inside the entity. -/
  inside : offset + length ≤ size

/-- `MAP` accepts the request and resolves it to a physical address. -/
def MapsTo (c : MemoryConfig) (m : MemoryState) (F : Handle) (mmapOffset length physical : ℕ) :
    Prop :=
  ∃ target, mapValidate c m F ⟨mmapOffset, length⟩ = .ok target ∧ target.physical = physical

/-- What the header promises of a token: every page range of its entity can be mapped. -/
def MapContract (c : MemoryConfig) (m : MemoryState) (F : Handle) (token base size : ℕ) : Prop :=
  ∀ offset length, PageRange size offset length →
    MapsTo c m F (token + offset) length (base + offset)

/-- The tokens for which the promise is kept: of a BAR below 4 GiB, or of a buffer of
one page. -/
def TokenKind.Uniform (size : ℕ) : TokenKind → Prop
  | .mapping => size < 2 ^ 32
  | .dmaBuf => size = pageSize
  | .tlb => False

/-- The buffer `ALLOCATE_DMA_BUF` returns: its slot, its size and its token. -/
theorem ttIoctlAllocateDmaBuf_token {c : MemoryConfig} {detached : Bool} {m after : MemoryState}
    {F : Handle} {io : Io} {i : AllocateDmaBufIn} {env : DmaBufEnv} {out : AllocateDmaBufOut}
    (h : ttIoctlAllocateDmaBuf c detached m F io i env = ⟨.success, some out, after⟩) :
    i.bufIndex < maxDmaBufs ∧
      (i.requestedSize ≠ 0 ∧ i.requestedSize % pageSize = 0 ∧ i.requestedSize ≤ maxDmaBufSize) ∧
      out.mappingOffset = mmapOffsetDmaBuf + i.bufIndex * 2 ^ 32 ∧
      ∃ b, (after.file F).dmaBufs i.bufIndex = some b ∧ b.size = i.requestedSize := by
  unfold ttIoctlAllocateDmaBuf at h
  split at h
  · cases h
  split at h
  · cases h
  split at h
  · cases h
  rename_i hindex
  split at h
  · cases h
  rename_i hsize
  split at h
  · cases h
  cases hreserve : ttDmaAccountReserve c m i.requestedSize with
  | none =>
    rw [hreserve] at h
    cases h
  | some m' =>
    rw [hreserve] at h
    dsimp only at h
    unfold allocateDmaBufReserved at h
    split at h
    · cases h
    split at h
    · cases h
    dsimp only at h
    split at h
    · exact absurd (congrArg Reply.status h) ‹_›
    split at h
    · cases h
    split at h
    · cases h
    cases h
    refine ⟨by omega, by omega, rfl, ?_⟩
    simp only [MemoryState.setFile, Function.update_self]
    exact ⟨_, rfl, rfl⟩

/-- A request of 4 GiB or more is refused. -/
theorem not_mapsTo_of_large {c : MemoryConfig} {m : MemoryState} {F : Handle}
    {mmapOffset length physical : ℕ} (hlen : 2 ^ 32 ≤ length) :
    ¬ MapsTo c m F mmapOffset length physical := by
  rintro ⟨target, h, -⟩
  have hlt : length < 2 ^ 32 := (mapValidate_eq_ok.mp h).1.2.2.2
  omega

/-- A page range of a BAR can be mapped, unless it has 4 GiB or begins past the region
of the token. -/
theorem mapsTo_mapping {c : MemoryConfig} (m : MemoryState) (F : Handle) {e : Mapping}
    (he : Reported c e) {offset length : ℕ} (hr : PageRange e.mappingSize offset length)
    (hlen : length < 2 ^ 32) (hoff : offset < 2 ^ 36) :
    MapsTo c m F (e.mappingBase + offset) length
      (c.barBase (mappingBar e.mappingId) + offset) := by
  obtain ⟨hid, hid', -, hbase, hsize⟩ := mem_validMappings.mp (reported_iff.mp he)
  obtain ⟨haligned, hpos, hpages, hinside⟩ := hr
  rw [hsize] at hinside
  have hregion : (e.mappingBase + offset) / 2 ^ 36 = e.mappingId - 1 := by omega
  have hoffset : (e.mappingBase + offset) % 2 ^ 36 = offset := by omega
  have hbar : (e.mappingId - 1) / 2 * 2 = mappingBar e.mappingId := rfl
  have hresolve : ttResolveMapTarget c m F (e.mappingBase + offset) length =
      .ok ⟨c.barBase (mappingBar e.mappingId) + offset,
        if (e.mappingId - 1) % 2 = 1 then .writeCombined else .nonCached, none, none⟩ := by
    unfold ttResolveMapTarget mmapOffsetDmaBuf
    rw [if_neg (by omega), if_pos (by omega), resolveBar_eq_ok, hregion, hoffset, hbar]
    exact ⟨by omega, by omega, rfl⟩
  refine ⟨_, mapValidate_eq_ok.mpr ⟨⟨hpos, hpages, ?_, hlen⟩, hresolve⟩, rfl⟩
  unfold pageSize at haligned ⊢
  dsimp only
  omega

/-- A page range of a buffer can be mapped if it begins at the buffer. -/
theorem mapsTo_dmaBuf {c : MemoryConfig} {m : MemoryState} {F : Handle} {index : ℕ} {b : DmaBuf}
    (hindex : index < maxDmaBufs) (hb : (m.file F).dmaBufs index = some b)
    (hsize : b.size ≤ maxDmaBufSize) {offset length : ℕ} (hr : PageRange b.size offset length) :
    MapsTo c m F (mmapOffsetDmaBuf + index * 2 ^ 32 + offset) length (b.physical + offset) ↔
      offset = 0 := by
  obtain ⟨haligned, hpos, hpages, hinside⟩ := hr
  unfold maxDmaBufSize at hsize
  have hrel : mmapOffsetDmaBuf + index * 2 ^ 32 + offset - mmapOffsetDmaBuf =
      index * 2 ^ 32 + offset := by omega
  have hbranch : ttResolveMapTarget c m F (mmapOffsetDmaBuf + index * 2 ^ 32 + offset) length =
      resolveDmaBuf (m.file F) (mmapOffsetDmaBuf + index * 2 ^ 32 + offset) length := by
    unfold ttResolveMapTarget
    rw [if_pos (by omega)]
  constructor
  · rintro ⟨target, h, -⟩
    have hresolve := (mapValidate_eq_ok.mp h).2
    dsimp only at hresolve
    rw [hbranch, resolveDmaBuf_eq_ok, hrel] at hresolve
    omega
  · rintro rfl
    have hquot : (index * 2 ^ 32 + 0) / 2 ^ 32 = index := by omega
    refine ⟨⟨b.physical, .cached, none, some b.id⟩, ?_, rfl⟩
    refine mapValidate_eq_ok.mpr ⟨⟨hpos, hpages, ?_, ?_⟩, ?_⟩
    · show (mmapOffsetDmaBuf + index * 2 ^ 32 + 0) % pageSize = 0
      unfold mmapOffsetDmaBuf pageSize
      omega
    · show length < 2 ^ 32
      omega
    · dsimp only
      rw [hbranch, resolveDmaBuf_eq_ok, hrel, hquot]
      exact ⟨by omega, hindex, b, hb, by omega, rfl⟩

/-- A page range of a window can be mapped only from its first byte. -/
theorem not_mapsTo_tlb {c : MemoryConfig} {m : MemoryState} {F : Handle}
    {id bar barOffset size token : ℕ} (hd : ttTlbDescribe c id = some (bar, barOffset, size))
    (htoken : token = (allocateTlbOut c id).mmapOffsetUc ∨
      token = (allocateTlbOut c id).mmapOffsetWc)
    {offset length physical : ℕ} (hr : PageRange size offset length) (hoff : offset ≠ 0) :
    ¬ MapsTo c m F (token + offset) length physical := by
  have hfits := c.tlb4gCount_fits
  obtain ⟨haligned, hpos, -, hinside⟩ := hr
  obtain ⟨encoded, hencoded, hregion, hdecode⟩ : ∃ encoded, encoded < 2 ^ 36 ∧
      (token + offset = 6 * 2 ^ 36 + encoded ∨ token + offset = 7 * 2 ^ 36 + encoded) ∧
      decodeTlb encoded length = none := by
    rcases ttTlbDescribe_eq_some.mp hd with ⟨hid, -, -, hs⟩ | ⟨hge, hid, -, -, hs⟩
    · rw [allocateTlbOut_small c hid] at htoken
      dsimp only at htoken
      refine ⟨id * 2 ^ 21 + offset, by omega, by omega, ?_⟩
      rw [Option.eq_none_iff_forall_ne_some]
      rintro ⟨bar', barOffset', id'⟩ h
      rcases decodeTlb_eq_some.mp h with h | h <;> omega
    · rw [allocateTlbOut_large hge hid] at htoken
      dsimp only at htoken
      refine ⟨(id - 202) * 2 ^ 32 + 2 ^ 29 + offset, by omega, by omega, ?_⟩
      rw [Option.eq_none_iff_forall_ne_some]
      rintro ⟨bar', barOffset', id'⟩ h
      rcases decodeTlb_eq_some.mp h with h | h <;> omega
  rintro ⟨target, h, -⟩
  have hresolve := (mapValidate_eq_ok.mp h).2
  dsimp only at hresolve
  have htlb : tlbEncoded (token + offset) = encoded := by
    rcases hregion with hregion | hregion
    · rw [hregion, tlbEncoded_uc hencoded]
    · rw [hregion, tlbEncoded_wc]
  rw [ttResolveMapTarget_tlb (by omega) (by omega), resolveTlb_eq_ok, htlb, hdecode] at hresolve
  obtain ⟨_, _, _, hnone, -⟩ := hresolve
  cases hnone

/-- A window can be mapped from its first byte, for a length below 4 GiB. -/
theorem mapsTo_tlb {c : MemoryConfig} {m : MemoryState} {F : Handle}
    {id bar barOffset size token : ℕ} (hbar : 2 ^ 29 ≤ c.barLength 0)
    (hd : ttTlbDescribe c id = some (bar, barOffset, size)) (hused : m.tlbUsed id = true)
    (howner : m.tlbOwner id = some F)
    (htoken : token = (allocateTlbOut c id).mmapOffsetUc ∨
      token = (allocateTlbOut c id).mmapOffsetWc)
    {length : ℕ} (hr : PageRange size 0 length) (hlen : length < 2 ^ 32) :
    MapsTo c m F token length (c.barBase bar + barOffset) := by
  obtain ⟨-, hpos, hpages, hinside⟩ := hr
  have hfits : length ≤ size := by omega
  obtain ⟨huc, hwc⟩ := own_token_resolves hbar hd hused howner hfits
  have haligned : token % pageSize = 0 := by
    unfold pageSize
    rcases ttTlbDescribe_eq_some.mp hd with ⟨hid, -⟩ | ⟨hge, hid, -⟩
    · rw [allocateTlbOut_small c hid] at htoken
      dsimp only at htoken
      omega
    · rw [allocateTlbOut_large hge hid] at htoken
      dsimp only at htoken
      omega
  rcases htoken with rfl | rfl
  · exact ⟨_, mapValidate_eq_ok.mpr ⟨⟨hpos, hpages, haligned, hlen⟩, huc⟩, rfl⟩
  · exact ⟨_, mapValidate_eq_ok.mpr ⟨⟨hpos, hpages, haligned, hlen⟩, hwc⟩, rfl⟩

/-- The ranges of a token that `MAP` maps, and those it refuses. -/
def MappedRanges (c : MemoryConfig) (m : MemoryState) (F : Handle) (token base size : ℕ) :
    TokenKind → Prop
  | .mapping => ∀ offset length, PageRange size offset length →
      (length < 2 ^ 32 → offset < 2 ^ 36 → MapsTo c m F (token + offset) length (base + offset)) ∧
        (2 ^ 32 ≤ length → ¬ MapsTo c m F (token + offset) length (base + offset))
  | .dmaBuf => ∀ offset length, PageRange size offset length →
      (MapsTo c m F (token + offset) length (base + offset) ↔ offset = 0)
  | .tlb => ∀ offset length, PageRange size offset length →
      (offset ≠ 0 ∨ 2 ^ 32 ≤ length → ¬ MapsTo c m F (token + offset) length (base + offset)) ∧
        (2 ^ 29 ≤ c.barLength 0 → offset = 0 → length < 2 ^ 32 →
          MapsTo c m F (token + offset) length (base + offset))

/-- The promise of the header is kept for a token exactly when the BAR is below 4 GiB
or the buffer has one page, and never for a window. -/
theorem map_contract {c : MemoryConfig} {m : MemoryState} {F : Handle} {kind : TokenKind}
    {token base size : ℕ} (h : Granted c m F kind token base size) :
    (MapContract c m F token base size ↔ kind.Uniform size) ∧
      MappedRanges c m F token base size kind := by
  cases h with
  | @mapping e he =>
    have hranges : MappedRanges c m F e.mappingBase (c.barBase (mappingBar e.mappingId))
        e.mappingSize .mapping :=
      fun offset length hr => ⟨mapsTo_mapping m F he hr, not_mapsTo_of_large⟩
    refine ⟨⟨fun hcontract => ?_, fun hsize offset length hr => ?_⟩, hranges⟩
    · by_contra hlarge
      have hlarge : 2 ^ 32 ≤ e.mappingSize := Nat.le_of_not_lt hlarge
      have hr : PageRange e.mappingSize 0 (2 ^ 32) := ⟨rfl, by omega, rfl, by omega⟩
      exact (hranges 0 _ hr).2 le_rfl (hcontract 0 _ hr)
    · have hsize : e.mappingSize < 2 ^ 32 := hsize
      have hinside := hr.inside
      exact (hranges offset length hr).1 (by omega) (by omega)
  | @dmaBuf detached before after io i env out b hreply hafter hlive =>
    obtain ⟨hindex, hrequest, htoken, b', hb', hbsize⟩ := ttIoctlAllocateDmaBuf_token hreply
    obtain rfl := Option.some.inj (hb'.symm.trans hafter)
    rw [htoken]
    rw [← hbsize] at hrequest
    have hranges : MappedRanges c m F (mmapOffsetDmaBuf + i.bufIndex * 2 ^ 32) b'.physical
        b'.size .dmaBuf :=
      fun offset length hr => mapsTo_dmaBuf hindex hlive hrequest.2.2 hr
    refine ⟨⟨fun hcontract => ?_, fun hsize offset length hr => ?_⟩, hranges⟩
    · show b'.size = pageSize
      by_contra hpage
      have hr : PageRange b'.size pageSize pageSize := by
        unfold pageSize at hrequest hpage ⊢
        exact ⟨rfl, by omega, rfl, by omega⟩
      have hzero := (hranges _ _ hr).mp (hcontract _ _ hr)
      exact absurd hzero (by decide)
    · have hsize : b'.size = pageSize := hsize
      refine (hranges offset length hr).mpr ?_
      obtain ⟨haligned, hpos, hpages, hinside⟩ := hr
      unfold pageSize at haligned hpages hsize
      omega
  | @tlb before after io size' out bar barOffset winSize _ hreply hd hused howner htoken =>
    have hout := (ttIoctlAllocateTlb_success hreply).2.1
    rw [hout] at htoken
    have hranges : MappedRanges c m F token (c.barBase bar + barOffset) size .tlb := by
      intro offset length hr
      refine ⟨fun hbad => ?_, fun hbar hoff hlen => ?_⟩
      · rcases hbad with hoff | hlen
        · exact not_mapsTo_tlb hd htoken hr hoff
        · exact not_mapsTo_of_large hlen
      · subst hoff
        exact mapsTo_tlb hbar hd hused howner htoken hr hlen
    refine ⟨⟨fun hcontract => ?_, fun hsize => hsize.elim⟩, hranges⟩
    have hsize : 2 ^ 21 ≤ size := by
      rcases ttTlbDescribe_eq_some.mp hd with ⟨-, -, -, hs⟩ | ⟨-, -, -, -, hs⟩ <;> omega
    have hr : PageRange size pageSize pageSize := by
      unfold pageSize
      exact ⟨rfl, by omega, rfl, by omega⟩
    exact (hranges _ _ hr).1 (.inl (by decide)) (hcontract _ _ hr)

/-- The promise is kept for BAR 0 of the wide Blackhole. -/
theorem map_contract_wholeBar :
    MapContract wideBlackhole largeWindowHeld 0 0 (2 ^ 39) (2 ^ 29) := by
  have he : Reported wideBlackhole ⟨1, 0, 2 ^ 29⟩ := by
    rw [reported_iff]
    decide
  have hsize : TokenKind.Uniform (2 ^ 29) .mapping := by
    show 2 ^ 29 < 2 ^ 32
    decide
  exact (map_contract (Granted.mapping he)).1.mpr hsize

/-- The second page of a window cannot be mapped through the token of the window. -/
theorem second_page_refused :
    Granted wideBlackhole largeWindowHeld 0 .tlb (6 * 2 ^ 36 + 2 ^ 29) (2 ^ 40) (2 ^ 32) ∧
      PageRange (2 ^ 32) 4096 4096 ∧
      mapValidate wideBlackhole largeWindowHeld 0 ⟨6 * 2 ^ 36 + 2 ^ 29 + 4096, 4096⟩ =
        .error .invalidParameter ∧
      ¬ MapContract wideBlackhole largeWindowHeld 0 (6 * 2 ^ 36 + 2 ^ 29) (2 ^ 40) (2 ^ 32) := by
  have hreply : ttIoctlAllocateTlb wideBlackhole (.started wideBlackhole fun _ _ => 0) 0 ⟨16, 48⟩
      (2 ^ 32) = ⟨.success, some (allocateTlbOut wideBlackhole 202), largeWindowHeld⟩ := rfl
  have hrange : PageRange (2 ^ 32) 4096 4096 := ⟨by decide, by decide, by decide, by decide⟩
  have hrefused : mapValidate wideBlackhole largeWindowHeld 0
      ⟨6 * 2 ^ 36 + 2 ^ 29 + 4096, 4096⟩ = .error .invalidParameter := rfl
  have hd : ttTlbDescribe wideBlackhole 202 = some (4, 0, 2 ^ 32) := by decide
  refine ⟨Granted.tlb hreply hd rfl rfl (.inl rfl), hrange, hrefused, ?_⟩
  intro hcontract
  obtain ⟨target, hok, -⟩ := hcontract 4096 4096 hrange
  rw [hrefused] at hok
  cases hok

end TtKmd
