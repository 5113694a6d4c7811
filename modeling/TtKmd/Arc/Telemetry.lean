import TtKmd.Arc.Queue

/-!
# The telemetry table

The firmware leaves two pointers in scratch registers: to a table of tags, and to their
values. `TtBhTelemetryProbe` walks the table and caches where each value is;
`TtBhReadTelemetryTag` reads a value through `TtBhCsmRead32`, which checks the range. The probe
checks the pointers only: its own reads stay in CSM exactly when the table fits below the end.
-/

namespace TtKmd

/-- `TT_TELEM_TAG_CACHE_SIZE`. -/
def telemTagCacheSize : ℕ := 128

/-- What the device answers to the reads of `TtBhTelemetryProbe`. -/
structure TelemetryAnswers where
  /-- `TT_BH_ARC_TELEMETRY_PTR`. -/
  basePtr : ℕ
  /-- `TT_BH_ARC_TELEMETRY_DATA`. -/
  dataPtr : ℕ
  /-- The version word. -/
  version : ℕ
  /-- The number of entries. -/
  numEntries : ℕ
  /-- The answer to the read of entry `i`. -/
  tagEntry : ℕ → ℕ
  /-- An answer is a word. -/
  basePtr_lt : basePtr < 2 ^ 32
  /-- An answer is a word. -/
  dataPtr_lt : dataPtr < 2 ^ 32
  /-- An answer is a word. -/
  version_lt : version < 2 ^ 32
  /-- An answer is a word. -/
  numEntries_lt : numEntries < 2 ^ 32
  /-- An answer is a word. -/
  tagEntry_lt : ∀ i, tagEntry i < 2 ^ 32

/-- What `TtBhTelemetryProbe` returns, leaves in the context and reads. -/
structure TelemetryProbe where
  /-- The returned status. -/
  status : NtStatus
  /-- `TelemetryTagCache`; zero is an absent tag. -/
  tagCache : ℕ → ℕ
  /-- `TelemetryValid`. -/
  valid : Bool
  /-- The addresses of the NOC reads after those of the two scratch registers. -/
  reads : List ℕ

/-- The pointer check of `TtBhTelemetryProbe`: it goes on. -/
def telemetryAvailable (a : TelemetryAnswers) : Bool :=
  !(a.basePtr < csmBase || a.basePtr ≥ csmBase + csmSize ||
    a.dataPtr < csmBase || a.dataPtr ≥ csmBase + csmSize)

/-- `majorVer`. -/
def telemetryMajor (version : ℕ) : ℕ := (version >>> 16) &&& 0xFF

/-- The address of entry `i`, in 32-bit arithmetic. -/
def tagEntryAddr (a : TelemetryAnswers) (i : ℕ) : ℕ := u32 (u32 (a.basePtr + 8) + u32 (i * 4))

/-- One pass of the loop of `TtBhTelemetryProbe`. -/
def probeEntry (a : TelemetryAnswers) (p : TelemetryProbe) (i : ℕ) : TelemetryProbe :=
  let tagId := a.tagEntry i &&& 0xFFFF
  let offset := (a.tagEntry i >>> 16) &&& 0xFFFF
  { p with
    tagCache :=
      if tagId < telemTagCacheSize then
        Function.update p.tagCache tagId (a.dataPtr + offset * 4)
      else p.tagCache
    reads := p.reads ++ [tagEntryAddr a i] }

/-- `TtBhTelemetryProbe`. -/
def ttBhTelemetryProbe (a : TelemetryAnswers) : TelemetryProbe :=
  let reads := [a.basePtr]
  if !telemetryAvailable a then ⟨.deviceNotReady, fun _ => 0, false, []⟩
  else if telemetryMajor a.version > 1 then ⟨.notSupported, fun _ => 0, false, reads⟩
  else
    let reads := reads ++ [u32 (a.basePtr + 4)]
    let p := (List.range a.numEntries).foldl (probeEntry a) ⟨.success, fun _ => 0, false, reads⟩
    { p with valid := true }

/-- What `TtBhReadTelemetryTag` returns and reads. -/
structure TagRead where
  /-- The returned status. -/
  status : NtStatus
  /-- `*Value`. -/
  value : ℕ
  /-- The addresses of the NOC reads. -/
  reads : List ℕ

/-- `TtBhReadTelemetryTag`, with the words of CSM at the call. -/
def ttBhReadTelemetryTag (tagCache : ℕ → ℕ) (mem : Csm) (tagId : ℕ) : TagRead :=
  if tagId ≥ telemTagCacheSize then ⟨.invalidParameter, 0, []⟩
  else if tagCache tagId = 0 then ⟨.notFound, 0, []⟩
  else
    match ttBhCsmRead32 mem (tagCache tagId) with
    | none => ⟨.accessViolation, 0, []⟩
    | some value => ⟨.success, value, [tagCache tagId]⟩

/-! ## The reads -/

/-- A word wholly inside CSM. -/
def InCsm (addr : ℕ) : Prop := csmBase ≤ addr ∧ addr + 4 ≤ csmBase + csmSize

instance (addr : ℕ) : Decidable (InCsm addr) := inferInstanceAs (Decidable (_ ∧ _))

/-- The table of tags, with its two header words, ends inside CSM, unless the probe stops
before it reads the table. -/
def TelemetryFits (a : TelemetryAnswers) : Prop :=
  telemetryAvailable a → a.basePtr + 4 ≤ csmBase + csmSize ∧
    (telemetryMajor a.version ≤ 1 → a.basePtr + 8 + 4 * a.numEntries ≤ csmBase + csmSize)

/-- The loop reads the entries in order. -/
theorem foldl_probeEntry_reads (a : TelemetryAnswers) (p : TelemetryProbe) (n : ℕ) :
    ((List.range n).foldl (probeEntry a) p).reads =
      p.reads ++ (List.range n).map (tagEntryAddr a) := by
  induction n with
  | zero => simp
  | succ n ih =>
    rw [List.range_succ, List.foldl_append, List.map_append, ← List.append_assoc, ← ih]
    rfl

/-- A tag is read inside CSM, whatever the cache holds. -/
theorem inCsm_of_mem_ttBhReadTelemetryTag {tagCache : ℕ → ℕ} {mem : Csm} {tagId addr : ℕ}
    (h : addr ∈ (ttBhReadTelemetryTag tagCache mem tagId).reads) : InCsm addr := by
  unfold ttBhReadTelemetryTag at h
  split at h
  · cases h
  split at h
  · cases h
  unfold ttBhCsmRead32 at h
  split at h
  · cases h
  · rename_i hread
    split at hread
    · cases hread
    · rename_i hrange
      obtain rfl := List.mem_singleton.mp h
      simp only [csmBase, csmSize] at hrange
      simp only [InCsm, csmBase, csmSize]
      omega

/-- The pointer check, as the bounds that it makes. -/
theorem telemetryAvailable_iff (a : TelemetryAnswers) :
    telemetryAvailable a = true ↔
      (csmBase ≤ a.basePtr ∧ a.basePtr < csmBase + csmSize) ∧
        csmBase ≤ a.dataPtr ∧ a.dataPtr < csmBase + csmSize := by
  simp only [telemetryAvailable, Bool.not_eq_true', Bool.or_eq_false_iff, decide_eq_false_iff_not,
    not_lt, ge_iff_le, not_le, and_assoc]

/-- Two header words and `n` entries are read inside CSM exactly when the table fits. No
address wraps before the first one past the end. -/
theorem tableReads_inCsm_iff {a : TelemetryAnswers} (hlo : csmBase ≤ a.basePtr)
    (hhi : a.basePtr < csmBase + csmSize) :
    (InCsm a.basePtr ∧ InCsm (u32 (a.basePtr + 4)) ∧
        ∀ i < a.numEntries, InCsm (tagEntryAddr a i)) ↔
      a.basePtr + 8 + 4 * a.numEntries ≤ csmBase + csmSize := by
  have hn := a.numEntries_lt
  simp only [InCsm, tagEntryAddr, u32, csmBase, csmSize] at hlo hhi ⊢
  constructor
  · rintro ⟨-, hheader, hentries⟩
    by_contra hpast
    -- the first entry that ends past CSM
    have hfirst := hentries ((0x10000000 + 2 ^ 19 - (a.basePtr + 8)) / 4) (by omega)
    omega
  · intro hfits
    refine ⟨by omega, by omega, fun i hi => ?_⟩
    omega

/-- The reads of the probe are inside CSM exactly when the table fits. -/
theorem ttBhTelemetryProbe_inCsm_iff (a : TelemetryAnswers) :
    (∀ addr ∈ (ttBhTelemetryProbe a).reads, InCsm addr) ↔ TelemetryFits a := by
  by_cases havailable : telemetryAvailable a = true
  · obtain ⟨⟨hlo, hhi⟩, -⟩ := (telemetryAvailable_iff a).mp havailable
    by_cases hmajor : telemetryMajor a.version ≤ 1
    · have hreads : (ttBhTelemetryProbe a).reads =
          a.basePtr :: u32 (a.basePtr + 4) ::
            (List.range a.numEntries).map (tagEntryAddr a) := by
        simp [ttBhTelemetryProbe, havailable, hmajor.not_gt, foldl_probeEntry_reads]
      have hiff := tableReads_inCsm_iff hlo hhi
      rw [hreads]
      simp only [List.forall_mem_cons, List.forall_mem_map, List.mem_range, hiff, TelemetryFits,
        havailable, hmajor, true_imp_iff]
      omega
    · have hreads : (ttBhTelemetryProbe a).reads = [a.basePtr] := by
        simp [ttBhTelemetryProbe, havailable, Nat.lt_of_not_le hmajor]
      rw [hreads]
      simp only [List.forall_mem_singleton, InCsm, TelemetryFits, havailable, hmajor, true_imp_iff,
        false_imp_iff, hlo, true_and, and_true]
  · have hreads : (ttBhTelemetryProbe a).reads = [] := by
      simp [ttBhTelemetryProbe, havailable]
    rw [hreads]
    simp [TelemetryFits, havailable]

/-- For all answers of the device: the reads of the probe are words inside CSM exactly when
the part of the table that it reads fits, and every later read of a tag from the cache that the
probe filled is a word inside CSM. -/
theorem telemetry_confined (a : TelemetryAnswers) :
    ((∀ addr ∈ (ttBhTelemetryProbe a).reads, InCsm addr) ↔ TelemetryFits a) ∧
      ∀ mem tagId addr,
        addr ∈ (ttBhReadTelemetryTag (ttBhTelemetryProbe a).tagCache mem tagId).reads →
          InCsm addr :=
  ⟨ttBhTelemetryProbe_inCsm_iff a, fun _ _ _ h => inCsm_of_mem_ttBhReadTelemetryTag h⟩

/-- An empty table in the last word of CSM. -/
def lastWordTable : TelemetryAnswers where
  basePtr := 0x1007FFFC
  dataPtr := 0x10000000
  version := 0
  numEntries := 0
  tagEntry := fun _ => 0
  basePtr_lt := by decide
  dataPtr_lt := by decide
  version_lt := by decide
  numEntries_lt := by decide
  tagEntry_lt := fun _ => by decide

/-- The number of entries of a table in the last word of CSM is read past the end of CSM. -/
theorem telemetry_reads_past_csm :
    (ttBhTelemetryProbe lastWordTable).reads = [0x1007FFFC, 0x10080000] ∧
      ¬∀ addr ∈ (ttBhTelemetryProbe lastWordTable).reads, InCsm addr := by
  decide

end TtKmd
