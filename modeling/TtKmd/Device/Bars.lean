import TtKmd.Device.Pointers
import Mathlib.Data.List.Nodup

/-!
# The BARs that the preparation finds

`EvtDevicePrepareHardware` is handed the resources of the device as two lists of descriptors, in
the order of the bus driver and with others among them. Which descriptor belongs to which BAR
stands in the BAR registers of the configuration space: a memory BAR of 64 bits takes two of the
six registers, and the driver compares the addresses in them with the starts of the raw
descriptors.

Here the registers are those of a list of BARs, and the descriptors encode the resources that
were granted for them. The driver finds each BAR where it was granted, with its whole length.
-/

namespace TtKmd

open Lib

/-! ## The registers -/

section Registers

/-- The loop of `TtReadConfigBars`, from the register of a slot to the last one. -/
def readBars : List ℕ → List ℕ
  | [] => []
  | raw :: rest =>
      if raw % 2 = 1 then 0 :: readBars rest
      else if raw / 2 % 4 = 2 then
        match rest with
        | [] => [0]
        -- The next register is the upper half; its own slot stays zero.
        | upper :: rest => (raw / 16 * 16 + upper * 2 ^ 32) :: 0 :: readBars rest
      else raw / 16 * 16 :: readBars rest

/-- `TtReadConfigBars`: the addresses in the six BAR registers, when `GetBusData` reads them all. -/
def ttReadConfigBars (raw : Option (List ℕ)) : List ℕ :=
  raw.elim (List.replicate maxBars 0) readBars

/-- A BAR of a function. -/
inductive Bar
  /-- An I/O BAR, with the bits above its mark. -/
  | io (bits : ℕ)
  /-- A memory BAR of 32 bits, with its address in units of 16 bytes. -/
  | memory32 (address : ℕ) (prefetchable below1M : Bool)
  /-- A memory BAR of 64 bits, with its address in units of 16 bytes. -/
  | memory64 (address : ℕ) (prefetchable : Bool)

/-- The registers of a BAR. -/
def Bar.registers : Bar → List ℕ
  | .io bits => [2 * bits + 1]
  | .memory32 address prefetchable below1M =>
      [16 * address + (if prefetchable then 8 else 0) + if below1M then 2 else 0]
  | .memory64 address prefetchable =>
      [16 * (address % 2 ^ 28) + (if prefetchable then 8 else 0) + 4, address / 2 ^ 28]

/-- The memory addresses in the slots of a BAR. -/
def Bar.addresses : Bar → List ℕ
  | .io _ => [0]
  | .memory32 address _ _ => [16 * address]
  | .memory64 address _ => [16 * address, 0]

variable {raw upper : ℕ} {rest : List ℕ}

/-- The register of an I/O BAR. -/
theorem readBars_io (hmark : raw % 2 = 1) : readBars (raw :: rest) = 0 :: readBars rest := by
  rw [readBars.eq_def]
  exact if_pos hmark

/-- The register of a memory BAR of 32 bits. -/
theorem readBars_memory32 (hmark : raw % 2 ≠ 1) (htype : raw / 2 % 4 ≠ 2) :
    readBars (raw :: rest) = raw / 16 * 16 :: readBars rest := by
  rw [readBars.eq_def]
  exact (if_neg hmark).trans (if_neg htype)

/-- The registers of a memory BAR of 64 bits. -/
theorem readBars_memory64 (hmark : raw % 2 ≠ 1) (htype : raw / 2 % 4 = 2) :
    readBars (raw :: upper :: rest) = (raw / 16 * 16 + upper * 2 ^ 32) :: 0 :: readBars rest := by
  rw [readBars.eq_def]
  exact (if_neg hmark).trans (if_pos htype)

/-- The registers of a BAR in front of others. -/
theorem readBars_registers (bar : Bar) (rest : List ℕ) :
    readBars (bar.registers ++ rest) = bar.addresses ++ readBars rest := by
  cases bar with
  | io bits => exact readBars_io (by omega)
  | memory32 address prefetchable below1M =>
    have hflags : (if prefetchable then 8 else 0) + (if below1M then 2 else 0) ∈ [0, 2, 8, 10] := by
      cases prefetchable <;> cases below1M <;> decide
    simp only [List.mem_cons, List.not_mem_nil, or_false] at hflags
    have hread := @readBars_memory32 (16 * address + (if prefetchable then 8 else 0) +
      if below1M then 2 else 0) rest (by omega) (by omega)
    refine hread.trans (congrArg (· :: readBars rest) ?_)
    omega
  | memory64 address prefetchable =>
    have hflag : (if prefetchable then 8 else 0) = 0 ∨ (if prefetchable then 8 else 0) = 8 := by
      cases prefetchable <;> decide
    have hread := @readBars_memory64 (16 * (address % 2 ^ 28) + (if prefetchable then 8 else 0) + 4)
      (address / 2 ^ 28) rest (by omega) (by omega)
    refine hread.trans (congrArg (· :: 0 :: readBars rest) ?_)
    omega

/-- The driver reads the addresses of the BARs off their registers. -/
theorem ttReadConfigBars_registers (bars : List Bar) :
    ttReadConfigBars (some (bars.flatMap Bar.registers)) = bars.flatMap Bar.addresses := by
  induction bars with
  | nil => rfl
  | cons bar bars ih =>
    rw [List.flatMap_cons, List.flatMap_cons]
    exact (readBars_registers bar _).trans (congrArg _ ih)

end Registers

/-! ## The descriptors -/

section Descriptors

/-- The types of resource that `EvtDevicePrepareHardware` tells apart. -/
inductive CmResourceType
  /-- `CmResourceTypeMemory`. -/
  | memory
  /-- `CmResourceTypeMemoryLarge`. -/
  | memoryLarge
  /-- Any other. -/
  | other
  deriving DecidableEq

/-- What is read of a `CM_PARTIAL_RESOURCE_DESCRIPTOR`. -/
structure CmDescriptor where
  /-- `Type`. -/
  type : CmResourceType
  /-- `CM_RESOURCE_MEMORY_LARGE_40` of `Flags`. -/
  large40 : Bool
  /-- `CM_RESOURCE_MEMORY_LARGE_48` of `Flags`. -/
  large48 : Bool
  /-- `CM_RESOURCE_MEMORY_LARGE_64` of `Flags`. -/
  large64 : Bool
  /-- `Start`, which is in the same place in all memory descriptors. -/
  start : ℕ
  /-- `Length`, `Length40`, `Length48` or `Length64`, which are in the same place. -/
  length : ℕ

/-- `TtDecodeMemoryLength`. -/
def ttDecodeMemoryLength (d : CmDescriptor) : ℕ :=
  if d.type = .memory then d.length
  else if d.large40 then d.length * 2 ^ 8
  else if d.large48 then d.length * 2 ^ 16
  else if d.large64 then d.length * 2 ^ 32
  else 0

/-- Memory that is granted for a BAR. -/
structure MemoryGrant where
  /-- Its start in the address space of the processor. -/
  start : ℕ
  /-- The length of a memory BAR is a power of two. -/
  log2 : ℕ
  /-- The length has 64 bits. -/
  fits : log2 < 64

/-- The length of a grant. -/
def MemoryGrant.length (g : MemoryGrant) : ℕ := 2 ^ g.log2

/-- The descriptor that the plug and play manager builds of a grant: the length is stored in 32
bits, in the smallest unit in which it fits. -/
def MemoryGrant.descriptor (g : MemoryGrant) : CmDescriptor :=
  if g.log2 < 32 then ⟨.memory, false, false, false, g.start, 2 ^ g.log2⟩
  else if g.log2 < 40 then ⟨.memoryLarge, true, false, false, g.start, 2 ^ (g.log2 - 8)⟩
  else if g.log2 < 48 then ⟨.memoryLarge, false, true, false, g.start, 2 ^ (g.log2 - 16)⟩
  else ⟨.memoryLarge, false, false, true, g.start, 2 ^ (g.log2 - 32)⟩

/-- The length field of the descriptor of a grant has 32 bits. -/
theorem MemoryGrant.descriptor_length_lt (g : MemoryGrant) : g.descriptor.length < 2 ^ 32 := by
  have hfits := g.fits
  unfold descriptor
  split_ifs <;> exact Nat.pow_lt_pow_right (by decide) (by omega)

/-- The descriptor of a grant is one of memory. -/
theorem MemoryGrant.descriptor_type (g : MemoryGrant) : g.descriptor.type ≠ .other := by
  unfold descriptor
  split_ifs <;> simp

/-- The start that the driver reads off a descriptor. -/
theorem MemoryGrant.descriptor_start (g : MemoryGrant) : g.descriptor.start = g.start := by
  unfold descriptor
  split_ifs <;> rfl

/-- The length that the driver reads off a descriptor. -/
theorem MemoryGrant.decode_descriptor (g : MemoryGrant) :
    ttDecodeMemoryLength g.descriptor = g.length := by
  have hshift : ∀ k, k ≤ g.log2 → 2 ^ (g.log2 - k) * 2 ^ k = 2 ^ g.log2 := by
    intro k hk
    rw [← Nat.pow_add, Nat.sub_add_cancel hk]
  unfold descriptor length
  split_ifs with h32 h40 h48
  · rfl
  · exact hshift 8 (by omega)
  · exact hshift 16 (by omega)
  · exact hshift 32 (by omega)

end Descriptors

/-! ## The match -/

section Match

/-- A raw descriptor and a translated one at the same place of the two lists. -/
abbrev ResourcePair : Type := Option CmDescriptor × Option CmDescriptor

/-- `BarBase` and `BarLength`. -/
structure BarInventory where
  /-- `BarBase`. -/
  base : ℕ → ℕ
  /-- `BarLength`. -/
  length : ℕ → ℕ

/-- The BARs at the start of the preparation. -/
def BarInventory.empty : BarInventory := ⟨fun _ => 0, fun _ => 0⟩

/-- The BAR of a slot is at a resource. -/
def BarInventory.put (bars : BarInventory) (bar : ℕ) (xlated : CmDescriptor) : BarInventory :=
  ⟨Function.update bars.base bar xlated.start,
    Function.update bars.length bar (ttDecodeMemoryLength xlated)⟩

/-- One round of the loop of `TtEvtDevicePrepareHardware` over the resources. -/
def matchResource (barValue : List ℕ) (bars : BarInventory) (r : ResourcePair) : BarInventory :=
  match r.1, r.2 with
  | some raw, some xlated =>
      if xlated.type = .other then bars
      else (barValue.findIdx? fun v => v ≠ 0 && v = raw.start).elim bars (bars.put · xlated)
  | _, _ => bars

/-- The loop. -/
def matchResources (barValue : List ℕ) (resources : List ResourcePair) : BarInventory :=
  resources.foldl (matchResource barValue) .empty

/-- The pair is one of memory, and the bus driver starts it at an address. -/
def MemoryAt (v : ℕ) (r : ResourcePair) : Prop :=
  ∃ raw xlated, r = (some raw, some xlated) ∧ xlated.type ≠ .other ∧ raw.start = v

/-- No two slots have the same address. -/
def DistinctAddresses (barValue : List ℕ) : Prop :=
  ∀ (i j v : ℕ), v ≠ 0 → barValue[i]? = some v → barValue[j]? = some v → i = j

variable {barValue : List ℕ} {bars : BarInventory} {r : ResourcePair}
  {resources : List ResourcePair}
  {bar v : ℕ}

/-- Everything one round can do. -/
theorem matchResource_cases (barValue : List ℕ) (bars : BarInventory) (r : ResourcePair) :
    matchResource barValue bars r = bars ∨
      ∃ i v xlated, v ≠ 0 ∧ barValue[i]? = some v ∧ MemoryAt v r ∧
        matchResource barValue bars r = bars.put i xlated := by
  rcases r with ⟨_ | raw, _ | xlated⟩
  · exact .inl rfl
  · exact .inl rfl
  · exact .inl rfl
  · unfold matchResource
    dsimp only
    split
    · exact .inl rfl
    rename_i hmemory
    cases hfind : barValue.findIdx? fun v => v ≠ 0 && v = raw.start with
    | none => exact .inl rfl
    | some i =>
      obtain ⟨hi, hvalue, -⟩ := List.findIdx?_eq_some_iff_getElem.mp hfind
      simp only [ne_eq, Bool.and_eq_true, decide_eq_true_eq] at hvalue
      refine .inr ⟨i, raw.start, xlated, ?_, ?_, ⟨raw, xlated, rfl, hmemory, rfl⟩, rfl⟩
      · rw [← hvalue.2]
        exact hvalue.1
      · rw [List.getElem?_eq_getElem hi, hvalue.2]

/-- A round with no memory for a slot leaves its BAR alone. -/
theorem matchResource_other (h : ∀ v, v ≠ 0 → barValue[bar]? = some v → ¬MemoryAt v r) :
    (matchResource barValue bars r).base bar = bars.base bar ∧
      (matchResource barValue bars r).length bar = bars.length bar := by
  rcases matchResource_cases barValue bars r with hr | ⟨i, v, xlated, hv, hi, hat, hr⟩
  · rw [hr]
    exact ⟨rfl, rfl⟩
  · have hne : bar ≠ i := by
      rintro rfl
      exact h v hv hi hat
    rw [hr]
    exact ⟨Function.update_of_ne hne _ _, Function.update_of_ne hne _ _⟩

/-- Rounds with no memory for a slot leave its BAR alone. -/
theorem foldl_matchResource_other
    (h : ∀ r ∈ resources, ∀ v, v ≠ 0 → barValue[bar]? = some v → ¬MemoryAt v r) :
    (resources.foldl (matchResource barValue) bars).base bar = bars.base bar ∧
      (resources.foldl (matchResource barValue) bars).length bar = bars.length bar := by
  induction resources generalizing bars with
  | nil => exact ⟨rfl, rfl⟩
  | cons r resources ih =>
    obtain ⟨hbase, hlength⟩ :=
      @matchResource_other barValue bars r bar (h r (List.mem_cons_self ..))
    obtain ⟨hbase', hlength'⟩ := @ih (matchResource barValue bars r)
      fun r' hr' => h r' (List.mem_cons_of_mem _ hr')
    exact ⟨hbase'.trans hbase, hlength'.trans hlength⟩

/-- A round with the memory for a slot sets its BAR. -/
theorem matchResource_hit (hdistinct : DistinctAddresses barValue) (hv : v ≠ 0)
    (hbar : barValue[bar]? = some v) {raw xlated : CmDescriptor} (hraw : raw.start = v)
    (hmemory : xlated.type ≠ .other) :
    matchResource barValue bars (some raw, some xlated) = bars.put bar xlated := by
  have hfind : (barValue.findIdx? fun v => v ≠ 0 && v = raw.start) = some bar := by
    obtain ⟨hlt, hget⟩ := List.getElem?_eq_some_iff.mp hbar
    apply List.findIdx?_eq_some_iff_getElem.mpr
    refine ⟨hlt, by simp [hget, hv, hraw], ?_⟩
    intro j hj hfound
    simp only [ne_eq, Bool.and_eq_true, decide_eq_true_eq] at hfound
    have hsame : barValue[j]? = some v := by
      rw [List.getElem?_eq_getElem (by omega), hfound.2, hraw]
    exact absurd (hdistinct j bar v hv hsame hbar) (by omega)
  unfold matchResource
  dsimp only
  rw [if_neg hmemory, hfind]
  rfl

/-- The resources of a function with some BARs: for each memory BAR that has an address there is
one pair of descriptors, somewhere among the others. -/
def BarsGranted (bars : List Bar) (grant : ℕ → MemoryGrant) (resources : List ResourcePair) :
    Prop :=
  ∀ bar v, v ≠ 0 → (bars.flatMap Bar.addresses)[bar]? = some v →
    ∃ before raw after, raw.start = v ∧
      resources = before ++ (some raw, some (grant bar).descriptor) :: after ∧
      ∀ r ∈ before ++ after, ¬MemoryAt v r

/-- The preparation finds every memory BAR where it was granted, with its length, and no other. -/
theorem bars_discovered {bars : List Bar} {grant : ℕ → MemoryGrant}
    {resources : List ResourcePair} (hdistinct : DistinctAddresses (bars.flatMap Bar.addresses))
    (hgranted : BarsGranted bars grant resources) (bar : ℕ) :
    let found := matchResources (ttReadConfigBars (some (bars.flatMap Bar.registers))) resources
    if (bars.flatMap Bar.addresses)[bar]?.getD 0 = 0 then
      found.base bar = 0 ∧ found.length bar = 0
    else found.base bar = (grant bar).start ∧ found.length bar = (grant bar).length := by
  rw [ttReadConfigBars_registers]
  dsimp only
  split
  · rename_i hzero
    apply foldl_matchResource_other
    rintro r - v hv hbar
    rw [hbar] at hzero
    exact absurd hzero hv
  · rename_i hv
    obtain ⟨v, hbar⟩ : ∃ v, (bars.flatMap Bar.addresses)[bar]? = some v := by
      cases hget : (bars.flatMap Bar.addresses)[bar]? with
      | none => simp [hget] at hv
      | some v => exact ⟨v, rfl⟩
    rw [hbar] at hv
    obtain ⟨before, raw, after, hraw, rfl, hothers⟩ := hgranted bar v hv hbar
    unfold matchResources
    rw [List.foldl_append, List.foldl_cons,
      matchResource_hit hdistinct hv hbar hraw (grant bar).descriptor_type]
    obtain ⟨hbase, hlength⟩ := @foldl_matchResource_other (bars.flatMap Bar.addresses)
      ((before.foldl (matchResource (bars.flatMap Bar.addresses)) .empty).put bar
        (grant bar).descriptor) after bar (by
      intro r hr w hw hbar'
      obtain rfl : v = w := Option.some.inj (hbar.symm.trans hbar')
      exact hothers r (List.mem_append_right _ hr))
    refine ⟨hbase.trans ?_, hlength.trans ?_⟩
    · exact (Function.update_self ..).trans (grant bar).descriptor_start
    · exact (Function.update_self ..).trans (grant bar).decode_descriptor

end Match

/-- The BARs of a Blackhole: 512 MiB, 1 MiB and 32 GiB, all of 64 bits. -/
def blackholeBars : List Bar := [.memory64 0x10000000000 true, .memory64 0x10004000000 false,
  .memory64 0x10080000000 true]

/-- What is granted for them. -/
def blackholeGrants (bar : ℕ) : MemoryGrant :=
  if bar = 0 then ⟨0x100000000000, 29, by decide⟩
  else if bar = 2 then ⟨0x100040000000, 20, by decide⟩
  else ⟨0x100800000000, 35, by decide⟩

/-- A raw descriptor that starts at an address. -/
def rawMemory (start : ℕ) : Option CmDescriptor := some ⟨.memoryLarge, true, false, false, start, 0⟩

/-- The resources in the order of the bus driver, with an interrupt among them. -/
def blackholeResources : List ResourcePair :=
  [(rawMemory 0x100800000000, some (blackholeGrants 4).descriptor),
    (some ⟨.other, false, false, false, 0x100000000000, 0⟩,
      some ⟨.other, false, false, false, 5, 1⟩),
    (rawMemory 0x100000000000, some (blackholeGrants 0).descriptor),
    (rawMemory 0x100040000000, some (blackholeGrants 2).descriptor)]

/-- The BARs of the Blackhole are found, that of 32 GiB behind a descriptor with a length in units
of 256 bytes. -/
theorem bars_discovered_blackhole :
    let found := matchResources (ttReadConfigBars (some (blackholeBars.flatMap Bar.registers)))
      blackholeResources
    (found.base 0 = 0x100000000000 ∧ found.length 0 = 2 ^ 29) ∧
      (found.base 4 = 0x100800000000 ∧ found.length 4 = 2 ^ 35) ∧
      found.base 1 = 0 ∧ found.length 1 = 0 := by
  have haddresses : blackholeBars.flatMap Bar.addresses =
      [0x100000000000, 0, 0x100040000000, 0, 0x100800000000, 0] := by decide
  have hdistinct : DistinctAddresses (blackholeBars.flatMap Bar.addresses) := by
    rw [haddresses]
    intro i j v hv hi hj
    have hi6 : i < 6 := (List.getElem?_eq_some_iff.mp hi).1
    have hj6 : j < 6 := (List.getElem?_eq_some_iff.mp hj).1
    interval_cases i <;> interval_cases j <;> simp_all <;> omega
  have hgranted : BarsGranted blackholeBars blackholeGrants blackholeResources := by
    intro bar v hv hbar
    rw [haddresses] at hbar
    have hbar6 : bar < 6 := (List.getElem?_eq_some_iff.mp hbar).1
    interval_cases bar
    · obtain rfl : 0x100000000000 = v := Option.some.inj hbar
      exact ⟨blackholeResources.take 2, _, blackholeResources.drop 3, rfl, rfl, by
        simp [MemoryAt, blackholeResources, rawMemory]⟩
    · exact absurd (Option.some.inj hbar).symm hv
    · obtain rfl : 0x100040000000 = v := Option.some.inj hbar
      exact ⟨blackholeResources.take 3, _, [], rfl, rfl, by
        simp [MemoryAt, blackholeResources, rawMemory]⟩
    · exact absurd (Option.some.inj hbar).symm hv
    · obtain rfl : 0x100800000000 = v := Option.some.inj hbar
      exact ⟨[], _, blackholeResources.drop 1, rfl, rfl, by
        simp [MemoryAt, blackholeResources, rawMemory]⟩
    · exact absurd (Option.some.inj hbar).symm hv
  have hfound := bars_discovered hdistinct hgranted
  have h0 := hfound 0
  have h1 := hfound 1
  have h4 := hfound 4
  rw [haddresses] at h0 h1 h4
  exact ⟨h0, h4, h1⟩

end TtKmd
