import TtKmd.Lib.Chain
import TtKmd.Reset.Fixpoint

/-!
# The search for the PCI Express capability

The capabilities of a device are a chain in its configuration space. The chain starts at a
pointer in the header, and every capability has a pointer to the next one. What the device
answers is not to be trusted: the chain may lead into the header, point at itself or run in a
circle. `TtDiscoverPcieCap` gives up after 48 steps. There are 48 places for a capability, so
it finds the PCI Express capability whenever the chain without a limit has one.
-/

namespace TtKmd

open Lib

/-! ## The chain -/

/-- A capability at an offset: it lies behind the header, and something answers there. -/
def capabilityAt (cfg : ℕ → BitVec 16) (offset : ℕ) : Option ℕ :=
  if 0x40 ≤ offset ∧ cfg offset ≠ 0xFFFF then some offset else none

/-- The capability that a capability names. -/
def nextCapability (cfg : ℕ → BitVec 16) (offset : ℕ) : Option ℕ :=
  capabilityAt cfg ((cfg offset >>> 8) &&& 0xFC).toNat

/-- The capability at a position of the chain. -/
def capability (cfg : ℕ → BitVec 16) (k : ℕ) : Option ℕ :=
  chainAt (nextCapability cfg) (capabilityAt cfg (capPointer cfg)) k

/-- A PCI Express capability: its ID is `PCI_CAP_ID_EXP`. -/
def isPcieCap (cfg : ℕ → BitVec 16) (offset : ℕ) : Bool := cfg offset &&& 0xFF == 0x10

/-- The first PCI Express capability of the chain, however far away. -/
def FirstPcieCap (cfg : ℕ → BitVec 16) (offset : ℕ) : Prop :=
  FirstOnChain (nextCapability cfg) (capabilityAt cfg (capPointer cfg)) (isPcieCap cfg) offset

/-- The places for a capability. -/
def capabilityPlaces : Finset ℕ := (Finset.range 48).image fun i => 0x40 + 4 * i

instance (cfg : ℕ → BitVec 16) : Decidable (NoCapList cfg) := inferInstanceAs (Decidable (_ ∨ _))

section Walk

variable {c : ConfigState} {cfg : ℕ → BitVec 16} {offset steps : ℕ}

/-- A capability is where it is looked for. -/
theorem capabilityAt_eq_some {a : ℕ} :
    capabilityAt cfg offset = some a ↔ offset = a ∧ 0x40 ≤ a ∧ cfg a ≠ 0xFFFF := by
  unfold capabilityAt
  constructor
  · intro h
    obtain ⟨hcap, ha⟩ := guard_of_eq_some h
    subst ha
    exact ⟨rfl, hcap⟩
  · rintro ⟨rfl, hcap⟩
    rw [if_pos hcap]

/-- A masked pointer is a multiple of four inside the configuration space. -/
theorem masked_pointer (n : ℕ) : n &&& 0xFC < 0x100 ∧ 4 ∣ n &&& 0xFC := by
  constructor
  · exact Nat.and_le_right.trans_lt (by decide)
  · apply Nat.dvd_of_mod_eq_zero
    calc (n &&& 0xFC) % 2 ^ 2 = n % 2 ^ 2 &&& 0xFC % 2 ^ 2 := Nat.and_mod_two_pow
      _ = 0 := Nat.and_zero _

/-- What a masked pointer leads to is one of the places. -/
theorem mem_capabilityPlaces (h : offset < 0x100 ∧ 4 ∣ offset) (hheader : 0x40 ≤ offset) :
    offset ∈ capabilityPlaces := by
  obtain ⟨k, rfl⟩ := h.2
  exact Finset.mem_image.mpr ⟨k - 16, Finset.mem_range.mpr (by omega), by omega⟩

/-- The pointer of the header is masked. -/
theorem capPointer_masked (cfg : ℕ → BitVec 16) :
    capPointer cfg < 0x100 ∧ 4 ∣ capPointer cfg := by
  unfold capPointer
  rw [BitVec.toNat_and]
  exact masked_pointer _

/-- The pointer of a capability is masked. -/
theorem next_masked (header : BitVec 16) :
    ((header >>> 8) &&& 0xFC).toNat < 0x100 ∧ 4 ∣ ((header >>> 8) &&& 0xFC).toNat := by
  rw [BitVec.toNat_and]
  exact masked_pointer _

/-- The whole chain lies in the places. -/
theorem capability_mem (k : ℕ) {a : ℕ} (h : capability cfg k = some a) : a ∈ capabilityPlaces := by
  cases k with
  | zero =>
    obtain ⟨rfl, hheader, -⟩ := capabilityAt_eq_some.mp h
    exact mem_capabilityPlaces (capPointer_masked cfg) hheader
  | succ k =>
    obtain ⟨b, -, hnext⟩ := Option.bind_eq_some_iff.mp h
    obtain ⟨rfl, hheader, -⟩ := capabilityAt_eq_some.mp hnext
    exact mem_capabilityPlaces (next_masked _) hheader

/-- The walk of the driver is the search along the chain. -/
theorem capWalk_offset (hbus : c.busInterfaceValid = true) :
    (capWalk c steps offset).offset =
      (chainSearch (nextCapability c.cfg) (isPcieCap c.cfg) steps
        (capabilityAt c.cfg offset)).getD 0 := by
  induction steps generalizing offset with
  | zero => rfl
  | succ steps ih =>
    have hread : ttCfgReadWord c offset = some (c.cfg offset) := if_pos hbus
    rw [capWalk]
    by_cases hheader : 0x40 ≤ offset
    · rw [dif_pos hheader, hread]
      dsimp only
      by_cases hdead : c.cfg offset = 0xFFFF
      · rw [if_pos hdead, capabilityAt, if_neg fun h => h.2 hdead]
        rfl
      · have hcap : capabilityAt c.cfg offset = some offset :=
          capabilityAt_eq_some.mpr ⟨rfl, hheader, hdead⟩
        rw [if_neg hdead, hcap, chainSearch]
        by_cases hfound : c.cfg offset &&& 0xFF = 0x10
        · have hpcie : isPcieCap c.cfg offset = true := by simpa [isPcieCap] using hfound
          rw [if_pos hfound, if_pos hpcie]
          rfl
        · have hother : ¬ isPcieCap c.cfg offset = true := by simpa [isPcieCap] using hfound
          rw [if_neg hfound, if_neg hother, ih]
          rfl
    · rw [dif_neg hheader, capabilityAt, if_neg fun h => hheader h.1]
      rfl

/-- A capability lies behind the header. -/
theorem FirstPcieCap.le_offset (h : FirstPcieCap cfg offset) : 0x40 ≤ offset := by
  obtain ⟨k, hk, -⟩ := h
  obtain ⟨i, -, rfl⟩ := Finset.mem_image.mp (capability_mem k hk)
  exact Nat.le_add_right _ _

/-- A search of 48 steps or more finds the first PCI Express capability of the whole chain. -/
theorem capSearch_complete (hsteps : 48 ≤ steps) :
    chainSearch (nextCapability cfg) (isPcieCap cfg) steps (capabilityAt cfg (capPointer cfg)) =
      some offset ↔ FirstPcieCap cfg offset := by
  apply chainSearch_complete (s := capabilityPlaces)
  · intro k a hk
    exact capability_mem k hk
  · calc capabilityPlaces.card ≤ (Finset.range 48).card := Finset.card_image_le
      _ ≤ steps := by rwa [Finset.card_range]

/-- There is a first PCI Express capability when there is any. -/
theorem exists_firstPcieCap_iff :
    (∃ o, FirstPcieCap cfg o) ↔ ∃ k o, capability cfg k = some o ∧ isPcieCap cfg o = true :=
  exists_firstOnChain_iff

/-- The place of the walk that ends with a capability. -/
theorem capWalk_offset_iff (hbus : c.busInterfaceValid = true) (hsteps : 48 ≤ steps)
    (hoffset : offset ≠ 0) :
    (capWalk c steps (capPointer c.cfg)).offset = offset ↔ FirstPcieCap c.cfg offset := by
  rw [capWalk_offset hbus, ← capSearch_complete hsteps]
  cases hfound : chainSearch (nextCapability c.cfg) (isPcieCap c.cfg) steps
      (capabilityAt c.cfg (capPointer c.cfg)) with
  | none => simpa using hoffset.symm
  | some a => simp

/-- The walk that ends without a capability. -/
theorem capWalk_zero_iff (hbus : c.busInterfaceValid = true) (hsteps : 48 ≤ steps) :
    (capWalk c steps (capPointer c.cfg)).offset = 0 ↔ ∀ o, ¬ FirstPcieCap c.cfg o := by
  constructor
  · intro hzero o ho
    have hheader := ho.le_offset
    have hoffset := (capWalk_offset_iff hbus hsteps (by omega)).mpr ho
    omega
  · intro hnone
    by_contra hoffset
    exact hnone _ ((capWalk_offset_iff hbus hsteps hoffset).mp rfl)

/-- The limit of 48 steps makes no difference. -/
theorem capWalk_limit (hbus : c.busInterfaceValid = true) (hsteps : 48 ≤ steps) :
    (capWalk c steps (capPointer c.cfg)).offset =
      (capWalk c 48 (capPointer c.cfg)).offset := by
  by_cases hzero : (capWalk c 48 (capPointer c.cfg)).offset = 0
  · rw [hzero, capWalk_zero_iff hbus hsteps, ← capWalk_zero_iff hbus le_rfl, hzero]
  · rw [capWalk_offset_iff hbus hsteps hzero, ← capWalk_offset_iff hbus le_rfl hzero]

/-- The walk reads inside the configuration space. -/
theorem capVisits_inRange (hoffset : offset < 0x100 ∧ 4 ∣ offset) :
    ∀ o ∈ capVisits cfg steps offset, o + 2 ≤ 0x100 := by
  induction steps generalizing offset with
  | zero => intro o ho; cases ho
  | succ steps ih =>
    intro o ho
    rw [capVisits] at ho
    split at ho
    · rcases List.mem_cons.mp ho with rfl | hrest
      · omega
      · split at hrest
        · cases hrest
        · exact ih (next_masked _) o hrest
    · cases ho

/-- `TtDiscoverPcieCap` when the configuration space can be read. -/
theorem ttDiscoverPcieCap_offset (hbus : c.busInterfaceValid = true) :
    (ttDiscoverPcieCap c).pcieCapOffset.offset =
      if NoCapList c.cfg then 0 else (capWalk c 48 (capPointer c.cfg)).offset := by
  have hstatus : ttCfgReadWord c 0x06 = some (c.cfg 0x06) := if_pos hbus
  have hpointer : ttCfgReadDword c 0x34 = some (c.cfg (0x34 + 2) ++ c.cfg 0x34) := if_pos hbus
  unfold ttDiscoverPcieCap
  rw [hstatus, hpointer]
  exact apply_ite CapOffset.offset (NoCapList c.cfg) _ _

end Walk

/-! ## The result -/

/-- `TtDiscoverPcieCap` finds the first PCI Express capability of the chain, whatever the
device answers, and nothing exactly when there is no chain or none on it. A larger limit on the
steps would change nothing, and every header it reads is in the configuration space. -/
theorem pcie_cap_discovered (c : ConfigState) (hbus : c.busInterfaceValid = true) :
    (∀ o, o ≠ 0 → ((ttDiscoverPcieCap c).pcieCapOffset.offset = o ↔
        ¬ NoCapList c.cfg ∧ FirstPcieCap c.cfg o)) ∧
      ((ttDiscoverPcieCap c).pcieCapOffset.offset = 0 ↔
        NoCapList c.cfg ∨ ∀ k o, capability c.cfg k = some o → isPcieCap c.cfg o = false) ∧
      (∀ steps, 48 ≤ steps → (capWalk c steps (capPointer c.cfg)).offset =
        (capWalk c 48 (capPointer c.cfg)).offset) ∧
      ∀ o ∈ capVisits c.cfg 48 (capPointer c.cfg), o + 2 ≤ 0x100 := by
  refine ⟨?_, ?_, fun steps hsteps => capWalk_limit hbus hsteps,
    capVisits_inRange (capPointer_masked c.cfg)⟩
  · intro o ho
    rw [ttDiscoverPcieCap_offset hbus]
    by_cases hlist : NoCapList c.cfg
    · rw [if_pos hlist]
      exact ⟨fun h => absurd h.symm ho, fun h => absurd hlist h.1⟩
    · rw [if_neg hlist, capWalk_offset_iff hbus le_rfl ho]
      exact ⟨fun h => ⟨hlist, h⟩, And.right⟩
  · rw [ttDiscoverPcieCap_offset hbus]
    by_cases hlist : NoCapList c.cfg
    · rw [if_pos hlist]
      exact ⟨fun _ => .inl hlist, fun _ => rfl⟩
    · have hnone : (∀ o, ¬ FirstPcieCap c.cfg o) ↔
          ∀ k o, capability c.cfg k = some o → isPcieCap c.cfg o = false := by
        rw [← not_exists, exists_firstPcieCap_iff]
        simp
      rw [if_neg hlist, capWalk_zero_iff hbus le_rfl, hnone]
      exact ⟨.inr, fun h => h.resolve_left hlist⟩

/-- A device whose chain visits every place, with the PCI Express capability at the last one. -/
def crowdedConfig : ConfigState where
  busInterfaceValid := true
  cfg := fun o =>
    if o = 0x06 then 0x0010
    else if o = 0x34 then 0x40
    else if o = 0xFC then 0x4010
    else BitVec.ofNat 16 ((o + 4) * 0x100 + 0x09)
  pcieCapOffset := .none
  savedStateValid := false
  savedHeaderDword := fun _ => 0
  savedPcieDevCtl := 0
  savedPcieLnkCtl := 0

/-- The walk takes all its 48 steps and finds the capability. -/
theorem pcie_cap_discovered_crowded :
    (ttDiscoverPcieCap crowdedConfig).pcieCapOffset.offset = 0xFC ∧
      FirstPcieCap crowdedConfig.cfg 0xFC := by
  have hoffset : (ttDiscoverPcieCap crowdedConfig).pcieCapOffset.offset = 0xFC := by
    decide +kernel
  exact ⟨hoffset, (((pcie_cap_discovered crowdedConfig rfl).1 0xFC (by decide)).mp hoffset).2⟩

end TtKmd
