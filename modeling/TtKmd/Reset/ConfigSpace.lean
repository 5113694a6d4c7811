import Mathlib.Data.BitVec
import Mathlib.Logic.Function.Basic

/-!
# The configuration space of the device

The reset flavors work on the PCI configuration space: they set the parity bit of the
Command register as a marker, trigger a reset through a vendor register, and rewrite the
writable header from a snapshot. A register keeps what is written to it. A chip reset is
an event outside the driver; it brings Command back to its default, where the marker is
clear.

Words are addressed by their even byte offset. Without the bus interface of the parent
no access happens at all.
-/

namespace TtKmd

/-- The place of the PCI Express capability; 0 stands for none. -/
structure CapOffset where
  /-- The offset. -/
  offset : ℕ
  /-- A capability lies behind the header. -/
  valid : offset = 0 ∨ 0x40 ≤ offset

/-- No capability was found. -/
def CapOffset.none : CapOffset := ⟨0, .inl rfl⟩

/-- The configuration space, and what the driver remembers of it. -/
structure ConfigState where
  /-- `BusInterfaceValid`. -/
  busInterfaceValid : Bool
  /-- The registers of the device. -/
  cfg : ℕ → BitVec 16
  /-- `PcieCapOffset`. -/
  pcieCapOffset : CapOffset
  /-- `SavedStateValid`. -/
  savedStateValid : Bool
  /-- `SavedHeaderDword`. -/
  savedHeaderDword : ℕ → BitVec 32
  /-- `SavedPcieDevCtl`. -/
  savedPcieDevCtl : BitVec 16
  /-- `SavedPcieLnkCtl`. -/
  savedPcieLnkCtl : BitVec 16

/-- `TT_PCI_COMMAND`. -/
def pciCommand : ℕ := 0x04

/-- `TT_PCI_COMMAND_PARITY`. -/
def pciCommandParity : BitVec 16 := 0x40

/-- `TT_PCI_VENDOR_ID`. -/
def pciVendorId : BitVec 16 := 0x1E52

/-- `TtCfgReadWord`; `none` is a read that fails. -/
def ttCfgReadWord (c : ConfigState) (offset : ℕ) : Option (BitVec 16) :=
  if c.busInterfaceValid then some (c.cfg offset) else none

/-- `TtCfgReadDword`. -/
def ttCfgReadDword (c : ConfigState) (offset : ℕ) : Option (BitVec 32) :=
  if c.busInterfaceValid then some (c.cfg (offset + 2) ++ c.cfg offset) else none

/-- `TtCfgWriteWord`. -/
def ttCfgWriteWord (c : ConfigState) (offset : ℕ) (value : BitVec 16) : ConfigState :=
  if c.busInterfaceValid then { c with cfg := Function.update c.cfg offset value } else c

/-- `TtCfgWriteDword`. -/
def ttCfgWriteDword (c : ConfigState) (offset : ℕ) (value : BitVec 32) : ConfigState :=
  ttCfgWriteWord (ttCfgWriteWord c offset (value.setWidth 16)) (offset + 2)
    ((value >>> 16).setWidth 16)

/-- `TtSetResetMarker`, and `TtBhSetResetMarker`. -/
def ttSetResetMarker (c : ConfigState) : ConfigState :=
  match ttCfgReadWord c pciCommand with
  | some command => ttCfgWriteWord c pciCommand (command ||| pciCommandParity)
  | none => c

/-- `TtIsResetMarkerZero`. -/
def ttIsResetMarkerZero (c : ConfigState) : Bool :=
  match ttCfgReadWord c pciCommand with
  | some command => command &&& pciCommandParity == 0
  | none => false

/-- `TtPcieTimerInterrupt`, and `TtBhTimerInterrupt`. -/
def ttPcieTimerInterrupt (c : ConfigState) : Bool × ConfigState :=
  (true, ttCfgWriteDword (ttCfgWriteDword c 0x934 0x1) 0x930 0x11)

/-- The walk over the capability list, with the steps left. -/
def capWalk (c : ConfigState) : ℕ → ℕ → CapOffset
  | 0, _ => .none
  | steps + 1, offset =>
      if h : 0x40 ≤ offset then
        match ttCfgReadWord c offset with
        | none => .none
        | some capHeader =>
            if capHeader = 0xFFFF then .none
            else if capHeader &&& 0xFF = 0x10 then ⟨offset, .inr h⟩
            else capWalk c steps ((capHeader >>> 8) &&& 0xFC).toNat
      else .none

/-- `TtDiscoverPcieCap`. -/
def ttDiscoverPcieCap (c : ConfigState) : ConfigState :=
  { c with
    pcieCapOffset :=
      match ttCfgReadWord c 0x06, ttCfgReadDword c 0x34 with
      | some statusReg, some capPtrDword =>
          if statusReg = 0xFFFF ∨ statusReg &&& 0x0010 = 0 then .none
          else capWalk c 48 (capPtrDword &&& 0xFC).toNat
      | _, _ => .none }

/-- The part of `TtPciSaveState` behind the test of the bus interface: the header, the
place of the capability and two of its registers. -/
def savedState (c : ConfigState) : ConfigState :=
  let c := ttDiscoverPcieCap { c with
    savedHeaderDword := fun i =>
      if i < 16 then (ttCfgReadDword c (i * 4)).getD 0xFFFFFFFF else c.savedHeaderDword i }
  if c.pcieCapOffset.offset ≠ 0 then
    { c with
      savedPcieDevCtl := c.cfg (c.pcieCapOffset.offset + 0x08)
      savedPcieLnkCtl := c.cfg (c.pcieCapOffset.offset + 0x10)
      savedStateValid := true }
  else { c with savedStateValid := true }

/-- `TtPciSaveState`. -/
def ttPciSaveState (c : ConfigState) : ConfigState :=
  if c.busInterfaceValid then savedState c else { c with savedStateValid := false }

/-- A value of the snapshot. -/
inductive SavedValue
  /-- `SavedHeaderDword[i]`. -/
  | header (i : ℕ)
  /-- `SavedPcieDevCtl`. -/
  | devCtl
  /-- `SavedPcieLnkCtl`. -/
  | lnkCtl
  deriving DecidableEq

/-- What the snapshot holds. -/
def ConfigState.saved (c : ConfigState) : SavedValue → BitVec 32
  | .header i => c.savedHeaderDword i
  | .devCtl => c.savedPcieDevCtl.setWidth 32
  | .lnkCtl => c.savedPcieLnkCtl.setWidth 32

/-- A write of `TtSafeRestoreState`. -/
structure RestoreWrite where
  /-- The register. -/
  offset : ℕ
  /-- `TtCfgWriteDword`, not `TtCfgWriteWord`. -/
  wide : Bool
  /-- The value that is written, or the lower half of it. -/
  source : SavedValue

/-- The writes of `TtSafeRestoreState`, in their order. -/
def restoreWrites (c : ConfigState) : List RestoreWrite :=
  ([0x10, 0x14, 0x18, 0x1C, 0x20, 0x24, 0x30, 0x0C].map fun offset =>
    ⟨offset, true, .header (offset / 4)⟩) ++
  ⟨0x3C, false, .header (0x3C / 4)⟩ ::
  (if c.pcieCapOffset.offset ≠ 0 then
    [⟨c.pcieCapOffset.offset + 0x08, false, .devCtl⟩,
      ⟨c.pcieCapOffset.offset + 0x10, false, .lnkCtl⟩]
  else []) ++
  [⟨pciCommand, false, .header (pciCommand / 4)⟩]

/-- One write. -/
def RestoreWrite.perform (c : ConfigState) (x : RestoreWrite) : ConfigState :=
  if x.wide then ttCfgWriteDword c x.offset (c.saved x.source)
  else ttCfgWriteWord c x.offset ((c.saved x.source).setWidth 16)

/-- `TtSafeRestoreState`. -/
def ttSafeRestoreState (c : ConfigState) : Bool × ConfigState :=
  if ttCfgReadWord c 0x00 ≠ some pciVendorId then (false, c)
  else if !c.savedStateValid then (false, c)
  else (true, ttPciSaveState ((restoreWrites c).foldl RestoreWrite.perform c))

/-- `TtBhReset`; `test` says that the firmware answers the `TEST` message. -/
def ttBhReset (c : ConfigState) (flags : ℕ) (test : Bool) : Bool × ConfigState :=
  if flags = 5 then
    if !test then (false, c)
    else (true, ttSetResetMarker c)
  else ttPcieTimerInterrupt (ttSetResetMarker c)

/-- `TtBhInitHardware`: the read request size; its messages do not reach the
configuration space. -/
def ttBhInitHardware (c : ConfigState) : Bool × ConfigState :=
  if c.pcieCapOffset.offset ≠ 0 then
    match ttCfgReadWord c (c.pcieCapOffset.offset + 0x08) with
    | some devCtl =>
        if devCtl ≠ 0xFFFF then
          (true, ttCfgWriteWord c (c.pcieCapOffset.offset + 0x08)
            ((devCtl &&& ~~~0x7000#16) ||| (5#16 <<< 12)))
        else (true, c)
    | none => (true, c)
  else (true, c)

/-- The marker: the parity bit of Command is set. -/
def ConfigState.Marker (c : ConfigState) : Prop := c.cfg pciCommand &&& pciCommandParity ≠ 0

instance (c : ConfigState) : Decidable c.Marker :=
  inferInstanceAs (Decidable (c.cfg pciCommand &&& pciCommandParity ≠ 0))

/-- The Command register of the snapshot. -/
def ConfigState.savedCommand (c : ConfigState) : BitVec 16 :=
  (c.savedHeaderDword (pciCommand / 4)).setWidth 16

/-- The marker is set in the snapshot. -/
def ConfigState.MarkerSaved (c : ConfigState) : Prop := c.savedCommand &&& pciCommandParity ≠ 0

instance (c : ConfigState) : Decidable c.MarkerSaved :=
  inferInstanceAs (Decidable (c.savedCommand &&& pciCommandParity ≠ 0))

/-- What accesses beside Command leave alone: Command, and the snapshot of the header. -/
structure CommandKept (c c' : ConfigState) : Prop where
  /-- `BusInterfaceValid`. -/
  busInterfaceValid : c'.busInterfaceValid = c.busInterfaceValid
  /-- The Command register. -/
  command : c'.cfg pciCommand = c.cfg pciCommand
  /-- `SavedStateValid`. -/
  savedStateValid : c'.savedStateValid = c.savedStateValid
  /-- `SavedHeaderDword`. -/
  savedHeaderDword : c'.savedHeaderDword = c.savedHeaderDword
  /-- `PcieCapOffset`. -/
  pcieCapOffset : c'.pcieCapOffset = c.pcieCapOffset

section Accesses

variable {c c' c'' : ConfigState} {offset : ℕ}

/-- Nothing is accessed. -/
theorem CommandKept.refl (c : ConfigState) : CommandKept c c := ⟨rfl, rfl, rfl, rfl, rfl⟩

/-- Two accesses in a row. -/
theorem CommandKept.trans (h : CommandKept c c') (h' : CommandKept c' c'') : CommandKept c c'' where
  busInterfaceValid := h'.busInterfaceValid.trans h.busInterfaceValid
  command := h'.command.trans h.command
  savedStateValid := h'.savedStateValid.trans h.savedStateValid
  savedHeaderDword := h'.savedHeaderDword.trans h.savedHeaderDword
  pcieCapOffset := h'.pcieCapOffset.trans h.pcieCapOffset

/-- The marker stays as it is. -/
theorem CommandKept.marker_iff (h : CommandKept c c') : c'.Marker ↔ c.Marker := by
  unfold ConfigState.Marker
  rw [h.command]

/-- A word is written beside Command. -/
theorem commandKept_writeWord (c : ConfigState) (hne : offset ≠ pciCommand) (value : BitVec 16) :
    CommandKept c (ttCfgWriteWord c offset value) := by
  unfold ttCfgWriteWord
  split
  · exact ⟨rfl, Function.update_of_ne hne.symm _ _, rfl, rfl, rfl⟩
  · exact .refl c

/-- Two words are written beside Command. -/
theorem commandKept_writeDword (c : ConfigState) (hne : offset ≠ pciCommand)
    (hne' : offset + 2 ≠ pciCommand) (value : BitVec 32) :
    CommandKept c (ttCfgWriteDword c offset value) :=
  (commandKept_writeWord c hne _).trans (commandKept_writeWord _ hne' _)

/-- The trigger does not touch Command. -/
theorem commandKept_timerInterrupt (c : ConfigState) :
    CommandKept c (ttPcieTimerInterrupt c).2 :=
  (commandKept_writeDword c (by decide) (by decide) _).trans
    (commandKept_writeDword _ (by decide) (by decide) _)

/-- The registers of the capability lie behind Command. -/
theorem CapOffset.ne_command (cap : CapOffset) (hcap : cap.offset ≠ 0) (k : ℕ) :
    cap.offset + k ≠ pciCommand := by
  have hvalid := cap.valid
  unfold pciCommand
  omega

/-- The initialisation does not touch Command. -/
theorem commandKept_initHardware (c : ConfigState) : CommandKept c (ttBhInitHardware c).2 := by
  unfold ttBhInitHardware
  split
  · rename_i hcap
    split
    · split
      · exact commandKept_writeWord c (c.pcieCapOffset.ne_command hcap _) _
      · exact .refl c
    · exact .refl c
  · exact .refl c

/-- The initialisation always succeeds. -/
theorem ttBhInitHardware_fst (c : ConfigState) : (ttBhInitHardware c).1 = true := by
  unfold ttBhInitHardware
  split
  · split
    · split <;> rfl
    · rfl
  · rfl

/-- Writes of a restore beside Command. -/
theorem commandKept_perform (writes : List RestoreWrite) (c : ConfigState)
    (hwrites : ∀ x ∈ writes, x.offset ≠ pciCommand ∧ x.offset + 2 ≠ pciCommand) :
    CommandKept c (writes.foldl RestoreWrite.perform c) := by
  induction writes generalizing c with
  | nil => exact .refl c
  | cons x writes ih =>
    obtain ⟨hlow, hhigh⟩ := hwrites x (List.mem_cons_self ..)
    have hfirst : CommandKept c (x.perform c) := by
      unfold RestoreWrite.perform
      split
      · exact commandKept_writeDword c hlow hhigh _
      · exact commandKept_writeWord c hlow _
    exact hfirst.trans (ih _ fun y hy => hwrites y (List.mem_cons_of_mem _ hy))

/-- The writes of a restore end with the one to Command, and the others do not touch it. -/
theorem restoreWrites_command (c : ConfigState) :
    ∃ before, restoreWrites c = before ++ [⟨pciCommand, false, .header (pciCommand / 4)⟩] ∧
      ∀ x ∈ before, x.offset ≠ pciCommand ∧ x.offset + 2 ≠ pciCommand := by
  refine ⟨_, rfl, fun x hx => ?_⟩
  rcases List.mem_append.mp hx with hx | hx
  · obtain ⟨offset, hoffset, rfl⟩ := List.mem_map.mp hx
    have hother : ∀ o ∈ [0x10, 0x14, 0x18, 0x1C, 0x20, 0x24, 0x30, 0x0C],
        o ≠ pciCommand ∧ o + 2 ≠ pciCommand := by decide
    exact hother offset hoffset
  rcases List.mem_cons.mp hx with rfl | hx
  · decide
  split at hx
  · rename_i hcap
    have hcapability : ∀ k, c.pcieCapOffset.offset + k ≠ pciCommand ∧
        c.pcieCapOffset.offset + k + 2 ≠ pciCommand :=
      fun k => ⟨c.pcieCapOffset.ne_command hcap k, c.pcieCapOffset.ne_command hcap (k + 2)⟩
    rcases List.mem_pair.mp hx with rfl | rfl
    · exact hcapability 0x08
    · exact hcapability 0x10
  · cases hx

/-- What a snapshot leaves alone. -/
theorem ttPciSaveState_cfg (c : ConfigState) :
    (ttPciSaveState c).cfg = c.cfg ∧
      (ttPciSaveState c).busInterfaceValid = c.busInterfaceValid := by
  unfold ttPciSaveState
  split
  · unfold savedState
    dsimp only
    split <;> exact ⟨rfl, rfl⟩
  · exact ⟨rfl, rfl⟩

/-- The marker is set afterwards, if the configuration space can be accessed at all. -/
theorem marker_setResetMarker (hbus : c.busInterfaceValid = true) :
    (ttSetResetMarker c).Marker := by
  simp only [ttSetResetMarker, ttCfgReadWord, ttCfgWriteWord, hbus, if_true, ConfigState.Marker,
    Function.update_self]
  intro hzero
  have hor : (c.cfg pciCommand &&& pciCommandParity) |||
      (pciCommandParity &&& pciCommandParity) = 0#16 := by
    rw [← BitVec.and_or_distrib_right]
    exact hzero
  exact absurd (BitVec.or_eq_zero_iff.mp hor).2 (by decide)

/-- Setting the marker touches Command only. -/
theorem ttSetResetMarker_saved (c : ConfigState) :
    (ttSetResetMarker c).busInterfaceValid = c.busInterfaceValid ∧
      (ttSetResetMarker c).savedStateValid = c.savedStateValid ∧
      (ttSetResetMarker c).pcieCapOffset = c.pcieCapOffset := by
  unfold ttSetResetMarker ttCfgReadWord ttCfgWriteWord
  cases hbus : c.busInterfaceValid <;> simp [hbus]

/-- The marker is found clear only if the bus interface is there. -/
theorem ttIsResetMarkerZero_iff :
    ttIsResetMarkerZero c = true ↔ c.busInterfaceValid = true ∧ ¬ c.Marker := by
  unfold ttIsResetMarkerZero ttCfgReadWord ConfigState.Marker
  cases hbus : c.busInterfaceValid <;> simp

/-- What `TtSafeRestoreState` asks for. -/
def ConfigState.Restorable (c : ConfigState) : Prop :=
  ttCfgReadWord c 0x00 = some pciVendorId ∧ c.savedStateValid = true

instance (c : ConfigState) : Decidable c.Restorable := inferInstanceAs (Decidable (_ ∧ _))

/-- Everything `TtSafeRestoreState` can do. -/
theorem ttSafeRestoreState_cases (c : ConfigState) :
    (¬ c.Restorable ∧ ttSafeRestoreState c = (false, c)) ∨
      (c.Restorable ∧ (ttSafeRestoreState c).1 = true ∧
        ((ttSafeRestoreState c).2.Marker ↔ c.MarkerSaved) ∧
        (ttSafeRestoreState c).2.busInterfaceValid = c.busInterfaceValid) := by
  unfold ttSafeRestoreState
  split
  · rename_i hvendor
    exact .inl ⟨fun h => hvendor h.1, rfl⟩
  rename_i hvendor
  split
  · rename_i hsaved
    refine .inl ⟨?_, rfl⟩
    rintro ⟨-, h⟩
    simp [h] at hsaved
  · rename_i hsaved
    have hbus : c.busInterfaceValid = true := by
      by_contra hno
      simp [ttCfgReadWord, hno] at hvendor
    obtain ⟨before, hwrites, hbefore⟩ := restoreWrites_command c
    have hkept := commandKept_perform before c hbefore
    refine .inr ⟨⟨not_not.mp hvendor, by simpa using hsaved⟩, rfl, ?_, ?_⟩
    · unfold ConfigState.Marker ConfigState.MarkerSaved ConfigState.savedCommand
      rw [(ttPciSaveState_cfg _).1, hwrites, List.foldl_concat]
      simp only [RestoreWrite.perform, ConfigState.saved, Bool.false_eq_true, if_false,
        ttCfgWriteWord, hkept.busInterfaceValid, hbus, if_true, Function.update_self,
        hkept.savedHeaderDword]
    · rw [(ttPciSaveState_cfg _).2, hwrites, List.foldl_concat]
      simp only [RestoreWrite.perform, Bool.false_eq_true, if_false, ttCfgWriteWord,
        hkept.busInterfaceValid, hbus, if_true]

end Accesses

end TtKmd
