import TtKmd.Memory.State
import TtKmd.Arc.Queue

/-!
# The power state of a device

Each handle stores a contribution to the power state: feature flags, and settings with a
count of those that are meant. The driver aggregates the contributions of the handles of
the current reset generation and sends the aggregate to the firmware in one
`POWER_SETTING` message. A flag is on in the aggregate when some handle asks for it or
does not know it; a setting is the largest one asked for.
-/

namespace TtKmd

/-- The power part of `TT_FILE_CONTEXT`. -/
structure FilePower where
  /-- `PowerContributes`. -/
  contributes : Bool
  /-- `PowerValidity`. -/
  validity : ℕ
  /-- `PowerFlags`. -/
  flags : BitVec 16
  /-- `PowerSettings`. -/
  settings : Fin 14 → ℕ

/-- `TT_POWER_VALIDITY`. -/
def ttPowerValidity (f s : ℕ) : ℕ := (f &&& 0xF) ||| ((s &&& 0xF) <<< 4)

/-- `TT_POWER_FLAG_ALL`. -/
def powerFlagAll : BitVec 16 := 0x7FFF

/-- `TT_POWER_FLAG_MAX_AI_CLK`. -/
def powerFlagMaxAiClk : BitVec 16 := 1

/-- The contribution of a file object that has none yet. -/
def FilePower.init : FilePower := ⟨false, 0, 0, fun _ => 0⟩

/-- `TtPowerFileDefault`. -/
def ttPowerFileDefault : FilePower :=
  ⟨true, ttPowerValidity 15 0, powerFlagAll &&& ~~~powerFlagMaxAiClk, fun _ => 0⟩

/-- `flagsCount` of a contribution. -/
def FilePower.flagsCount (p : FilePower) : ℕ := p.validity &&& 0xF

/-- `settingsCount` of a contribution, before it is clamped to the length of the array. -/
def FilePower.settingsCount (p : FilePower) : ℕ := (p.validity >>> 4) &&& 0xF

/-- `effectiveFlags`: the flags behind `flagsCount` are on. -/
def FilePower.effectiveFlags (p : FilePower) : BitVec 16 :=
  p.flags ||| (~~~((1#16 <<< p.flagsCount) - 1) &&& powerFlagAll)

/-- The local variables of `TtPowerAggregate`. -/
structure PowerAggregate where
  /-- `aggFlags`. -/
  flags : BitVec 16
  /-- `aggSettings`. -/
  settings : Fin 14 → ℕ
  /-- `maxSettingsCount`. -/
  maxSettingsCount : ℕ

/-- The aggregate of no handle. -/
def PowerAggregate.empty : PowerAggregate := ⟨0, fun _ => 0, 0⟩

/-- One contribution is added: the body of the loop of `TtPowerAggregate`. -/
def PowerAggregate.add (a : PowerAggregate) (p : FilePower) : PowerAggregate where
  flags := a.flags ||| p.effectiveFlags
  settings := fun i =>
    if i < p.settingsCount ∧ p.settings i > a.settings i then p.settings i else a.settings i
  maxSettingsCount :=
    if p.settingsCount > a.maxSettingsCount then p.settingsCount else a.maxSettingsCount

/-- The loop of `TtPowerAggregate` over the file list, with the generation it read. -/
def powerAggregate (power : Handle → FilePower) (openResetGen : Handle → ℕ) (gen : ℕ)
    (fileList : List Handle) : PowerAggregate :=
  fileList.foldl (fun a F =>
    if !(power F).contributes || openResetGen F != gen then a else a.add (power F)) .empty

/-- `TT_ARC_MSG_TYPE_POWER_SETTING`. -/
def arcMsgPowerSetting : ℕ := 0x21

/-- The message of `TtPowerAggregate`: the header packs the type, the validity and the
flags, and the payload has the settings, two in a word. -/
def powerMessage (a : PowerAggregate) : ArcMsg
  | 0 => arcMsgPowerSetting ||| (ttPowerValidity 15 a.maxSettingsCount <<< 8) |||
      (a.flags.toNat <<< 16)
  | 1 => a.settings 0 ||| (a.settings 1 <<< 16)
  | 2 => a.settings 2 ||| (a.settings 3 <<< 16)
  | 3 => a.settings 4 ||| (a.settings 5 <<< 16)
  | 4 => a.settings 6 ||| (a.settings 7 <<< 16)
  | 5 => a.settings 8 ||| (a.settings 9 <<< 16)
  | 6 => a.settings 10 ||| (a.settings 11 <<< 16)
  | 7 => a.settings 12 ||| (a.settings 13 <<< 16)

/-- `tenstorrent_power_state`. -/
structure PowerStateIn where
  /-- `argsz`. -/
  argsz : ℕ
  /-- `flags`. -/
  flags : ℕ
  /-- `reserved0`. -/
  reserved0 : ℕ
  /-- `validity`. -/
  validity : ℕ
  /-- `power_flags`. -/
  powerFlags : BitVec 16
  /-- `power_settings`. -/
  powerSettings : Fin 14 → ℕ

/-- The checks of `TtIoctlSetPowerState`. -/
def setPowerStateCheck (io : Io) (i : PowerStateIn) : NtStatus :=
  if ttCopyInBuffer io 40 ≠ .success then .accessViolation
  else if i.argsz ≠ 40 then .invalidParameter
  else if i.flags ≠ 0 ∨ i.reserved0 ≠ 0 then .invalidParameter
  else if i.validity > ttPowerValidity 15 14 then .invalidParameter
  else .success

/-- The contribution that `TtIoctlSetPowerState` stores. -/
def PowerStateIn.contribution (i : PowerStateIn) : FilePower :=
  ⟨true, i.validity, i.powerFlags, i.powerSettings⟩

section Meaning

variable {power : Handle → FilePower} {openResetGen : Handle → ℕ} {gen : ℕ}

/-- The handles whose contributions count. -/
def contributors (power : Handle → FilePower) (openResetGen : Handle → ℕ) (gen : ℕ)
    (fileList : List Handle) : List Handle :=
  fileList.filter fun F => (power F).contributes && openResetGen F == gen

/-- The aggregate of some contributions. -/
def aggregateOf (ps : List FilePower) : PowerAggregate := ps.foldl PowerAggregate.add .empty

/-- The loop aggregates the contributions that count, and no others. -/
theorem powerAggregate_eq (fileList : List Handle) :
    powerAggregate power openResetGen gen fileList =
      aggregateOf ((contributors power openResetGen gen fileList).map power) := by
  have hfold : ∀ (l : List Handle) (a : PowerAggregate),
      l.foldl (fun a F =>
        if !(power F).contributes || openResetGen F != gen then a else a.add (power F)) a =
      ((contributors power openResetGen gen l).map power).foldl PowerAggregate.add a := by
    intro l
    induction l with
    | nil => exact fun _ => rfl
    | cons F l ih =>
      intro a
      rw [List.foldl_cons, ih]
      by_cases hF : ((power F).contributes && openResetGen F == gen) = true
      · have hskip : (!(power F).contributes || openResetGen F != gen) = false := by
          simp only [Bool.and_eq_true, beq_iff_eq] at hF
          simp [hF.1, hF.2]
        simp [contributors, hF, hskip]
      · have hskip : (!(power F).contributes || openResetGen F != gen) = true := by
          simp only [Bool.and_eq_true, beq_iff_eq, not_and] at hF
          cases hc : (power F).contributes with
          | false => rfl
          | true => simpa using hF hc
        simp [contributors, hF, hskip]
  exact hfold fileList .empty

/-- A flag is on in the aggregate when it is on for some contribution. -/
theorem aggregateOf_flags (ps : List FilePower) (b : ℕ) :
    (aggregateOf ps).flags.getLsbD b = true ↔ ∃ p ∈ ps, p.effectiveFlags.getLsbD b = true := by
  have hadd : ∀ (a : PowerAggregate) (p : FilePower), (a.add p).flags.getLsbD b = true ↔
      a.flags.getLsbD b = true ∨ p.effectiveFlags.getLsbD b = true := by
    simp [PowerAggregate.add]
  refine (Lib.foldl_iff_exists (fun a : PowerAggregate => a.flags.getLsbD b = true) hadd ps
    .empty).trans ?_
  simp [PowerAggregate.empty]

/-- A setting of the aggregate is an upper bound of those asked for, and the least one. -/
theorem aggregateOf_settings (ps : List FilePower) (i : Fin 14) (bound : ℕ) :
    (aggregateOf ps).settings i ≤ bound ↔
      ∀ p ∈ ps, (i : ℕ) < p.settingsCount → p.settings i ≤ bound := by
  have hadd : ∀ (a : PowerAggregate) (p : FilePower), (a.add p).settings i ≤ bound ↔
      a.settings i ≤ bound ∧ ((i : ℕ) < p.settingsCount → p.settings i ≤ bound) := by
    intro a p
    simp only [PowerAggregate.add]
    split <;> omega
  refine (Lib.foldl_iff_forall (fun a : PowerAggregate => a.settings i ≤ bound) hadd ps
    .empty).trans ?_
  simp [PowerAggregate.empty]

/-- A stored contribution names settings that exist. -/
theorem settingsCount_contribution {io : Io} {i : PowerStateIn}
    (h : setPowerStateCheck io i = .success) : i.contribution.settingsCount ≤ 14 := by
  have hvalid : i.validity ≤ ttPowerValidity 15 14 := by
    unfold setPowerStateCheck at h
    split_ifs at h
    omega
  have hlimit : ttPowerValidity 15 14 = 0xEF := by decide
  have hshift : i.validity >>> 4 ≤ 14 := by
    rw [Nat.shiftRight_eq_div_pow]
    omega
  exact (Nat.and_le_left).trans hshift

end Meaning

end TtKmd
