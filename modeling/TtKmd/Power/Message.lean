import TtKmd.Power.Aggregate
import Mathlib.Order.Bounds.Basic
import Mathlib.Data.Fintype.Basic
import Mathlib.Tactic.FinCases

/-!
# What the power aggregate is, and how its message reads

The aggregate is specified by the set of contributions alone: a flag is on when some handle
asks for it or does not specify it, a setting is the largest one asked for, and so is the
count of settings. The specification has one solution, so the order of the file list plays
no part in it. The firmware decodes the message with shifts and masks of its own.
-/

namespace TtKmd

attribute [ext] PowerAggregate

/-! ## The specification -/

/-- A contribution that a handle can have: the one of an open, or one that
`SET_POWER_STATE` accepts. -/
inductive FilePower.Accepted : FilePower → Prop
  /-- The open default. -/
  | default : Accepted ttPowerFileDefault
  /-- The settings are 16-bit numbers. -/
  | stored {io : Io} {i : PowerStateIn} : setPowerStateCheck io i = .success →
      (∀ j, i.powerSettings j < 2 ^ 16) → Accepted i.contribution

/-- The count of settings after `TtPowerAggregate` clamps it to the length of the array. -/
def FilePower.clampedCount (p : FilePower) : ℕ :=
  if p.settingsCount > 14 then 14 else p.settingsCount

/-- The aggregate of a set of contributions, without an order. -/
structure AggregatesTo (S : Set FilePower) (a : PowerAggregate) : Prop where
  /-- A flag is on when some contribution has it, or does not specify it. -/
  flags : ∀ b, a.flags.getLsbD b = true ↔
    ∃ p ∈ S, p.flags.getLsbD b = true ∨ (p.flagsCount ≤ b ∧ b ≤ 14)
  /-- A setting is the largest one that is meant, or 0. -/
  settings : ∀ j : Fin 14, IsGreatest
    (insert 0 {n | ∃ p ∈ S, (j : ℕ) < p.settingsCount ∧ n = p.settings j}) (a.settings j)
  /-- The count of settings is the largest one, or 0. -/
  settingsCount : IsGreatest (insert 0 {n | ∃ p ∈ S, n = p.settingsCount}) a.maxSettingsCount

/-- An aggregate has all flags of another one, and settings as large. -/
structure PowerAggregate.Below (a a' : PowerAggregate) : Prop where
  /-- No flag is cleared. -/
  flags : ∀ b, a.flags.getLsbD b = true → a'.flags.getLsbD b = true
  /-- No setting is lowered. -/
  settings : ∀ j, a.settings j ≤ a'.settings j
  /-- The count is not lowered. -/
  settingsCount : a.maxSettingsCount ≤ a'.maxSettingsCount

section Specification

variable {S S' : Set FilePower} {a a' : PowerAggregate}

/-- There is one aggregate of a set. -/
theorem AggregatesTo.unique (h : AggregatesTo S a) (h' : AggregatesTo S a') : a = a' := by
  have hflags : a.flags = a'.flags := by
    refine BitVec.eq_of_getLsbD_eq fun b _ => ?_
    rw [Bool.eq_iff_iff]
    exact (h.flags b).trans (h'.flags b).symm
  have hsettings : a.settings = a'.settings :=
    funext fun j => (h.settings j).unique (h'.settings j)
  have hcount : a.maxSettingsCount = a'.maxSettingsCount :=
    h.settingsCount.unique h'.settingsCount
  exact PowerAggregate.ext hflags hsettings hcount

/-- A larger set has a larger aggregate. -/
theorem AggregatesTo.below (h : AggregatesTo S a) (h' : AggregatesTo S' a') (hsub : S ⊆ S') :
    a.Below a' where
  flags := fun b hb => by
    obtain ⟨p, hp, hon⟩ := (h.flags b).mp hb
    exact (h'.flags b).mpr ⟨p, hsub hp, hon⟩
  settings := fun j => by
    refine h'.settings j |>.2 ?_
    rcases (h.settings j).1 with hzero | ⟨p, hp, hcount, hvalue⟩
    · exact .inl hzero
    · exact .inr ⟨p, hsub hp, hcount, hvalue⟩
  settingsCount := by
    refine h'.settingsCount.2 ?_
    rcases h.settingsCount.1 with hzero | ⟨p, hp, hvalue⟩
    · exact .inl hzero
    · exact .inr ⟨p, hsub hp, hvalue⟩

end Specification

/-! ## The loop meets it -/

section Loop

variable {p : FilePower} {ps : List FilePower}

/-- The flags of a contribution that are on: its own, and those it does not specify. -/
theorem FilePower.effectiveFlags_iff (p : FilePower) (b : ℕ) :
    p.effectiveFlags.getLsbD b = true ↔
      p.flags.getLsbD b = true ∨ (p.flagsCount ≤ b ∧ b ≤ 14) := by
  have hmask : (~~~((1#16 <<< p.flagsCount) - 1) &&& powerFlagAll).getLsbD b = true ↔
      p.flagsCount ≤ b ∧ b ≤ 14 := by
    have hcount : p.flagsCount < 16 := Nat.and_lt_two_pow _ (by decide : 0xF < 2 ^ 4)
    by_cases hb : b < 16
    · generalize p.flagsCount = count at hcount
      interval_cases count <;> interval_cases b <;> decide
    · rw [BitVec.getLsbD_of_ge _ _ (by omega)]
      simp
      omega
  rw [FilePower.effectiveFlags, BitVec.getLsbD_or, Bool.or_eq_true, hmask]

/-- The count of settings of an aggregate. -/
theorem aggregateOf_maxSettingsCount (ps : List FilePower) (bound : ℕ) :
    (aggregateOf ps).maxSettingsCount ≤ bound ↔ ∀ p ∈ ps, p.settingsCount ≤ bound := by
  have hadd : ∀ (a : PowerAggregate) (p : FilePower), (a.add p).maxSettingsCount ≤ bound ↔
      a.maxSettingsCount ≤ bound ∧ p.settingsCount ≤ bound := by
    intro a p
    simp only [PowerAggregate.add]
    split <;> omega
  refine (Lib.foldl_iff_forall (fun a : PowerAggregate => a.maxSettingsCount ≤ bound) hadd ps
    .empty).trans ?_
  simp [PowerAggregate.empty]

/-- A number whose upper bounds are those of a finite family is its greatest member, or 0. -/
theorem isGreatest_insert_zero {α : Type*} {n : ℕ} {l : List α} {c : α → Prop} {f : α → ℕ}
    (h : ∀ bound, n ≤ bound ↔ ∀ x ∈ l, c x → f x ≤ bound) :
    IsGreatest (insert 0 {m | ∃ x ∈ l, c x ∧ m = f x}) n := by
  have hupper : ∀ x ∈ l, c x → f x ≤ n := (h n).mp le_rfl
  refine ⟨?_, ?_⟩
  · by_contra hnot
    simp only [Set.mem_insert_iff, Set.mem_ofPred_eq, not_or, not_exists, not_and] at hnot
    -- no member is as large as `n`, so `n - 1` would be a bound
    have hless : n ≤ n - 1 := by
      refine (h (n - 1)).mpr fun x hx hc => ?_
      have hne := hnot.2 x hx hc
      have hle := hupper x hx hc
      omega
    have hzero := hnot.1
    omega
  · rintro m (rfl | ⟨x, hx, hc, rfl⟩)
    · exact Nat.zero_le _
    · exact hupper x hx hc

/-- The fold computes the aggregate of its list. -/
theorem aggregateOf_aggregatesTo (ps : List FilePower) :
    AggregatesTo {p | p ∈ ps} (aggregateOf ps) where
  flags := fun b => by
    rw [aggregateOf_flags]
    simp only [FilePower.effectiveFlags_iff, Set.mem_ofPred_eq]
  settings := fun j => isGreatest_insert_zero (aggregateOf_settings ps j)
  settingsCount := by
    have h := isGreatest_insert_zero (n := (aggregateOf ps).maxSettingsCount) (l := ps)
      (c := fun _ => True) (f := FilePower.settingsCount)
      (fun bound => by simp [aggregateOf_maxSettingsCount])
    simpa using h

end Loop

/-! ## The message -/

/-- The fields that the firmware reads in a `POWER_SETTING` message. -/
structure PowerFields where
  /-- The message type. -/
  type : ℕ
  /-- The lower half of the validity: the count of flags. -/
  flagsCount : ℕ
  /-- The upper half of the validity: the count of settings. -/
  settingsCount : ℕ
  /-- The flags. -/
  flags : ℕ
  /-- The settings. -/
  settings : Fin 14 → ℕ

/-- The decoder: the fields are side by side in the header, and the settings are the halves
of the payload words. -/
def decodePowerMessage (msg : ArcMsg) : PowerFields where
  type := msg 0 % 2 ^ 8
  flagsCount := msg 0 / 2 ^ 8 % 2 ^ 4
  settingsCount := msg 0 / 2 ^ 12 % 2 ^ 4
  flags := msg 0 / 2 ^ 16
  settings := fun j => msg ⟨j.val / 2 + 1, by omega⟩ / 2 ^ (16 * (j.val % 2)) % 2 ^ 16

/-- An aggregate whose fields have room in the message. -/
structure PowerAggregate.Fits (a : PowerAggregate) : Prop where
  /-- The count of settings has 4 bits. -/
  settingsCount : a.maxSettingsCount < 2 ^ 4
  /-- A setting has 16 bits. -/
  settings : ∀ j, a.settings j < 2 ^ 16

section Message

variable {a a' : PowerAggregate}

/-- A field beside another one. -/
theorem lor_shiftLeft_eq {lo hi k : ℕ} (hlo : lo < 2 ^ k) :
    lo ||| (hi <<< k) = lo + 2 ^ k * hi := by
  rw [Nat.or_comm, ← Nat.shiftLeft_add_eq_or_of_lt hlo, Nat.shiftLeft_eq, mul_comm, add_comm]

/-- `TT_POWER_VALIDITY` of counts that have room. -/
theorem ttPowerValidity_eq {f s : ℕ} (hf : f < 2 ^ 4) (hs : s < 2 ^ 4) :
    ttPowerValidity f s = f + 2 ^ 4 * s := by
  have hmask : ∀ n < 2 ^ 4, n &&& 0xF = n := fun n hn =>
    (Nat.and_two_pow_sub_one_eq_mod n 4).trans (Nat.mod_eq_of_lt hn)
  rw [ttPowerValidity, hmask f hf, hmask s hs, lor_shiftLeft_eq hf]

/-- The header of the message. -/
theorem powerMessage_header (h : a.maxSettingsCount < 2 ^ 4) :
    powerMessage a 0 = 0x21 + 2 ^ 8 * (15 + 2 ^ 4 * a.maxSettingsCount) +
      2 ^ 16 * a.flags.toNat := by
  have htype : (0x21 : ℕ) < 2 ^ 8 := by decide
  show 0x21 ||| (ttPowerValidity 15 a.maxSettingsCount <<< 8) ||| (a.flags.toNat <<< 16) = _
  rw [ttPowerValidity_eq (by decide) h, lor_shiftLeft_eq htype, lor_shiftLeft_eq (by omega)]

/-- The payload of the message. -/
theorem powerMessage_payload (h : ∀ j, a.settings j < 2 ^ 16) (k : Fin 7) :
    powerMessage a k.succ = a.settings ⟨2 * k.val, by omega⟩ +
      2 ^ 16 * a.settings ⟨2 * k.val + 1, by omega⟩ := by
  have hword : powerMessage a k.succ = a.settings ⟨2 * k.val, by omega⟩ |||
      (a.settings ⟨2 * k.val + 1, by omega⟩ <<< 16) := by
    fin_cases k <;> rfl
  rw [hword, lor_shiftLeft_eq (h _)]

/-- The words of the message have 32 bits. -/
theorem PowerAggregate.Fits.word_lt (h : a.Fits) (k : Fin 8) : powerMessage a k < 2 ^ 32 := by
  have hcount := h.settingsCount
  have hflags := a.flags.isLt
  refine Fin.cases ?_ (fun k => ?_) k
  · rw [powerMessage_header hcount]
    omega
  · have hlo := h.settings ⟨2 * k.val, by omega⟩
    have hhi := h.settings ⟨2 * k.val + 1, by omega⟩
    rw [powerMessage_payload h.settings]
    omega

/-- The settings are the halves of the payload words. -/
theorem PowerAggregate.Fits.decode_settings (h : a.Fits) (j : Fin 14) :
    (decodePowerMessage (powerMessage a)).settings j = a.settings j := by
  have hword : powerMessage a (Fin.succ ⟨j.val / 2, by omega⟩) =
      a.settings ⟨2 * (j.val / 2), by omega⟩ +
        2 ^ 16 * a.settings ⟨2 * (j.val / 2) + 1, by omega⟩ :=
    powerMessage_payload h.settings _
  have hlo := h.settings ⟨2 * (j.val / 2), by omega⟩
  have hhi := h.settings ⟨2 * (j.val / 2) + 1, by omega⟩
  show powerMessage a (Fin.succ ⟨j.val / 2, by omega⟩) / 2 ^ (16 * (j.val % 2)) % 2 ^ 16 = _
  rw [hword]
  rcases Nat.mod_two_eq_zero_or_one j.val with heven | hodd
  · have hj : j = ⟨2 * (j.val / 2), by omega⟩ := Fin.ext (by simp; omega)
    rw [heven, ← hj]
    rw [← hj] at hlo
    omega
  · have hj : j = ⟨2 * (j.val / 2) + 1, by omega⟩ := Fin.ext (by simp; omega)
    rw [hodd, ← hj]
    rw [← hj] at hhi
    omega

/-- The message of an aggregate is decoded to the aggregate. -/
theorem PowerAggregate.Fits.decode (h : a.Fits) : decodePowerMessage (powerMessage a) =
    ⟨0x21, 15, a.maxSettingsCount, a.flags.toNat, a.settings⟩ := by
  have hheader := powerMessage_header h.settingsCount
  have hcount := h.settingsCount
  have hsettings : (decodePowerMessage (powerMessage a)).settings = a.settings :=
    funext h.decode_settings
  show PowerFields.mk _ _ _ _ (decodePowerMessage (powerMessage a)).settings = _
  rw [hheader, hsettings, PowerFields.mk.injEq]
  refine ⟨?_, ?_, ?_, ?_, rfl⟩ <;> omega

/-- Two aggregates with one message are the same. -/
theorem PowerAggregate.Fits.eq_of_message (h : a.Fits) (h' : a'.Fits)
    (hmsg : powerMessage a = powerMessage a') : a = a' := by
  have hdecoded := congrArg decodePowerMessage hmsg
  rw [h.decode, h'.decode, PowerFields.mk.injEq] at hdecoded
  obtain ⟨-, -, hcount, hflags, hsettings⟩ := hdecoded
  exact PowerAggregate.ext (BitVec.eq_of_toNat_eq hflags) hsettings hcount

end Message

/-! ## The aggregate that is sent -/

section Sent

variable {power : Handle → FilePower} {openResetGen : Handle → ℕ} {gen : ℕ}

/-- The contributions of the handles of the list that count. -/
def contributions (power : Handle → FilePower) (openResetGen : Handle → ℕ) (gen : ℕ)
    (fileList : List Handle) : Set FilePower :=
  {p | ∃ F ∈ fileList, (power F).contributes = true ∧ openResetGen F = gen ∧ p = power F}

/-- The loop of `TtPowerAggregate` computes the aggregate of the contributions that count. -/
theorem powerAggregate_aggregatesTo (fileList : List Handle) :
    AggregatesTo (contributions power openResetGen gen fileList)
      (powerAggregate power openResetGen gen fileList) := by
  have hset : contributions power openResetGen gen fileList =
      {p | p ∈ (contributors power openResetGen gen fileList).map power} := by
    ext p
    simp only [contributions, contributors, Set.mem_ofPred_eq, List.mem_map, List.mem_filter,
      Bool.and_eq_true, beq_iff_eq]
    constructor
    · rintro ⟨F, hF, hcontributes, hgen, rfl⟩
      exact ⟨F, ⟨hF, hcontributes, hgen⟩, rfl⟩
    · rintro ⟨F, ⟨hF, hcontributes, hgen⟩, rfl⟩
      exact ⟨F, hF, hcontributes, hgen, rfl⟩
  rw [powerAggregate_eq, hset]
  exact aggregateOf_aggregatesTo _

/-- The settings of an accepted contribution. -/
theorem FilePower.Accepted.settings_lt {p : FilePower} (h : p.Accepted) (j : Fin 14) :
    p.settings j < 2 ^ 16 := by
  cases h with
  | default => exact Nat.two_pow_pos 16
  | stored _ hsettings => exact hsettings j

/-- The count of settings of an accepted contribution. -/
theorem FilePower.Accepted.settingsCount_le {p : FilePower} (h : p.Accepted) :
    p.settingsCount ≤ 14 := by
  cases h with
  | default => decide
  | stored hcheck _ => exact settingsCount_contribution hcheck

/-- The aggregate of accepted contributions has room in the message. -/
theorem AggregatesTo.fits {S : Set FilePower} {a : PowerAggregate} (h : AggregatesTo S a)
    (hS : ∀ p ∈ S, p.Accepted) : a.Fits where
  settingsCount := by
    rcases h.settingsCount.1 with hzero | ⟨p, hp, hcount⟩
    · omega
    · have := (hS p hp).settingsCount_le
      omega
  settings := fun j => by
    rcases (h.settings j).1 with hzero | ⟨p, hp, -, hvalue⟩
    · omega
    · rw [hvalue]
      exact (hS p hp).settings_lt j

/-- For every list of handles with accepted contributions and any generations: the aggregate
is the specified one of the contributions that count; it is the same in any order of the
list, and below that of any larger list; its message has eight words of 32 bits that are
decoded to its fields, which no other aggregate with room has; and no count is clamped. -/
theorem power_aggregation {fileList : List Handle}
    (haccepted : ∀ F ∈ fileList, (power F).contributes = true → (power F).Accepted) :
    AggregatesTo (contributions power openResetGen gen fileList)
        (powerAggregate power openResetGen gen fileList) ∧
      (∀ l, l.Perm fileList → powerAggregate power openResetGen gen l =
        powerAggregate power openResetGen gen fileList) ∧
      (∀ l, fileList ⊆ l → (powerAggregate power openResetGen gen fileList).Below
        (powerAggregate power openResetGen gen l)) ∧
      (∀ k, powerMessage (powerAggregate power openResetGen gen fileList) k < 2 ^ 32) ∧
      decodePowerMessage (powerMessage (powerAggregate power openResetGen gen fileList)) =
        ⟨0x21, 15, (powerAggregate power openResetGen gen fileList).maxSettingsCount,
          (powerAggregate power openResetGen gen fileList).flags.toNat,
          (powerAggregate power openResetGen gen fileList).settings⟩ ∧
      (∀ a : PowerAggregate, a.Fits → powerMessage a =
        powerMessage (powerAggregate power openResetGen gen fileList) →
          a = powerAggregate power openResetGen gen fileList) ∧
      ∀ p ∈ contributions power openResetGen gen fileList, p.clampedCount = p.settingsCount := by
  have hspec : AggregatesTo (contributions power openResetGen gen fileList)
      (powerAggregate power openResetGen gen fileList) := powerAggregate_aggregatesTo fileList
  have hall : ∀ p ∈ contributions power openResetGen gen fileList, p.Accepted := by
    rintro p ⟨F, hF, hcontributes, -, rfl⟩
    exact haccepted F hF hcontributes
  have hfits := hspec.fits hall
  refine ⟨hspec, ?_, ?_, hfits.word_lt, hfits.decode, ?_, ?_⟩
  · intro l hperm
    have hset : contributions power openResetGen gen l =
        contributions power openResetGen gen fileList := by
      ext p
      simp [contributions, hperm.mem_iff]
    exact (hset ▸ powerAggregate_aggregatesTo l).unique hspec
  · rintro l hsub
    refine hspec.below (powerAggregate_aggregatesTo l) ?_
    rintro p ⟨F, hF, hcounts⟩
    exact ⟨F, hsub hF, hcounts⟩
  · exact fun a ha hmsg => ha.eq_of_message hfits hmsg
  · intro p hp
    have := (hall p hp).settingsCount_le
    rw [FilePower.clampedCount, if_neg (by omega)]

/-- The handle 1 asks for one setting, the others have the open default. -/
def threeHandles (F : Handle) : FilePower :=
  if F = 1 then PowerStateIn.contribution ⟨40, 0, 0, 0x14, 8, fun _ => 700⟩ else ttPowerFileDefault

/-- The contributions of the three handles are sent, without that of the handle 2, which is of
an earlier generation. -/
theorem power_aggregation_threeHandles :
    decodePowerMessage (powerMessage (powerAggregate threeHandles
        (fun F => if F = 2 then 0 else 1) 1 [0, 1, 2])) =
      ⟨0x21, 15, 1, 0x7FFE, fun j => if j = 0 then 700 else 0⟩ := by
  have haccepted : ∀ F ∈ [0, 1, 2], (threeHandles F).contributes = true →
      (threeHandles F).Accepted := by
    intro F _ _
    unfold threeHandles
    split
    · have hcheck : setPowerStateCheck ⟨40, 0⟩ ⟨40, 0, 0, 0x14, 8, fun _ => 700⟩ = .success := rfl
      exact .stored hcheck fun _ => Nat.lt_of_sub_eq_succ rfl
    · exact .default
  obtain ⟨-, -, -, -, hdecoded, -, -⟩ :=
    @power_aggregation threeHandles (fun F => if F = 2 then 0 else 1) 1 [0, 1, 2] haccepted
  rw [hdecoded, PowerFields.mk.injEq]
  refine ⟨rfl, rfl, rfl, rfl, ?_⟩
  funext j
  fin_cases j <;> rfl

end Sent

end TtKmd
