import TtKmd.Lib.Program
import TtKmd.Device.KernelWindow

/-!
# The payload size across a reset

A chip reset leaves the power-on payload size in the Device Control register of the chip's own
configuration space, which the snapshot of the host does not show. `TtBhSaveResetState` reads it
over the NOC when the hardware is prepared, and `TtBhRestoreResetState` writes it back after a
reset: the register is read, the payload size is replaced and the result is written.

The chip has two PCIe tiles and a NOC that may hang at any time. Whatever it answers, a value that
is written has the payload size of the last valid snapshot and the other bits of the value that
was read immediately before, from the same tile.
-/

namespace TtKmd

open Lib

/-! ## The register -/

section Register

/-- The payload size of a value of Device Control. -/
def payloadSize (deviceControl : ℕ) : ℕ := (deviceControl &&& 0xE0) >>> 5

/-- The value that `TtBhRestoreResetState` writes. -/
def withPayloadSize (deviceControl mps : ℕ) : ℕ :=
  (deviceControl &&& 0xFFFFFF1F) ||| ((mps <<< 5) &&& 0xE0)

/-- The bits of the mask of the payload size. -/
theorem testBit_payloadMask (i : ℕ) : Nat.testBit 0xE0 i = decide (5 ≤ i ∧ i < 8) := by
  by_cases hi : i < 8
  · have hbits : ∀ i : Fin 8, Nat.testBit 0xE0 i = decide (5 ≤ i.val ∧ i.val < 8) := by decide
    exact hbits ⟨i, hi⟩
  · have hlt : 0xE0 < 2 ^ i :=
      Nat.lt_of_lt_of_le (by decide : 0xE0 < 2 ^ 8) (Nat.pow_le_pow_right (by decide) (by omega))
    rw [Nat.testBit_lt_two_pow hlt]
    simp [hi]

/-- The bits of the other mask. -/
theorem testBit_otherMask (i : ℕ) :
    Nat.testBit 0xFFFFFF1F i = decide (i < 32 ∧ ¬(5 ≤ i ∧ i < 8)) := by
  by_cases hi : i < 32
  · have hbits : ∀ i : Fin 32,
        Nat.testBit 0xFFFFFF1F i = decide (i.val < 32 ∧ ¬(5 ≤ i.val ∧ i.val < 8)) := by decide
    exact hbits ⟨i, hi⟩
  · have hlt : 0xFFFFFF1F < 2 ^ i :=
      Nat.lt_of_lt_of_le (by decide : 0xFFFFFF1F < 2 ^ 32)
        (Nat.pow_le_pow_right (by decide) (by omega))
    rw [Nat.testBit_lt_two_pow hlt]
    simp [hi]

/-- The bits of a payload size. -/
theorem testBit_payloadSize (d i : ℕ) :
    (payloadSize d).testBit i = (decide (i < 3) && d.testBit (5 + i)) := by
  rw [payloadSize, Nat.testBit_shiftRight, Nat.testBit_and, testBit_payloadMask, Bool.and_comm]
  congr 1
  simp only [decide_eq_decide]
  omega

/-- The bits of a value that is written. -/
theorem testBit_withPayloadSize {d : ℕ} (hd : d < 2 ^ 32) (mps i : ℕ) :
    (withPayloadSize d mps).testBit i =
      if 5 ≤ i ∧ i < 8 then mps.testBit (i - 5) else d.testBit i := by
  rw [withPayloadSize, Nat.testBit_or, Nat.testBit_and, Nat.testBit_and, Nat.testBit_shiftLeft,
    testBit_payloadMask, testBit_otherMask]
  by_cases hfield : 5 ≤ i ∧ i < 8
  · simp [hfield]
  · by_cases hi : i < 32
    · simp [hfield, hi]
    · have hzero : d.testBit i = false := Nat.testBit_lt_two_pow
        (Nat.lt_of_lt_of_le hd (Nat.pow_le_pow_right (by decide) (by omega)))
      simp [hfield, hzero]

/-- The payload size of a value that is written is that of the snapshot. -/
theorem payloadSize_withPayloadSize {d : ℕ} (hd : d < 2 ^ 32) (saved : ℕ) :
    payloadSize (withPayloadSize d (payloadSize saved)) = payloadSize saved := by
  apply Nat.eq_of_testBit_eq
  intro i
  rw [testBit_payloadSize, testBit_withPayloadSize hd]
  by_cases hi : i < 3
  · rw [if_pos (by omega), Nat.add_sub_cancel_left]
    simp [hi]
  · have hsaved := testBit_payloadSize saved i
    rw [hsaved]
    simp [hi]

end Register

/-! ## The two functions -/

/-- A PCIe device with its NOC. -/
structure PcieChip (σ δ : Type) where
  /-- The NOC. -/
  noc : Noc σ δ
  /-- The value of a read of the NOC ID register in `Noc2AxiCfg`. -/
  nocId : σ → ℕ × σ

/-- What the two functions do that can be seen. -/
inductive PayloadStep
  /-- A read of the NOC ID register. -/
  | nocId (value : ℕ)
  /-- A read of Device Control of a tile. -/
  | read (x value : ℕ)
  /-- A write of Device Control of a tile. -/
  | write (x value : ℕ)
  /-- A snapshot of a value is taken. -/
  | saved (value : ℕ)
  /-- There is no snapshot from here on. -/
  | dropped

/-- The chip and the snapshot. -/
structure PayloadWorld (σ : Type) where
  /-- The chip. -/
  chip : σ
  /-- `Noc2AxiCfg` is not `NULL`. -/
  noc2AxiCfg : Bool
  /-- `SavedMps`. -/
  savedMps : ℕ
  /-- `SavedMpsValid`. -/
  savedMpsValid : Bool
  /-- The steps so far. -/
  log : List PayloadStep

/-- Device Control of a tile on the NOC: `TT_BH_PCIE_DBI_ADDR + TT_BH_DBI_DEVCTL_DEVSTA`. -/
def deviceControlPlace (x : ℕ) : NocPlace := ⟨x, 0, 0xF800000000000000 + 0x78, 0, by decide⟩

section Program

variable {σ δ : Type} (C : PcieChip σ δ)

/-- `SavedMpsValid` is cleared. -/
def dropSnapshot : Program (PayloadWorld σ) Unit :=
  .step fun w => ((), { w with savedMpsValid := false, log := w.log ++ [.dropped] })

/-- `SavedMps` is set. -/
def takeSnapshot (deviceControl : ℕ) : Program (PayloadWorld σ) Unit :=
  .step fun w =>
    ((), { w with
      savedMps := payloadSize deviceControl
      savedMpsValid := true
      log := w.log ++ [.saved deviceControl] })

/-- `Noc2AxiCfg` and the snapshot as they are. -/
def payloadState : Program (PayloadWorld σ) (Bool × Bool × ℕ) :=
  .step fun w => ((w.noc2AxiCfg, w.savedMpsValid, w.savedMps), w)

/-- The read of the NOC ID register. -/
def readNocId : Program (PayloadWorld σ) ℕ :=
  .step fun w =>
    let value := u32 (C.nocId w.chip).1
    (value, { w with chip := (C.nocId w.chip).2, log := w.log ++ [.nocId value] })

/-- `TtBhDetectPcieNocX`; both callers return when it returns `FALSE`. -/
def ttBhDetectPcieNocX : Program (PayloadWorld σ) ℕ := do
  let nocId ← readNocId C
  if nocId % 64 = 2 ∨ nocId % 64 = 11 then pure (nocId % 64) else .stop

/-- `TtBhNocRead32` of Device Control. -/
def readDeviceControl (x : ℕ) : Program (PayloadWorld σ) ℕ :=
  .step fun w =>
    let value := u32 (C.noc.read w.chip (deviceControlPlace x).target).1
    (value, { w with
      chip := (C.noc.read w.chip (deviceControlPlace x).target).2
      log := w.log ++ [.read x value] })

/-- `TtBhNocWrite32` of Device Control. -/
def writeDeviceControl (x value : ℕ) : Program (PayloadWorld σ) Unit :=
  .step fun w =>
    ((), { w with
      chip := C.noc.write w.chip (deviceControlPlace x).target value
      log := w.log ++ [.write x value] })

/-- The part that both functions share: the tile and its register, unless the NOC hangs. -/
def sampleDeviceControl : Program (PayloadWorld σ) (ℕ × ℕ) := do
  let x ← ttBhDetectPcieNocX C
  let deviceControl ← readDeviceControl C x
  if deviceControl = maxUlong then .stop else pure (x, deviceControl)

/-- `TtBhSaveResetState`. -/
def ttBhSaveResetState : Program (PayloadWorld σ) Unit := do
  dropSnapshot
  let state ← payloadState
  if state.1 = false then .stop
  else do
    let sample ← sampleDeviceControl C
    takeSnapshot sample.2

/-- `TtBhRestoreResetState`. -/
def ttBhRestoreResetState : Program (PayloadWorld σ) Unit := do
  let state ← payloadState
  if state.2.1 = false ∨ state.1 = false then .stop
  else do
    let sample ← sampleDeviceControl C
    writeDeviceControl C sample.1 (withPayloadSize sample.2 state.2.2)

end Program

/-! ## What is written -/

section Written

variable {log before : List PayloadStep} {e : PayloadStep}

/-- The value of the snapshot after a step. -/
def PayloadStep.snapshot (before : Option ℕ) : PayloadStep → Option ℕ
  | .saved value => some value
  | .dropped => none
  | _ => before

/-- The value of the snapshot after some steps. -/
def lastSnapshot (log : List PayloadStep) : Option ℕ := log.foldl PayloadStep.snapshot none

/-- One more step. -/
@[simp] theorem lastSnapshot_append (log : List PayloadStep) (e : PayloadStep) :
    lastSnapshot (log ++ [e]) = e.snapshot (lastSnapshot log) := by
  simp [lastSnapshot]

/-- A value is written after these steps as it should be: the tile was named by the NOC ID, its
register was read and was not all ones, and the value has the payload size of the snapshot and
the other bits of the register. -/
def Restores (before : List PayloadStep) (x value : ℕ) : Prop :=
  ∃ start nocId deviceControl saved,
    before = start ++ [.nocId nocId, .read x deviceControl] ∧ x = nocId % 64 ∧ (x = 2 ∨ x = 11) ∧
      deviceControl ≠ maxUlong ∧ lastSnapshot start = some saved ∧ saved ≠ maxUlong ∧
      payloadSize value = payloadSize saved ∧
      ∀ i, ¬(5 ≤ i ∧ i < 8) → value.testBit i = deviceControl.testBit i

/-- Every value is written as it should be. -/
def AllRestore (log : List PayloadStep) : Prop :=
  ∀ before x value, before ++ [.write x value] <+: log → Restores before x value

/-- One more step. -/
theorem AllRestore.append (h : AllRestore log)
    (hnew : ∀ x value, e = .write x value → Restores log x value) : AllRestore (log ++ [e]) := by
  intro before x value hprefix
  rcases List.prefix_concat_iff.mp hprefix with heq | hold
  · obtain ⟨rfl, he⟩ := List.append_inj' heq rfl
    exact hnew x value (List.singleton_inj.mp he).symm
  · exact h before x value hold

variable {σ : Type} {w : PayloadWorld σ}

/-- The snapshot is that of the steps, and every value is written as it should be. -/
structure PayloadWorld.Recorded (w : PayloadWorld σ) : Prop where
  /-- The flag. -/
  valid : w.savedMpsValid = (lastSnapshot w.log).isSome
  /-- The payload size. -/
  mps : ∀ saved, lastSnapshot w.log = some saved → saved ≠ maxUlong ∧ w.savedMps = payloadSize saved
  /-- The values that are written. -/
  writes : AllRestore w.log

/-- A read that is seen. -/
theorem PayloadWorld.Recorded.quiet (h : w.Recorded) {chip : σ}
    (hsame : e.snapshot (lastSnapshot w.log) = lastSnapshot w.log)
    (hread : ∀ x value, e ≠ .write x value) :
    PayloadWorld.Recorded { w with chip, log := w.log ++ [e] } := by
  refine ⟨?_, ?_, h.writes.append fun x value he => absurd he (hread x value)⟩
  · rw [lastSnapshot_append, hsame]
    exact h.valid
  · rw [lastSnapshot_append, hsame]
    exact h.mps

end Written

section Triples

variable {σ δ : Type} (C : PcieChip σ δ) {start w : PayloadWorld σ} {x deviceControl : ℕ}

/-- What is known when the tile and its register were read. -/
structure Sampled (start : PayloadWorld σ) (x deviceControl : ℕ) (w : PayloadWorld σ) : Prop where
  /-- The record goes on. -/
  recorded : w.Recorded
  /-- The snapshot is as before. -/
  mps : w.savedMps = start.savedMps
  /-- The value is a word that the NOC did not make up. -/
  word : deviceControl < 2 ^ 32 ∧ deviceControl ≠ maxUlong
  /-- The tile was named, and its register was read. -/
  log : ∃ nocId, w.log = start.log ++ [.nocId nocId, .read x deviceControl] ∧ x = nocId % 64 ∧
    (x = 2 ∨ x = 11)

/-- The reads of both functions. -/
theorem sampleDeviceControl_sampled (start : PayloadWorld σ) (hstart : start.Recorded) :
    Triple (· = start) (sampleDeviceControl C)
      (fun sample w => Sampled start sample.1 sample.2 w) PayloadWorld.Recorded := by
  let named : ℕ → PayloadWorld σ := fun value =>
    { start with chip := (C.nocId start.chip).2, log := start.log ++ [.nocId value] }
  have hnamed : ∀ value, (named value).Recorded := fun value => hstart.quiet rfl (by simp)
  have hdetect : Triple (· = start) (ttBhDetectPcieNocX C)
      (fun x w => ∃ nocId, w = named nocId ∧ x = nocId % 64 ∧ (x = 2 ∨ x = 11))
      PayloadWorld.Recorded := by
    have hread : Triple (· = start) (readNocId C) (fun nocId w => w = named nocId)
        PayloadWorld.Recorded := by
      apply Triple.step
      rintro w rfl
      rfl
    apply hread.bind
    intro nocId
    apply Triple.ite
    · intro hlive
      exact Triple.pure fun w hw => ⟨nocId, hw, rfl, hlive⟩
    · intro _
      apply Triple.stop
      rintro w rfl
      exact hnamed nocId
  apply hdetect.bind
  intro x
  apply Triple.of_exists
  intro nocId
  have hread : Triple
      (fun w => w = named nocId ∧ x = nocId % 64 ∧ (x = 2 ∨ x = 11)) (readDeviceControl C x)
      (fun d w => w.Recorded ∧ d < 2 ^ 32 ∧ w.savedMps = start.savedMps ∧
        w.log = start.log ++ [.nocId nocId, .read x d] ∧ x = nocId % 64 ∧ (x = 2 ∨ x = 11))
      PayloadWorld.Recorded := by
    apply Triple.step
    rintro w ⟨rfl, hx⟩
    refine ⟨(hnamed nocId).quiet rfl (by simp), Nat.mod_lt _ (by decide), rfl, ?_, hx⟩
    exact List.append_assoc start.log [.nocId nocId] _
  apply hread.bind
  intro d
  apply Triple.ite
  · intro _
    exact Triple.stop fun w hw => hw.1
  · intro hd
    apply Triple.pure
    rintro w ⟨hrecorded, hword, hmps, hlog⟩
    exact ⟨hrecorded, hmps, ⟨hword, hd⟩, nocId, hlog⟩

/-- The state is read and stays as it is. -/
theorem payloadState_recorded :
    Triple PayloadWorld.Recorded payloadState
      (fun state (w : PayloadWorld σ) =>
        w.Recorded ∧ state = (w.noc2AxiCfg, w.savedMpsValid, w.savedMps))
      PayloadWorld.Recorded :=
  Triple.step fun _ hw => ⟨hw, rfl⟩

/-- `TtBhSaveResetState` keeps the record. -/
theorem ttBhSaveResetState_recorded :
    Triple PayloadWorld.Recorded (ttBhSaveResetState C) (fun _ => PayloadWorld.Recorded)
      PayloadWorld.Recorded := by
  have hdrop : Triple PayloadWorld.Recorded dropSnapshot (fun _ (w : PayloadWorld σ) => w.Recorded)
      PayloadWorld.Recorded := by
    apply Triple.step
    intro w hw
    refine ⟨?_, ?_, hw.writes.append (by simp)⟩ <;> simp [PayloadStep.snapshot]
  have hsample : Triple PayloadWorld.Recorded (sampleDeviceControl C)
      (fun sample w => w.Recorded ∧ sample.2 ≠ maxUlong) PayloadWorld.Recorded := by
    intro start hstart
    have hsampled := (sampleDeviceControl_sampled C start hstart).weaken (fun _ h => h)
      (fun sample w (h : Sampled start sample.1 sample.2 w) => (⟨h.recorded, h.word.2⟩ :
        w.Recorded ∧ sample.2 ≠ maxUlong)) fun _ h => h
    exact hsampled start rfl
  apply hdrop.bind
  intro _
  apply payloadState_recorded.bind
  intro state
  apply Triple.ite
  · intro _
    exact Triple.stop fun w hw => hw.1
  intro _
  apply (hsample.before fun w hw => hw.1).bind
  intro sample
  apply Triple.step
  rintro w ⟨hw, hmax⟩
  refine ⟨?_, ?_, hw.writes.append (by simp)⟩
  · simp [PayloadStep.snapshot]
  · intro saved hsaved
    rw [lastSnapshot_append] at hsaved
    obtain rfl := Option.some.inj hsaved
    exact ⟨hmax, rfl⟩

/-- `TtBhRestoreResetState` keeps the record: it writes behind its own reads. -/
theorem ttBhRestoreResetState_recorded :
    Triple PayloadWorld.Recorded (ttBhRestoreResetState C) (fun _ => PayloadWorld.Recorded)
      PayloadWorld.Recorded := by
  apply payloadState_recorded.bind
  intro state
  apply Triple.ite
  · intro _
    exact Triple.stop fun w hw => hw.1
  intro hvalid
  rintro start ⟨hstart, rfl⟩
  obtain ⟨saved, hsaved⟩ : ∃ saved, lastSnapshot start.log = some saved := by
    apply Option.isSome_iff_exists.mp
    rw [← hstart.valid]
    simpa using (not_or.mp hvalid).1
  obtain ⟨hmax, hmps⟩ := hstart.mps saved hsaved
  apply (sampleDeviceControl_sampled C start hstart).bind _ start rfl
  intro sample
  apply Triple.step
  rintro w ⟨hw, -, ⟨hword, hne⟩, nocId, hlog, hx, hlive⟩
  have hkept : (PayloadStep.write sample.1 (withPayloadSize sample.2 start.savedMps)).snapshot
      (lastSnapshot w.log) = lastSnapshot w.log := rfl
  refine ⟨?_, ?_, hw.writes.append ?_⟩
  · rw [lastSnapshot_append, hkept]
    exact hw.valid
  · rw [lastSnapshot_append, hkept]
    exact hw.mps
  · intro x value he
    obtain ⟨rfl, rfl⟩ := PayloadStep.write.inj he
    refine ⟨start.log, nocId, sample.2, saved, hlog, hx, hlive, hne, hsaved, hmax, ?_, ?_⟩
    · rw [hmps]
      exact payloadSize_withPayloadSize hword saved
    · intro i hi
      rw [testBit_withPayloadSize hword, if_neg hi]

end Triples

/-! ## Runs -/

/-- What happens to a chip and its snapshot. -/
inductive PayloadEvent (δ : Type)
  /-- `TtMapBlackholeBars` sets `Noc2AxiCfg`. -/
  | map
  /-- `TtBhSaveResetState`, in a preparation. -/
  | save
  /-- `TtBhRestoreResetState`, in `RESTORE_STATE` or `POST_RESET`. -/
  | restore
  /-- `EvtDeviceReleaseHardware`. -/
  | release
  /-- The chip changes by itself: a reset, a NOC that hangs, a link that is trained again. -/
  | chip (d : δ)

section Runs

variable {σ δ : Type} {C : PcieChip σ δ}

/-- A chip that was never prepared. -/
def PayloadWorld.added (chip : σ) : PayloadWorld σ := ⟨chip, false, 0, false, []⟩

/-- The release clears the pointer and the snapshot. -/
def PayloadWorld.release (w : PayloadWorld σ) : PayloadWorld σ :=
  { w with noc2AxiCfg := false, savedMpsValid := false, log := w.log ++ [.dropped] }

/-- One step. -/
inductive PayloadWorld.Step (C : PcieChip σ δ) :
    PayloadWorld σ → PayloadEvent δ → PayloadWorld σ → Prop
  /-- The pointer is set. -/
  | map {w : PayloadWorld σ} : Step C w .map { w with noc2AxiCfg := true }
  /-- `TtBhSaveResetState`. -/
  | save {w w' : PayloadWorld σ} (hsave : (ttBhSaveResetState C w).final = some w') :
      Step C w .save w'
  /-- `TtBhRestoreResetState`. -/
  | restore {w w' : PayloadWorld σ} (hrestore : (ttBhRestoreResetState C w).final = some w') :
      Step C w .restore w'
  /-- The release. -/
  | release {w : PayloadWorld σ} : Step C w .release w.release
  /-- The chip changes. -/
  | chip {w : PayloadWorld σ} {d : δ} {chip : σ} (hchange : C.noc.change w.chip d chip) :
      Step C w (.chip d) { w with chip }

/-- A step keeps the record. -/
theorem PayloadWorld.Recorded.step {w w' : PayloadWorld σ} {e : PayloadEvent δ} (h : w.Recorded)
    (hstep : PayloadWorld.Step C w e w') : w'.Recorded := by
  cases hstep with
  | map => exact ⟨h.valid, h.mps, h.writes⟩
  | save hsave =>
    obtain ⟨t, ht, hrecorded⟩ := (ttBhSaveResetState_recorded C).final h
    obtain rfl : t = w' := Option.some.inj (ht.symm.trans hsave)
    exact hrecorded
  | restore hrestore =>
    obtain ⟨t, ht, hrecorded⟩ := (ttBhRestoreResetState_recorded C).final h
    obtain rfl : t = w' := Option.some.inj (ht.symm.trans hrestore)
    exact hrecorded
  | release =>
    refine ⟨?_, ?_, h.writes.append (by simp)⟩ <;>
      simp [PayloadWorld.release, PayloadStep.snapshot]
  | chip hchange => exact ⟨h.valid, h.mps, h.writes⟩

/-- Whatever the chip answers, in every run of preparations, restores, releases and changes of the
chip: a value that is written to Device Control goes to the tile that the NOC ID has just named,
with the payload size of the last snapshot, which is still valid, and with the other bits of the
register as it has just been read there; neither value was that of a NOC that hangs. Both functions
return from every state of the run, and `SavedMpsValid` says whether there is a snapshot. -/
theorem payload_size_restored {chip : σ} {es : List (PayloadEvent δ)} {w : PayloadWorld σ}
    (hrun : Run (PayloadWorld.Step C) (.added chip) es w) :
    (∀ before x value, before ++ [.write x value] <+: w.log → Restores before x value) ∧
      w.savedMpsValid = (lastSnapshot w.log).isSome ∧
      (∀ saved, lastSnapshot w.log = some saved → w.savedMps = payloadSize saved) ∧
      (ttBhSaveResetState C w).final.isSome = true ∧
      (ttBhRestoreResetState C w).final.isSome = true := by
  have hrecorded : w.Recorded := hrun.invariant (fun _ _ _ h hstep => h.step hstep) (by
    refine ⟨rfl, ?_, ?_⟩
    · intro saved hsaved
      cases hsaved
    · intro before x value hprefix
      simp [PayloadWorld.added] at hprefix)
  obtain ⟨t, ht, -⟩ := (ttBhSaveResetState_recorded C).final hrecorded
  obtain ⟨u, hu, -⟩ := (ttBhRestoreResetState_recorded C).final hrecorded
  refine ⟨hrecorded.writes, hrecorded.valid, fun saved h => (hrecorded.mps saved h).2, ?_, ?_⟩
  · rw [ht]
    rfl
  · rw [hu]
    rfl

/-- A chip whose tiles have one Device Control register; a reset puts a value there. -/
def plainChip : PcieChip ℕ ℕ where
  noc :=
    { read := fun deviceControl _ => (deviceControl, deviceControl)
      write := fun _ _ data => data
      change := fun _ powerOn deviceControl => deviceControl = powerOn }
  nocId := fun deviceControl => (0x42, deviceControl)

/-- A snapshot, a reset to a larger payload size, and the read of the restore. -/
def restoreBehindReset : List PayloadStep :=
  [.dropped, .nocId 0x42, .read 2 0x2830, .saved 0x2830, .nocId 0x42, .read 2 0x5850]

/-- The chip with a snapshot of the payload size 1. -/
def withSnapshot (deviceControl : ℕ) (log : List PayloadStep) : PayloadWorld ℕ :=
  ⟨deviceControl, true, 1, true, log⟩

/-- The payload size comes back, and the other bits stay as the reset has left them. -/
theorem payload_size_restored_behindReset :
    (∃ w, Run (PayloadWorld.Step plainChip) (.added 0x2830)
        [.map, .save, .chip 0x5850, .restore] w ∧
        w.chip = 0x5830 ∧ w.log = restoreBehindReset ++ [.write 2 0x5830]) ∧
      Restores restoreBehindReset 2 0x5830 := by
  have hvalue : withPayloadSize 0x5850 1 = 0x5830 := by decide
  have hsave : (ttBhSaveResetState plainChip
      { PayloadWorld.added 0x2830 with noc2AxiCfg := true }).final =
        some (withSnapshot 0x2830 (restoreBehindReset.take 4)) := rfl
  have hrestore : (ttBhRestoreResetState plainChip
      (withSnapshot 0x5850 (restoreBehindReset.take 4))).final =
        some (withSnapshot (withPayloadSize 0x5850 1)
          (restoreBehindReset ++ [.write 2 (withPayloadSize 0x5850 1)])) := rfl
  rw [hvalue] at hrestore
  have hrun : Run (PayloadWorld.Step plainChip) (.added 0x2830)
      [.map, .save, .chip 0x5850, .restore]
      (withSnapshot 0x5830 (restoreBehindReset ++ [.write 2 0x5830])) :=
    .cons .map (.cons (.save hsave) (.cons (.chip rfl) (.cons (.restore hrestore) (.nil _))))
  exact ⟨⟨_, hrun, rfl, rfl⟩,
    (payload_size_restored hrun).1 restoreBehindReset 2 0x5830 (List.prefix_refl _)⟩

end Runs

end TtKmd
