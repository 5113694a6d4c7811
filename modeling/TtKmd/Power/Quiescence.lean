import TtKmd.Power.Aggregate
import TtKmd.Lib.Runs

/-!
# What the firmware was told last

`TtPowerAggregate` reads the generation, aggregates under `PowerLock` and `FileListLock`,
and sends its message after it has left them. Calls of several threads interleave at
these points, and a reset bumps the generation without a call of its own. So the message
sent last may be an older one, or one that counts handles a reset has made stale.

A call is in progress from the section of its entry point that changed the file list or a
contribution, which is the last thing its thread does before it. In a run where the
messages are sent in the order they were made and no reset takes a contribution away, the
message sent last is right whenever no call is in progress.
-/

namespace TtKmd

open Lib

/-- How far a call of `TtPowerAggregate` has come. -/
inductive PowerPhase
  /-- Nothing is read yet. -/
  | entered
  /-- `gen` is read. -/
  | read (gen : ℕ)
  /-- The message is made and both locks are left. -/
  | computed (msg : ArcMsg)

/-- A call of `TtPowerAggregate`. -/
structure PowerCall where
  /-- How far it has come. -/
  phase : PowerPhase
  /-- Its entry point holds the reset resource shared. -/
  shared : Bool

/-- The device as far as the power state is concerned. -/
structure PowerWorld where
  /-- `IsBlackhole`. -/
  isBlackhole : Bool
  /-- `Detached`. -/
  detached : Bool
  /-- `ResetGen`. -/
  resetGen : ℕ
  /-- `FileList`. -/
  fileList : List Handle
  /-- The number of the next file object. -/
  nextFile : ℕ
  /-- `OpenResetGen` of each file object. -/
  openResetGen : Handle → ℕ
  /-- The contribution of each file object. -/
  power : Handle → FilePower
  /-- The calls in progress. -/
  calls : ℕ → Option PowerCall
  /-- The number of the next call. -/
  nextCall : ℕ
  /-- The calls that have made a message and not sent it yet, the oldest first. -/
  unsent : List ℕ
  /-- The `POWER_SETTING` message sent last. -/
  last : Option ArcMsg

/-- The steps. -/
inductive PowerEvent
  /-- `TtEvtDeviceFileCreate` puts a file object into the list, with the generation it
  latched before. -/
  | create (gen : ℕ)
  /-- `TtIoctlSetPowerState` stores a contribution. The handle may be off the list by now. -/
  | setPowerState (F : Handle) (io : Io) (i : PowerStateIn)
  /-- `TtEvtFileCleanup` takes a file object off the list. -/
  | close (F : Handle)
  /-- `TtBumpResetGen`. -/
  | bump (F : Handle)
  /-- The device is gone. -/
  | detach
  /-- A call reads the generation. -/
  | readGen (k : ℕ)
  /-- A call aggregates. -/
  | compute (k : ℕ)
  /-- A call sends its message and is over. -/
  | send (k : ℕ)

namespace PowerWorld

/-- The handles that are open, contributing and of the current generation. -/
def contributors (w : PowerWorld) : List Handle :=
  TtKmd.contributors w.power w.openResetGen w.resetGen w.fileList

/-- The message of these handles. -/
def wanted (w : PowerWorld) : ArcMsg := powerMessage (aggregateOf (w.contributors.map w.power))

/-- A call begins. -/
def enter (w : PowerWorld) (shared : Bool) : PowerWorld :=
  { w with
    calls := Function.update w.calls w.nextCall (some ⟨.entered, shared⟩)
    nextCall := w.nextCall + 1 }

/-- A call gets further. -/
def advance (w : PowerWorld) (k : ℕ) (c : PowerCall) : PowerWorld :=
  { w with calls := Function.update w.calls k (some c) }

/-- A call has made its message. -/
def computed (w : PowerWorld) (k : ℕ) (msg : ArcMsg) (shared : Bool) : PowerWorld :=
  { w.advance k ⟨.computed msg, shared⟩ with unsent := w.unsent ++ [k] }

/-- A call is over. -/
def leave (w : PowerWorld) (k : ℕ) : PowerWorld :=
  { w with
    calls := Function.update w.calls k none
    unsent := w.unsent.erase k }

/-- `TtBumpResetGen`, as far as the power state is concerned. -/
def bumped (w : PowerWorld) (F : Handle) : PowerWorld :=
  { w with
    resetGen := w.resetGen + 1
    openResetGen := Function.update w.openResetGen F (w.resetGen + 1) }

/-- A file object is listed, with the generation it latched and the default contribution. -/
def listed (w : PowerWorld) (gen : ℕ) : PowerWorld :=
  { w with
    openResetGen := Function.update w.openResetGen w.nextFile gen
    power := Function.update w.power w.nextFile ttPowerFileDefault
    fileList := w.fileList ++ [w.nextFile]
    nextFile := w.nextFile + 1 }

/-- A contribution is stored. -/
def stored (w : PowerWorld) (F : Handle) (i : PowerStateIn) : PowerWorld :=
  { w with power := Function.update w.power F i.contribution }

/-- A file object is delisted and contributes no more. -/
def delisted (w : PowerWorld) (F : Handle) : PowerWorld :=
  { w with
    fileList := w.fileList.erase F
    power := Function.update w.power F { (w.power F) with contributes := false } }

/-- The message of a call is sent. -/
def sent (w : PowerWorld) (msg : ArcMsg) : PowerWorld :=
  if w.isBlackhole ∧ w.detached = false then { w with last := some msg } else w

/-- A call that runs under the reset resource. -/
def sharedCall (w : PowerWorld) : Bool :=
  (List.range w.nextCall).any fun k => (w.calls k).elim false (·.shared)

/-- One step; `none` is an event that cannot happen. -/
def next (w : PowerWorld) : PowerEvent → Option PowerWorld
  | .create gen => if gen ≤ w.resetGen then some ((w.listed gen).enter false) else none
  | .setPowerState F io i =>
      if F < w.nextFile ∧ w.detached = false ∧ w.openResetGen F = w.resetGen ∧
          setPowerStateCheck io i = .success then
        some ((w.stored F i).enter true)
      else none
  | .close F =>
      if F ∈ w.fileList then
        some (if (w.power F).contributes then (w.delisted F).enter false else w.delisted F)
      else none
  | .bump F =>
      if F < w.nextFile ∧ w.detached = false ∧ w.openResetGen F = w.resetGen ∧
          w.sharedCall = false then
        some (w.bumped F)
      else none
  | .detach => some { w with detached := true }
  | .readGen k =>
      match w.calls k with
      | some ⟨.entered, shared⟩ => some (w.advance k ⟨.read w.resetGen, shared⟩)
      | _ => none
  | .compute k =>
      match w.calls k with
      | some ⟨.read gen, shared⟩ => some (w.computed k
          (powerMessage (powerAggregate w.power w.openResetGen gen w.fileList)) shared)
      | _ => none
  | .send k =>
      match w.calls k with
      | some ⟨.computed msg, _⟩ => some ((w.sent msg).leave k)
      | _ => none

/-- A device after `EvtDevicePrepareHardware`, which has sent the aggregate of no handle. -/
def started (isBlackhole : Bool) : PowerWorld where
  isBlackhole
  detached := false
  resetGen := 0
  fileList := []
  nextFile := 0
  openResetGen := fun _ => 0
  power := fun _ => .init
  calls := fun _ => none
  nextCall := 0
  unsent := []
  last := if isBlackhole then some (powerMessage .empty) else none

/-- No call is in progress. -/
def Quiet (w : PowerWorld) : Prop := ∀ k < w.nextCall, (w.calls k).isNone = true

instance (w : PowerWorld) : Decidable w.Quiet :=
  inferInstanceAs (Decidable (∀ k < w.nextCall, (w.calls k).isNone = true))

/-- The phase of a call. -/
def phase (w : PowerWorld) (k : ℕ) : Option PowerPhase := (w.calls k).map (·.phase)

end PowerWorld

/-- The steps after which the firmware is told what it should be. A call sends its message
only when no older one is unsent. A reset finds no call between its read of the generation
and its aggregation, and either a call that has read nothing yet or nothing in the
aggregate that comes from a handle other than its own. -/
def InOrder (w : PowerWorld) : PowerEvent → Prop
  | .send k => w.unsent.head? = some k
  | .bump F => (∀ j gen, w.phase j ≠ some (.read gen)) ∧
      ((∃ j, w.phase j = some .entered) ∨
        aggregateOf ((w.contributors.filter (· == F)).map w.power) =
          aggregateOf (w.contributors.map w.power))
  | _ => True

/-- What holds of the listed handles. -/
structure FilesOk (w : PowerWorld) : Prop where
  /-- No handle is ahead of the device. -/
  noneAhead : ∀ F, w.openResetGen F ≤ w.resetGen
  /-- No handle is listed twice. -/
  nodup : w.fileList.Nodup
  /-- A listed handle was opened. -/
  opened : ∀ F ∈ w.fileList, F < w.nextFile
  /-- A listed handle contributes. -/
  contributing : ∀ F ∈ w.fileList, (w.power F).contributes = true

section Files

variable {w : PowerWorld} {F : Handle}

/-- A handle is listed. -/
theorem FilesOk.listed (h : FilesOk w) {gen : ℕ} (hgen : gen ≤ w.resetGen) :
    FilesOk (w.listed gen) := by
  have hfresh : ∀ G ∈ w.fileList, G ≠ w.nextFile := fun G hG => Nat.ne_of_lt (h.opened G hG)
  constructor
  · intro G
    by_cases hG : G = w.nextFile
    · subst hG
      simpa [PowerWorld.listed] using hgen
    · simpa [PowerWorld.listed, hG] using h.noneAhead G
  · simp only [PowerWorld.listed, List.nodup_append, List.nodup_singleton, true_and,
      List.mem_singleton]
    refine ⟨h.nodup, ?_⟩
    rintro G hG _ rfl
    exact hfresh G hG
  · intro G hG
    simp only [PowerWorld.listed, List.mem_append, List.mem_singleton] at hG ⊢
    rcases hG with hG | rfl
    · exact (h.opened G hG).trans (Nat.lt_succ_self _)
    · exact Nat.lt_succ_self _
  · intro G hG
    simp only [PowerWorld.listed, List.mem_append, List.mem_singleton] at hG ⊢
    rcases hG with hG | rfl
    · rw [Function.update_of_ne (hfresh G hG)]
      exact h.contributing G hG
    · rw [Function.update_self]
      rfl

/-- A contribution is stored. -/
theorem FilesOk.stored (h : FilesOk w) (i : PowerStateIn) : FilesOk (w.stored F i) := by
  refine ⟨h.noneAhead, h.nodup, h.opened, ?_⟩
  intro G hG
  by_cases hGF : G = F
  · subst hGF
    simp [PowerWorld.stored, PowerStateIn.contribution]
  · simpa [PowerWorld.stored, hGF] using h.contributing G hG

/-- A handle is delisted. -/
theorem FilesOk.delisted (h : FilesOk w) : FilesOk (w.delisted F) := by
  refine ⟨h.noneAhead, h.nodup.erase F, ?_, ?_⟩
  · exact fun G hG => h.opened G (List.mem_of_mem_erase hG)
  · intro G hG
    have hGF : G ≠ F := by
      rintro rfl
      exact h.nodup.not_mem_erase hG
    simpa [PowerWorld.delisted, hGF] using h.contributing G (List.mem_of_mem_erase hG)

/-- The generation is bumped. -/
theorem FilesOk.bumped (h : FilesOk w) : FilesOk (w.bumped F) := by
  refine ⟨?_, h.nodup, h.opened, h.contributing⟩
  intro G
  by_cases hGF : G = F
  · subst hGF
    simp [PowerWorld.bumped]
  · simpa [PowerWorld.bumped, hGF] using (h.noneAhead G).trans (Nat.le_succ _)

/-- After a bump only the handle of the reset contributes. -/
theorem contributors_bumped (h : FilesOk w) (hF : w.openResetGen F = w.resetGen) :
    (w.bumped F).contributors = w.contributors.filter (· == F) := by
  unfold PowerWorld.contributors TtKmd.contributors PowerWorld.bumped
  rw [List.filter_filter]
  apply List.filter_congr
  intro G _
  by_cases hGF : G = F
  · subst hGF
    simp [hF]
  · have hle := h.noneAhead G
    have hahead : (w.openResetGen G == w.resetGen + 1) = false := beq_false_of_ne (by omega)
    have hother : (G == F) = false := beq_false_of_ne hGF
    simp [hGF, hahead, hother]

end Files

/-- What holds along a run that is in order. -/
structure PowerInv (w : PowerWorld) : Prop where
  /-- The listed handles. -/
  files : FilesOk w
  /-- The calls are numbered in the order they begin. -/
  begun : ∀ k, w.nextCall ≤ k → w.phase k = none
  /-- No call is in the queue of messages twice. -/
  nodup : w.unsent.Nodup
  /-- A call in the queue has made its message. -/
  queued : ∀ k ∈ w.unsent, ∃ msg, w.phase k = some (.computed msg)
  /-- A generation that was read is the current one. -/
  current : ∀ k gen, w.phase k = some (.read gen) → gen = w.resetGen
  /-- Some call is still to aggregate, or the newest unsent message is the right one, or it
  was sent last. -/
  settled : w.detached = false → w.isBlackhole = true →
    (∃ k, w.phase k = some .entered ∨ ∃ gen, w.phase k = some (.read gen)) ∨
      (∃ k, w.unsent.getLast? = some k ∧ w.phase k = some (.computed w.wanted)) ∨
      (w.unsent = [] ∧ w.last = some w.wanted)

section Steps

variable {w w' : PowerWorld} {F : Handle} {k : ℕ}

/-- The phases after a call began. -/
theorem phase_enter (w : PowerWorld) (shared : Bool) (j : ℕ) :
    (w.enter shared).phase j = if j = w.nextCall then some .entered else w.phase j := by
  unfold PowerWorld.phase PowerWorld.enter
  by_cases hj : j = w.nextCall <;> simp [hj]

/-- The phases after a call got further. -/
theorem phase_advance (w : PowerWorld) (k : ℕ) (c : PowerCall) (j : ℕ) :
    (w.advance k c).phase j = if j = k then some c.phase else w.phase j := by
  unfold PowerWorld.phase PowerWorld.advance
  by_cases hj : j = k <;> simp [hj]

/-- The phases after a call is over. -/
theorem phase_leave (w : PowerWorld) (k j : ℕ) :
    (w.leave k).phase j = if j = k then none else w.phase j := by
  unfold PowerWorld.phase PowerWorld.leave
  by_cases hj : j = k <;> simp [hj]

/-- The handles and the generation decide what holds of the handles. -/
theorem FilesOk.congr (h : FilesOk w) (hgen : w'.resetGen = w.resetGen)
    (hopen : w'.openResetGen = w.openResetGen) (hlist : w'.fileList = w.fileList)
    (hnext : w'.nextFile = w.nextFile) (hpower : w'.power = w.power) : FilesOk w' := by
  refine ⟨?_, ?_, ?_, ?_⟩
  · rw [hgen, hopen]
    exact h.noneAhead
  · rw [hlist]
    exact h.nodup
  · rw [hlist, hnext]
    exact h.opened
  · rw [hlist, hpower]
    exact h.contributing

/-- A call that has not made its message is not in the queue. -/
theorem PowerInv.ne_of_unsent (h : PowerInv w) (hk : ∀ msg, w.phase k ≠ some (.computed msg)) :
    ∀ j ∈ w.unsent, j ≠ k := by
  rintro j hj rfl
  obtain ⟨msg, hmsg⟩ := h.queued j hj
  exact hk msg hmsg

/-- A call that is in progress has begun. -/
theorem PowerInv.lt_nextCall (h : PowerInv w) {p : PowerPhase} (hk : w.phase k = some p) :
    k < w.nextCall := by
  by_contra hge
  rw [h.begun k (Nat.le_of_not_lt hge)] at hk
  cases hk

/-- An entry point changes the handles and begins a call. -/
theorem PowerInv.enter (h : PowerInv w) (hfiles : FilesOk w') (hcalls : w'.calls = w.calls)
    (hnext : w'.nextCall = w.nextCall) (hunsent : w'.unsent = w.unsent)
    (hgen : w'.resetGen = w.resetGen) (shared : Bool) : PowerInv (w'.enter shared) := by
  have hphase : ∀ j, (w'.enter shared).phase j =
      if j = w.nextCall then some .entered else w.phase j := by
    intro j
    rw [phase_enter, hnext]
    unfold PowerWorld.phase
    rw [hcalls]
  have hlater : (w'.enter shared).nextCall = w.nextCall + 1 := congrArg (· + 1) hnext
  refine ⟨hfiles.congr rfl rfl rfl rfl rfl, ?_, ?_, ?_, ?_, ?_⟩
  · intro k hk
    rw [hlater] at hk
    rw [hphase, if_neg (by omega)]
    exact h.begun k (by omega)
  · exact hunsent ▸ h.nodup
  · intro k hk
    obtain ⟨msg, hmsg⟩ := h.queued k (hunsent ▸ hk)
    have hlt := h.lt_nextCall hmsg
    exact ⟨msg, by rw [hphase, if_neg (by omega), hmsg]⟩
  · intro k gen hk
    rw [hphase] at hk
    split at hk
    · cases hk
    · exact (h.current k gen hk).trans hgen.symm
  · intro _ _
    refine .inl ⟨w.nextCall, .inl ?_⟩
    rw [hphase, if_pos rfl]

/-- A call reads the generation. -/
theorem PowerInv.readGen (h : PowerInv w) (hk : w.phase k = some .entered) {shared : Bool} :
    PowerInv (w.advance k ⟨.read w.resetGen, shared⟩) := by
  refine ⟨h.files.congr rfl rfl rfl rfl rfl, ?_, h.nodup, ?_, ?_, ?_⟩
  · intro j hj
    have hlt := h.lt_nextCall hk
    have hle : w.nextCall ≤ j := hj
    rw [phase_advance, if_neg (by omega)]
    exact h.begun j hj
  · intro j hj
    obtain ⟨msg, hmsg⟩ := h.queued j hj
    have hne : j ≠ k := h.ne_of_unsent (by simp [hk]) j hj
    exact ⟨msg, by rw [phase_advance, if_neg hne, hmsg]⟩
  · intro j gen hj
    rw [phase_advance] at hj
    split at hj
    · cases hj
      rfl
    · exact h.current j gen hj
  · intro _ _
    refine .inl ⟨k, .inr ⟨w.resetGen, ?_⟩⟩
    rw [phase_advance, if_pos rfl]

/-- A call aggregates, with the current generation. -/
theorem PowerInv.compute (h : PowerInv w) (hk : w.phase k = some (.read w.resetGen))
    {shared : Bool} : PowerInv (w.computed k (powerMessage
      (powerAggregate w.power w.openResetGen w.resetGen w.fileList)) shared) := by
  have hnew : ∀ j ∈ w.unsent, j ≠ k := h.ne_of_unsent (by simp [hk])
  have hphase : ∀ j, (w.computed k (powerMessage
      (powerAggregate w.power w.openResetGen w.resetGen w.fileList)) shared).phase j =
        if j = k then some (.computed w.wanted) else w.phase j := by
    intro j
    have hmsg : powerMessage (powerAggregate w.power w.openResetGen w.resetGen w.fileList) =
        w.wanted := by
      rw [powerAggregate_eq]
      rfl
    rw [hmsg]
    exact phase_advance w k _ j
  refine ⟨h.files.congr rfl rfl rfl rfl rfl, ?_, ?_, ?_, ?_, ?_⟩
  · intro j hj
    have hlt := h.lt_nextCall hk
    have hle : w.nextCall ≤ j := hj
    rw [hphase, if_neg (by omega)]
    exact h.begun j hj
  · refine List.nodup_append.mpr ⟨h.nodup, List.nodup_singleton k, ?_⟩
    rintro j hj _ hk'
    rw [List.mem_singleton.mp hk']
    exact hnew j hj
  · intro j hj
    rcases List.mem_append.mp hj with hj | hj
    · obtain ⟨msg, hmsg⟩ := h.queued j hj
      exact ⟨msg, by rw [hphase, if_neg (hnew j hj), hmsg]⟩
    · rw [List.mem_singleton.mp hj]
      exact ⟨w.wanted, by rw [hphase, if_pos rfl]⟩
  · intro j gen hj
    rw [hphase] at hj
    split at hj
    · cases hj
    · exact h.current j gen hj
  · intro _ _
    refine .inr (.inl ⟨k, ?_, ?_⟩)
    · exact List.getLast?_concat
    · rw [hphase, if_pos rfl]
      rfl

/-- A send changes the message sent last, on an attached Blackhole. -/
theorem sent_eq (w : PowerWorld) (msg : ArcMsg) :
    ∃ last, w.sent msg = { w with last } ∧
      (w.detached = false → w.isBlackhole = true → last = some msg) := by
  unfold PowerWorld.sent
  split
  · exact ⟨some msg, rfl, fun _ _ => rfl⟩
  · rename_i hno
    refine ⟨w.last, rfl, ?_⟩
    intro hatt hblack
    exact absurd ⟨hblack, hatt⟩ hno

/-- A call sends the oldest message. -/
theorem PowerInv.send (h : PowerInv w) {msg : ArcMsg} (hk : w.phase k = some (.computed msg))
    (holdest : w.unsent.head? = some k) : PowerInv ((w.sent msg).leave k) := by
  obtain ⟨last, hsent, hlast⟩ := sent_eq w msg
  rw [hsent]
  obtain ⟨later, hlater⟩ := List.head?_eq_some_iff.mp holdest
  have hrest : (PowerWorld.leave { w with last } k).unsent = later := by
    simp [PowerWorld.leave, hlater]
  have hnodup : k ∉ later ∧ later.Nodup := List.nodup_cons.mp (hlater ▸ h.nodup)
  have hne : ∀ j ∈ later, j ≠ k := by
    rintro j hj rfl
    exact hnodup.1 hj
  have hphase : ∀ j, (PowerWorld.leave { w with last } k).phase j =
      if j = k then none else w.phase j := fun j => phase_leave _ k j
  refine ⟨h.files.congr rfl rfl rfl rfl rfl, ?_, hrest ▸ hnodup.2, ?_, ?_, ?_⟩
  · intro j hj
    rw [hphase]
    split
    · rfl
    · exact h.begun j hj
  · intro j hj
    rw [hrest] at hj
    obtain ⟨m, hm⟩ := h.queued j (hlater ▸ List.mem_cons_of_mem k hj)
    exact ⟨m, by rw [hphase, if_neg (hne j hj), hm]⟩
  · intro j gen hj
    rw [hphase] at hj
    split at hj
    · cases hj
    · exact h.current j gen hj
  · intro hatt hblack
    rw [hrest]
    rcases h.settled hatt hblack with ⟨j, hj⟩ | ⟨j, hnewest, hj⟩ | ⟨hno, -⟩
    · have hjk : j ≠ k := by
        rintro rfl
        rw [hk] at hj
        rcases hj with hj | ⟨gen, hj⟩ <;> cases hj
      refine .inl ⟨j, ?_⟩
      rw [hphase, if_neg hjk]
      exact hj
    · rw [hlater] at hnewest
      cases later with
      | nil =>
        -- the message that is sent is the newest one as well
        obtain rfl : k = j := by simpa using hnewest
        rw [hk] at hj
        simp only [Option.some.injEq, PowerPhase.computed.injEq] at hj
        exact .inr (.inr ⟨rfl, (hlast hatt hblack).trans (congrArg some hj)⟩)
      | cons k' later =>
        rw [List.getLast?_cons_cons] at hnewest
        refine .inr (.inl ⟨j, hnewest, ?_⟩)
        rw [hphase, if_neg (hne j (List.mem_of_getLast? hnewest))]
        exact hj
    · rw [hlater] at hno
      cases hno

/-- A reset that takes no contribution away, or finds a call that is still to aggregate. -/
theorem PowerInv.bump (h : PowerInv w) (hF : w.openResetGen F = w.resetGen)
    (horder : InOrder w (.bump F)) : PowerInv (w.bumped F) := by
  obtain ⟨hread, hsame⟩ := horder
  refine ⟨h.files.bumped, h.begun, h.nodup, h.queued, ?_, ?_⟩
  · intro j gen hj
    exact absurd hj (hread j gen)
  · intro hatt hblack
    rcases hsame with ⟨j, hj⟩ | hsame
    · exact .inl ⟨j, .inl hj⟩
    · have hwanted : (w.bumped F).wanted = w.wanted := by
        unfold PowerWorld.wanted
        rw [contributors_bumped h.files hF]
        exact congrArg powerMessage hsame
      rw [hwanted]
      exact h.settled hatt hblack

/-- A step that is in order keeps the invariant. -/
theorem PowerInv.next {e : PowerEvent} (h : PowerInv w) (horder : InOrder w e)
    (hstep : w.next e = some w') : PowerInv w' := by
  cases e with
  | create gen =>
    obtain ⟨hgen, rfl⟩ := guard_of_eq_some hstep
    exact h.enter (h.files.listed hgen) rfl rfl rfl rfl false
  | setPowerState F io i =>
    obtain ⟨-, rfl⟩ := guard_of_eq_some hstep
    exact h.enter (h.files.stored i) rfl rfl rfl rfl true
  | close F =>
    simp only [PowerWorld.next] at hstep
    split at hstep
    · rename_i hF
      rw [if_pos (h.files.contributing F hF)] at hstep
      cases hstep
      exact h.enter h.files.delisted rfl rfl rfl rfl false
    · cases hstep
  | bump F =>
    obtain ⟨hF, rfl⟩ := guard_of_eq_some hstep
    exact h.bump hF.2.2.1 horder
  | detach =>
    cases hstep
    refine ⟨h.files.congr rfl rfl rfl rfl rfl, h.begun, h.nodup, h.queued, h.current, ?_⟩
    intro hatt
    cases hatt
  | readGen k =>
    simp only [PowerWorld.next] at hstep
    split at hstep
    · rename_i shared hk
      cases hstep
      exact h.readGen (by simp [PowerWorld.phase, hk])
    · cases hstep
  | compute k =>
    simp only [PowerWorld.next] at hstep
    split at hstep
    · rename_i gen shared hk
      have hphase : w.phase k = some (.read gen) := by simp [PowerWorld.phase, hk]
      obtain rfl : gen = w.resetGen := h.current k gen hphase
      cases hstep
      exact h.compute hphase
    · cases hstep
  | send k =>
    simp only [PowerWorld.next] at hstep
    split at hstep
    · rename_i msg shared hk
      cases hstep
      exact h.send (by simp [PowerWorld.phase, hk]) horder
    · cases hstep

/-- The invariant holds of a started device. -/
theorem PowerInv.started (isBlackhole : Bool) : PowerInv (.started isBlackhole) := by
  have hnone : ∀ k, (PowerWorld.started isBlackhole).phase k = none := fun _ => rfl
  refine ⟨⟨fun _ => le_rfl, List.nodup_nil, by simp [PowerWorld.started],
    by simp [PowerWorld.started]⟩, fun k _ => hnone k, List.nodup_nil, ?_, ?_, ?_⟩
  · intro k hk
    cases hk
  · intro k gen hk
    rw [hnone] at hk
    cases hk
  · intro _ hblack
    have hblack' : isBlackhole = true := hblack
    refine .inr (.inr ⟨rfl, ?_⟩)
    simp only [PowerWorld.started, hblack', if_true]
    rfl

/-- Only a Blackhole is sent a message. -/
theorem blackhole_next {e : PowerEvent} (hstep : w.next e = some w') :
    w'.isBlackhole = w.isBlackhole ∧ (w.isBlackhole = false → w'.last = w.last) := by
  cases e with
  | detach =>
    cases hstep
    exact ⟨rfl, fun _ => rfl⟩
  | close F =>
    simp only [PowerWorld.next] at hstep
    split at hstep
    · split at hstep <;> cases hstep <;> exact ⟨rfl, fun _ => rfl⟩
    · cases hstep
  | send k =>
    simp only [PowerWorld.next] at hstep
    split at hstep
    · cases hstep
      unfold PowerWorld.sent
      split
      · rename_i hblack
        refine ⟨rfl, ?_⟩
        intro hno
        rw [hblack.1] at hno
        cases hno
      · exact ⟨rfl, fun _ => rfl⟩
    · cases hstep
  | _ =>
    simp only [PowerWorld.next] at hstep
    split at hstep
    · cases hstep
      exact ⟨rfl, fun _ => rfl⟩
    · cases hstep

/-- A call that is not interrupted sends the message of the handles it finds. -/
theorem uninterrupted_call (w : PowerWorld) (shared : Bool) :
    ∃ w', runList PowerWorld.next (w.enter shared)
        [.readGen w.nextCall, .compute w.nextCall, .send w.nextCall] = some w' ∧
      w'.last = (w.sent w.wanted).last ∧ w'.fileList = w.fileList ∧
      w'.openResetGen = w.openResetGen ∧ w'.power = w.power := by
  have hmsg : powerMessage (powerAggregate w.power w.openResetGen w.resetGen w.fileList) =
      w.wanted := by
    rw [powerAggregate_eq]
    rfl
  have hread : (w.enter shared).next (.readGen w.nextCall) =
      some ((w.enter shared).advance w.nextCall ⟨.read w.resetGen, shared⟩) := by
    simp [PowerWorld.next, PowerWorld.enter]
  simp only [runList, hread, Option.bind_some]
  have hcompute : ((w.enter shared).advance w.nextCall ⟨.read w.resetGen, shared⟩).next
      (.compute w.nextCall) = some (((w.enter shared).advance w.nextCall
        ⟨.read w.resetGen, shared⟩).computed w.nextCall w.wanted shared) := by
    simp only [PowerWorld.next, PowerWorld.advance, Function.update_self]
    rw [← hmsg]
    rfl
  simp only [hcompute, Option.bind_some]
  simp only [PowerWorld.next, PowerWorld.computed, PowerWorld.advance, Function.update_self,
    Option.bind_some]
  refine ⟨_, rfl, ?_⟩
  unfold PowerWorld.sent PowerWorld.leave PowerWorld.enter
  split <;> exact ⟨rfl, rfl, rfl, rfl⟩

end Steps

/-- In a run that is in order, whenever the device is attached and no call is in progress,
the message sent last is that of the handles that are open, contributing and of the
current generation. A device that is no Blackhole is sent none. -/
theorem firmware_told_wanted {isBlackhole : Bool} {es : List PowerEvent} {w : PowerWorld}
    (hrun : Run (restrict (partialGraph PowerWorld.next) InOrder) (.started isBlackhole) es w)
    (hattached : w.detached = false) (hquiet : w.Quiet) :
    w.last = if isBlackhole then
      some (powerMessage (aggregateOf (w.contributors.map w.power))) else none := by
  have hinv : PowerInv w :=
    hrun.invariant (fun _ _ _ h hstep => h.next hstep.1 hstep.2) (.started isBlackhole)
  have hkind : w.isBlackhole = isBlackhole ∧ (isBlackhole = false → w.last = none) := by
    refine @Run.invariant _ _ _ (fun w : PowerWorld => w.isBlackhole = isBlackhole ∧
      (isBlackhole = false → w.last = none)) _ _ _ ?_ ?_ hrun
    · rintro v e v' ⟨hsame, hnone⟩ ⟨-, hstep⟩
      obtain ⟨hkept, hlast⟩ := blackhole_next hstep
      refine ⟨hkept.trans hsame, fun hno => ?_⟩
      rw [hlast (hsame.trans hno)]
      exact hnone hno
    · exact ⟨rfl, fun hno => by simp [PowerWorld.started, hno]⟩
  have hnophase : ∀ k, w.phase k = none := by
    intro k
    rcases Nat.lt_or_ge k w.nextCall with hk | hk
    · simpa [PowerWorld.phase] using hquiet k hk
    · exact hinv.begun k hk
  cases hblack : isBlackhole with
  | false => simpa using hkind.2 hblack
  | true =>
    rcases hinv.settled hattached (hkind.1.trans hblack) with ⟨k, hk | ⟨gen, hk⟩⟩ | ⟨k, -, hk⟩ | h
    · rw [hnophase] at hk
      cases hk
    · rw [hnophase] at hk
      cases hk
    · rw [hnophase] at hk
      cases hk
    · exact h.2

/-- Two handles are opened, and their calls overlap; the messages are sent in order. -/
def openedTogether : List PowerEvent :=
  [.create 0, .create 0, .readGen 0, .readGen 1, .compute 0, .compute 1, .send 0, .send 1]

/-- The firmware was told the default contributions of both handles. -/
theorem firmware_told_wanted_openedTogether :
    ∃ w, Run (restrict (partialGraph PowerWorld.next) InOrder) (.started true) openedTogether w ∧
      w.contributors = [0, 1] ∧
      w.last = some (powerMessage (aggregateOf (w.contributors.map w.power))) := by
  obtain ⟨w, hrun, hattached, hquiet, hboth⟩ : ∃ w,
      Run (restrict (partialGraph PowerWorld.next) InOrder) (.started true) openedTogether w ∧
        w.detached = false ∧ w.Quiet ∧ w.contributors = [0, 1] := by
    refine ⟨_, .cons ⟨trivial, rfl⟩ (.cons ⟨trivial, rfl⟩ (.cons ⟨trivial, rfl⟩
      (.cons ⟨trivial, rfl⟩ (.cons ⟨trivial, rfl⟩ (.cons ⟨trivial, rfl⟩ (.cons ⟨?_, rfl⟩
        (.cons ⟨?_, rfl⟩ (.nil _)))))))), rfl, by decide, by decide⟩
    · rfl
    · rfl
  exact ⟨w, hrun, hboth, firmware_told_wanted hrun hattached hquiet⟩

/-- `SET_POWER_STATE` with every flag on. -/
def fullPower : PowerStateIn := ⟨40, 0, 0, 15, powerFlagAll, fun _ => 0⟩

/-- The call of a second open aggregates; before it sends, the first handle asks for full
power, and its call aggregates and sends. -/
def overtaken : List PowerEvent :=
  [.create 0, .readGen 0, .compute 0, .send 0, .create 0, .readGen 1, .compute 1,
   .setPowerState 0 ⟨40, 0⟩ fullPower, .readGen 2, .compute 2, .send 2, .send 1]

/-- No call is in progress, and the message sent last is the older one. -/
theorem overtaken_tells_old :
    ∃ w, Run (partialGraph PowerWorld.next) (.started true) overtaken w ∧ w.detached = false ∧
      w.Quiet ∧ w.last ≠ some (powerMessage (aggregateOf (w.contributors.map w.power))) := by
  have heval : ((runList PowerWorld.next (.started true) overtaken).map fun w =>
      !w.detached && decide w.Quiet && decide (w.last.map (· 0) ≠
        some (powerMessage (aggregateOf (w.contributors.map w.power)) 0))) = some true := by
    decide +kernel
  obtain ⟨w, hw, htest⟩ := Option.map_eq_some_iff.mp heval
  simp only [Bool.and_eq_true, decide_eq_true_eq, Bool.not_eq_true'] at htest
  obtain ⟨⟨hattached, hquiet⟩, hheader⟩ := htest
  refine ⟨w, run_of_runList hw, hattached, hquiet, ?_⟩
  intro hlast
  rw [hlast] at hheader
  exact hheader rfl

end TtKmd
