import TtKmd.Lib.Runs
import TtKmd.Reset.Snapshot

/-!
# Where the restored values come from

A read of the configuration space behind a dead link succeeds with all ones. The restore asks
for the vendor before it writes, but the snapshot is taken without asking, on resume and in
other places, and a snapshot of a dead link is marked valid. When the link is back, the restore
writes all ones to the device. In runs in which the device answers whenever a snapshot is
taken, everything that is restored was read from the device.

A routine of the driver sees one state of the link; the link may go down or come up between any
two routines of a handler.
-/

namespace TtKmd

open Lib

/-! ## The link -/

/-- The routines of the handlers that access the configuration space. -/
inductive ConfigCall
  /-- `TtDiscoverPcieCap`. -/
  | discover
  /-- `TtBhInitHardware`. -/
  | initHardware
  /-- `TtPciSaveState`. -/
  | save
  /-- The part of `TtSafeRestoreState` in front of its `TtPciSaveState`. -/
  | restore
  deriving DecidableEq

/-- A device behind a link. -/
structure LinkWorld where
  /-- `IsBlackhole`. -/
  isBlackhole : Bool
  /-- `HardwareInitDone`. -/
  hardwareInitDone : Bool
  /-- `NeedsHwInit`. -/
  needsHwInit : Bool
  /-- The link is up. -/
  linkUp : Bool
  /-- The registers of the device, and what the driver remembers of them. -/
  config : ConfigState
  /-- The routines that the handler in progress has yet to call. -/
  todo : List ConfigCall
  /-- The value of the snapshot was read from a device that answered. -/
  fromDevice : SavedValue → Bool

/-- What can happen. -/
inductive LinkEvent
  /-- The link goes down. -/
  | linkDown
  /-- The link comes up. -/
  | linkUp
  /-- The chip is reset, or changes its registers. -/
  | chip (cfg : ℕ → BitVec 16)
  /-- `TtEvtDevicePrepareHardware`; the bus interface is there, the BARs are mapped. -/
  | prepareHardware (haveBusIf mapped : Bool)
  /-- `TtEvtDeviceD0Entry`. -/
  | d0Entry (fromD3Final : Bool)
  /-- `TtEvtDeviceReleaseHardware`. -/
  | releaseHardware
  /-- `RESTORE_STATE`. -/
  | restoreState
  /-- `USER_RESET`. -/
  | userReset
  /-- `POST_RESET`. -/
  | postReset
  /-- The handler in progress calls its next routine. -/
  | call

/-- `TT_PCI_DEVICE_ID_BLACKHOLE`. -/
def pciDeviceIdBlackhole : BitVec 16 := 0xB140

/-- `PCI_COMMAND_MASTER`. -/
def pciCommandMaster : BitVec 16 := 0x0004

/-- Bus mastering is switched on by `TtEvtDevicePrepareHardware`. -/
def enableBusMaster (c : ConfigState) : ConfigState :=
  match ttCfgReadWord c pciCommand with
  | some command =>
      if command ≠ 0xFFFF ∧ command &&& pciCommandMaster = 0 then
        ttCfgWriteWord c pciCommand (command ||| pciCommandMaster)
      else c
  | none => c

/-- The configuration space as the driver reads it: all ones behind a dead link. -/
def LinkWorld.view (w : LinkWorld) : ConfigState :=
  if w.linkUp then w.config else { w.config with cfg := fun _ => 0xFFFF }

/-- The configuration space after a routine. Writes to a dead link are lost. -/
def LinkWorld.access (w : LinkWorld) (f : ConfigState → ConfigState) : ConfigState :=
  if w.linkUp then f w.config else { f w.view with cfg := w.config.cfg }

/-- The device answers: its vendor is read. -/
def LinkWorld.answers (w : LinkWorld) : Bool :=
  decide (ttCfgReadWord w.view 0x00 = some pciVendorId)

/-- Where the values of the snapshot come from after a `TtPciSaveState`: it reads the header,
and the capability if it finds one. -/
def LinkWorld.savedFrom (w : LinkWorld) : SavedValue → Bool
  | .header i => if w.config.busInterfaceValid then w.answers else w.fromDevice (.header i)
  | .devCtl =>
      if w.config.busInterfaceValid ∧ (ttPciSaveState w.view).pcieCapOffset.offset ≠ 0 then
        w.answers
      else w.fromDevice .devCtl
  | .lnkCtl =>
      if w.config.busInterfaceValid ∧ (ttPciSaveState w.view).pcieCapOffset.offset ≠ 0 then
        w.answers
      else w.fromDevice .lnkCtl

/-- A routine. -/
def LinkWorld.runCall (w : LinkWorld) : ConfigCall → LinkWorld
  | .discover => { w with config := w.access ttDiscoverPcieCap }
  | .initHardware => { w with config := w.access fun c => (ttBhInitHardware c).2 }
  | .save => { w with config := w.access ttPciSaveState, fromDevice := w.savedFrom }
  | .restore =>
      if w.view.Restorable then
        { w with
          config := w.access fun c => (restoreWrites c).foldl RestoreWrite.perform c
          todo := .save :: (if w.isBlackhole then [.initHardware] else []) ++ w.todo }
      else w

/-- The part of `TtEvtDevicePrepareHardware` on the bus interface: the device is identified, and
bus mastering is switched on. -/
def LinkWorld.identified (w : LinkWorld) : LinkWorld :=
  { w with
    isBlackhole := w.view.cfg 0x00 == pciVendorId && w.view.cfg 0x02 == pciDeviceIdBlackhole
    config := w.access fun c => enableBusMaster { c with busInterfaceValid := true } }

/-- `TtEvtDevicePrepareHardware` behind the identification. -/
def LinkWorld.prepared (w : LinkWorld) (mapped : Bool) : LinkWorld :=
  if w.isBlackhole && mapped then
    { w with
      hardwareInitDone := true, needsHwInit := false, todo := [.discover, .initHardware, .save] }
  else w

/-- One step; `none` is an event that cannot happen. A handler begins when no other one is in
progress. -/
def LinkWorld.next (w : LinkWorld) : LinkEvent → Option LinkWorld
  | .linkDown => some { w with linkUp := false }
  | .linkUp => some { w with linkUp := true }
  | .chip cfg => some { w with config := { w.config with cfg } }
  | .call =>
      match w.todo with
      | [] => none
      | call :: todo => some ({ w with todo }.runCall call)
  | .prepareHardware haveBusIf mapped =>
      if w.todo = [] then some ((if haveBusIf then w.identified else w).prepared mapped) else none
  | .d0Entry fromD3Final =>
      if w.todo = [] then
        some (if w.isBlackhole && w.hardwareInitDone && !fromD3Final then
          { w with todo := [.initHardware, .save] } else w)
      else none
  | .releaseHardware =>
      if w.todo = [] then
        some { w with
          hardwareInitDone := false
          config := { w.config with savedStateValid := false, busInterfaceValid := false } }
      else none
  | .restoreState => if w.todo = [] then some { w with todo := [.restore] } else none
  | .userReset =>
      if w.todo = [] then some { w with needsHwInit := true, config := w.access ttSetResetMarker }
      else none
  | .postReset =>
      if w.todo = [] then
        some (if w.needsHwInit then
          { w with
            needsHwInit := false, todo := if ttIsResetMarkerZero w.view then [.restore] else [] }
        else w)
      else none

/-- A device that was added. -/
def LinkWorld.added (linkUp : Bool) (cfg : ℕ → BitVec 16) : LinkWorld where
  isBlackhole := false
  hardwareInitDone := false
  needsHwInit := false
  linkUp := linkUp
  config := ⟨false, cfg, .none, false, fun _ => 0, 0, 0⟩
  todo := []
  fromDevice := fun _ => false

/-! ## Provenance -/

/-- If the next routine is a restore that is not refused, everything it writes was read from a
device that answered. -/
def RestoresFromDevice (w : LinkWorld) : Prop :=
  w.todo.head? = some .restore → w.view.Restorable →
    ∀ x ∈ restoreWrites w.config, w.fromDevice x.source = true

/-- A snapshot of the configuration space is taken while the device answers. -/
def SavesFromDevice (w : LinkWorld) : LinkEvent → Prop
  | .call => w.todo.head? = some .save → w.config.busInterfaceValid = true → w.answers = true
  | _ => True

/-- The rests of the handlers. -/
def handlerRests : List (List ConfigCall) :=
  [[], [.discover, .initHardware, .save], [.initHardware, .save], [.save], [.restore],
    [.save, .initHardware], [.initHardware]]

/-- What holds in runs in which snapshots are taken while the device answers. -/
structure FromDevice (w : LinkWorld) : Prop where
  /-- The handler in progress has not gone astray. -/
  todo : w.todo ∈ handlerRests
  /-- The header of a valid snapshot. -/
  header : w.config.savedStateValid = true → ∀ i, w.fromDevice (.header i) = true
  /-- The capability of a valid snapshot, unless a new one is about to be taken. -/
  cap : w.config.savedStateValid = true → w.config.pcieCapOffset.offset ≠ 0 →
    .save ∉ w.todo → w.fromDevice .devCtl = true ∧ w.fromDevice .lnkCtl = true

section Steps

variable {w w' : LinkWorld}

/-- A routine keeps what it keeps behind any link. -/
theorem LinkWorld.access_kept {α : Type*} {g : ConfigState → α} {f : ConfigState → ConfigState}
    (hcfg : ∀ c cfg, g { c with cfg } = g c) (hf : ∀ c, g (f c) = g c) :
    g (w.access f) = g w.config := by
  unfold LinkWorld.access LinkWorld.view
  split
  · exact hf w.config
  · rw [hcfg, hf, hcfg]

/-- Steps that leave the snapshot, the place of the capability and the handler alone. -/
theorem FromDevice.kept (h : FromDevice w) (htodo : w'.todo = w.todo)
    (hvalid : w'.config.savedStateValid = w.config.savedStateValid)
    (hcap : w'.config.pcieCapOffset = w.config.pcieCapOffset)
    (hfrom : w'.fromDevice = w.fromDevice) : FromDevice w' where
  todo := htodo ▸ h.todo
  header := fun hv i => by
    rw [hfrom]
    exact h.header (hvalid ▸ hv) i
  cap := fun hv hc hs => by
    rw [hfrom]
    rw [hcap] at hc
    rw [htodo] at hs
    exact h.cap (hvalid ▸ hv) hc hs

/-- The handler stands in front of a routine. -/
theorem FromDevice.rest (h : FromDevice w) {call : ConfigCall} {todo : List ConfigCall}
    (htodo : w.todo = call :: todo) :
    (call = .discover ∧ todo = [.initHardware, .save]) ∨
      (call = .initHardware ∧ (todo = [.save] ∨ todo = [])) ∨
      (call = .save ∧ (todo = [.initHardware] ∨ todo = [])) ∨ (call = .restore ∧ todo = []) := by
  have hmem := h.todo
  rw [htodo] at hmem
  simp only [handlerRests, List.mem_cons, List.cons.injEq, reduceCtorEq, List.not_mem_nil,
    false_or, or_false] at hmem
  tauto

/-- `TtDiscoverPcieCap` as the first routine of a preparation. -/
theorem FromDevice.discover (h : FromDevice w) :
    FromDevice ({ w with todo := [.initHardware, .save] }.runCall .discover) where
  todo := List.mem_of_elem_eq_true rfl
  header := fun hv => by
    have hkept : (w.access ttDiscoverPcieCap).savedStateValid = w.config.savedStateValid :=
      LinkWorld.access_kept (fun _ _ => rfl) fun _ => rfl
    exact h.header (hkept ▸ hv)
  cap := fun _ _ hs => absurd (List.mem_cons_of_mem _ (List.mem_singleton_self _)) hs

/-- `TtBhInitHardware` in front of a snapshot, or behind one. -/
theorem FromDevice.initHardware (h : FromDevice w) {todo : List ConfigCall}
    (htodo : w.todo = .initHardware :: todo) (hrest : todo = [.save] ∨ todo = []) :
    FromDevice ({ w with todo }.runCall .initHardware) := by
  have hvalid : (w.access fun c => (ttBhInitHardware c).2).savedStateValid =
      w.config.savedStateValid :=
    LinkWorld.access_kept (fun _ _ => rfl) fun c => (commandKept_initHardware c).savedStateValid
  have hcap : (w.access fun c => (ttBhInitHardware c).2).pcieCapOffset =
      w.config.pcieCapOffset :=
    LinkWorld.access_kept (fun _ _ => rfl) fun c => (commandKept_initHardware c).pcieCapOffset
  refine ⟨?_, fun hv => h.header (hvalid ▸ hv), fun hv hc hs => ?_⟩
  · rcases hrest with rfl | rfl <;> exact List.mem_of_elem_eq_true rfl
  · refine h.cap (hvalid ▸ hv) (hcap ▸ hc) ?_
    rw [htodo]
    rcases hrest with rfl | rfl
    · exact absurd (List.mem_singleton_self _) hs
    · decide

/-- `TtPciSaveState` while the device answers. -/
theorem FromDevice.save (hanswers : w.config.busInterfaceValid = true → w.answers = true)
    {todo : List ConfigCall} (hrest : todo = [.initHardware] ∨ todo = []) :
    FromDevice ({ w with todo }.runCall .save) := by
  have hvalid : (w.access ttPciSaveState).savedStateValid = w.config.busInterfaceValid := by
    unfold LinkWorld.access LinkWorld.view
    split <;> exact ttPciSaveState_valid _
  have hcap : (w.access ttPciSaveState).pcieCapOffset =
      (ttPciSaveState w.view).pcieCapOffset := by
    unfold LinkWorld.access
    split
    · rename_i hup
      rw [LinkWorld.view, if_pos hup]
    · rfl
  refine ⟨?_, fun hv i => ?_, fun hv hc _ => ?_⟩
  · rcases hrest with rfl | rfl <;> exact List.mem_of_elem_eq_true rfl
  · have hbus : w.config.busInterfaceValid = true := hvalid ▸ hv
    exact (if_pos hbus).trans (hanswers hbus)
  · have hbus : w.config.busInterfaceValid = true := hvalid ▸ hv
    have hfound : (ttPciSaveState w.view).pcieCapOffset.offset ≠ 0 := hcap ▸ hc
    exact ⟨(if_pos ⟨hbus, hfound⟩).trans (hanswers hbus),
      (if_pos ⟨hbus, hfound⟩).trans (hanswers hbus)⟩

/-- The writes of a restore leave the snapshot alone. -/
theorem savedStateValid_foldl_perform (xs : List RestoreWrite) (c : ConfigState) :
    (xs.foldl RestoreWrite.perform c).savedStateValid = c.savedStateValid := by
  induction xs generalizing c with
  | nil => rfl
  | cons x xs ih =>
    rw [List.foldl_cons, ih]
    unfold RestoreWrite.perform ttCfgWriteDword ttCfgWriteWord
    split <;> cases hbus : c.busInterfaceValid <;> simp [hbus]

/-- A restore: a new snapshot comes next, or it is refused. -/
theorem FromDevice.restore (h : FromDevice w) (htodo : w.todo = [.restore]) :
    FromDevice ({ w with todo := [] }.runCall .restore) := by
  unfold LinkWorld.runCall
  dsimp only
  split
  · have hvalid : (w.access fun c => (restoreWrites c).foldl RestoreWrite.perform c).savedStateValid
        = w.config.savedStateValid :=
      LinkWorld.access_kept (fun _ _ => rfl) fun c => savedStateValid_foldl_perform _ c
    refine ⟨?_, fun hv => h.header (hvalid ▸ hv), fun _ _ hs => absurd (List.mem_cons_self ..) hs⟩
    cases w.isBlackhole <;> exact List.mem_of_elem_eq_true rfl
  · refine ⟨List.mem_of_elem_eq_true rfl, h.header, fun hv hc _ => h.cap hv hc ?_⟩
    rw [htodo]
    decide

/-- The next routine of a handler. -/
theorem FromDevice.call (h : FromDevice w) (hsaves : SavesFromDevice w .call)
    (hstep : w.next .call = some w') : FromDevice w' := by
  cases htodo : w.todo with
  | nil =>
    simp only [LinkWorld.next, htodo] at hstep
    cases hstep
  | cons call todo =>
    simp only [LinkWorld.next, htodo] at hstep
    cases hstep
    rcases h.rest htodo with ⟨rfl, rfl⟩ | ⟨rfl, hrest⟩ | ⟨rfl, hrest⟩ | ⟨rfl, rfl⟩
    · exact h.discover
    · exact h.initHardware htodo hrest
    · exact .save (hsaves (by rw [htodo]; rfl)) hrest
    · exact h.restore htodo

/-- Bus mastering leaves the snapshot alone. -/
theorem enableBusMaster_kept (c : ConfigState) :
    (enableBusMaster c).savedStateValid = c.savedStateValid ∧
      (enableBusMaster c).pcieCapOffset = c.pcieCapOffset := by
  unfold enableBusMaster ttCfgWriteWord
  cases hbus : c.busInterfaceValid
  · simp [ttCfgReadWord, hbus]
  · simp only [ttCfgReadWord, hbus, if_true]
    split <;> exact ⟨rfl, rfl⟩

/-- The identification leaves the snapshot alone. -/
theorem FromDevice.identified (h : FromDevice w) : FromDevice w.identified := by
  refine h.kept rfl ?_ ?_ rfl
  · exact LinkWorld.access_kept (fun _ _ => rfl)
      fun c => (enableBusMaster_kept { c with busInterfaceValid := true }).1
  · exact LinkWorld.access_kept (fun _ _ => rfl)
      fun c => (enableBusMaster_kept { c with busInterfaceValid := true }).2

/-- A handler begins that will take a new snapshot. -/
theorem FromDevice.starts (h : FromDevice w) (todo : List ConfigCall)
    (hrest : todo ∈ handlerRests) (hsave : .save ∈ todo)
    (hconfig : w'.config = w.config) (hfrom : w'.fromDevice = w.fromDevice)
    (htodo : w'.todo = todo) : FromDevice w' := by
  refine ⟨htodo ▸ hrest, ?_, fun _ _ hs => absurd hsave (htodo ▸ hs)⟩
  rw [hconfig, hfrom]
  exact h.header

/-- A preparation takes a new snapshot, or leaves the old one. -/
theorem FromDevice.prepared (h : FromDevice w) (mapped : Bool) :
    FromDevice (w.prepared mapped) := by
  unfold LinkWorld.prepared
  split
  · exact h.starts [.discover, .initHardware, .save] (by decide) (by decide) rfl rfl rfl
  · exact h

/-- A handler begins, or does not begin, to restore. -/
theorem FromDevice.restores (h : FromDevice w) (hidle : w.todo = []) {todo : List ConfigCall}
    (htodo : w'.todo = todo) (hrest : todo = [.restore] ∨ todo = [])
    (hconfig : w'.config = w.config) (hfrom : w'.fromDevice = w.fromDevice) : FromDevice w' := by
  refine ⟨?_, ?_, ?_⟩
  · rw [htodo]
    rcases hrest with rfl | rfl <;> decide
  · rw [hconfig, hfrom]
    exact h.header
  · rw [hconfig, hfrom]
    exact fun hv hc _ => h.cap hv hc (by rw [hidle]; exact List.not_mem_nil)

/-- Every step keeps the invariant. -/
theorem FromDevice.next (h : FromDevice w) {e : LinkEvent} (hsaves : SavesFromDevice w e)
    (hstep : w.next e = some w') : FromDevice w' := by
  cases e with
  | call => exact h.call hsaves hstep
  | linkDown =>
    cases hstep
    exact h.kept rfl rfl rfl rfl
  | linkUp =>
    cases hstep
    exact h.kept rfl rfl rfl rfl
  | chip cfg =>
    cases hstep
    exact h.kept rfl rfl rfl rfl
  | prepareHardware haveBusIf mapped =>
    obtain ⟨-, rfl⟩ := guard_of_eq_some hstep
    cases haveBusIf with
    | true => exact h.identified.prepared mapped
    | false => exact h.prepared mapped
  | d0Entry fromD3Final =>
    obtain ⟨-, rfl⟩ := guard_of_eq_some hstep
    split
    · exact h.starts [.initHardware, .save] (by decide) (by decide) rfl rfl rfl
    · exact h
  | releaseHardware =>
    obtain ⟨-, rfl⟩ := guard_of_eq_some hstep
    exact ⟨h.todo, fun hv => (by cases hv), fun hv => (by cases hv)⟩
  | restoreState =>
    obtain ⟨hidle, rfl⟩ := guard_of_eq_some hstep
    exact h.restores hidle rfl (.inl rfl) rfl rfl
  | userReset =>
    obtain ⟨-, rfl⟩ := guard_of_eq_some hstep
    refine h.kept rfl ?_ ?_ rfl
    · exact LinkWorld.access_kept (fun _ _ => rfl) fun c => (ttSetResetMarker_saved c).2.1
    · exact LinkWorld.access_kept (fun _ _ => rfl) fun c => (ttSetResetMarker_saved c).2.2
  | postReset =>
    obtain ⟨hidle, rfl⟩ := guard_of_eq_some hstep
    split
    · refine h.restores hidle rfl ?_ rfl rfl
      split
      · exact .inl rfl
      · exact .inr rfl
    · exact h

/-- Whatever a restore would write now was read from a device that answered. -/
theorem FromDevice.restoresFromDevice (h : FromDevice w) : RestoresFromDevice w := by
  intro hhead hrestorable x hx
  obtain ⟨todo, htodo⟩ : ∃ todo, w.todo = .restore :: todo := List.head?_eq_some_iff.mp hhead
  have hvalid : w.config.savedStateValid = true := by
    have hview := hrestorable.2
    unfold LinkWorld.view at hview
    split at hview <;> exact hview
  have hsave : ConfigCall.save ∉ w.todo := by
    rcases h.rest htodo with ⟨hno, -⟩ | ⟨hno, -⟩ | ⟨hno, -⟩ | ⟨-, hlast⟩
    · cases hno
    · cases hno
    · cases hno
    · rw [htodo, hlast]
      decide
  rcases restoreWrites_source hx with ⟨i, -, -, hsource⟩ | ⟨hcap, -, ⟨-, hsource⟩ | ⟨-, hsource⟩⟩
  · rw [hsource]
    exact h.header hvalid i
  · rw [hsource]
    exact (h.cap hvalid hcap hsave).1
  · rw [hsource]
    exact (h.cap hvalid hcap hsave).2

end Steps

/-- In every run, in any order and with the link going down and coming up at any time, in which
snapshots are taken while the device answers, a restore writes only what was read from a
device that answered. -/
theorem restores_from_device {linkUp : Bool} {cfg : ℕ → BitVec 16} {es : List LinkEvent}
    {w : LinkWorld}
    (hrun : Run (restrict (partialGraph LinkWorld.next) SavesFromDevice) (.added linkUp cfg) es w) :
    RestoresFromDevice w := by
  have hadded : FromDevice (.added linkUp cfg) :=
    ⟨List.mem_of_elem_eq_true rfl, fun hv => (by cases hv), fun hv => (by cases hv)⟩
  have h : FromDevice w := hrun.invariant (fun _ _ _ h hstep => h.next hstep.1 hstep.2) hadded
  exact h.restoresFromDevice

/-- The registers of a Blackhole without capabilities. -/
def blackholeRegisters : ℕ → BitVec 16
  | 0x00 => 0x1E52
  | 0x02 => 0xB140
  | 0x04 => 0x0006
  | 0x10 => 0x000C
  | _ => 0

/-- The preparation of the hardware, with all its routines. -/
def prepareCalls : List LinkEvent := [.prepareHardware true true, .call, .call, .call]

/-- The link is down for a while after the preparation, and then the snapshot is restored. -/
theorem restores_from_device_linkDown :
    ∃ w, Run (restrict (partialGraph LinkWorld.next) SavesFromDevice)
        (.added true blackholeRegisters) (prepareCalls ++ [.linkDown, .linkUp, .restoreState]) w ∧
      w.view.Restorable ∧ ∀ x ∈ restoreWrites w.config, w.fromDevice x.source = true := by
  have hrun : Run (restrict (partialGraph LinkWorld.next) SavesFromDevice)
      (.added true blackholeRegisters) (prepareCalls ++ [.linkDown, .linkUp, .restoreState]) _ :=
    .cons ⟨trivial, rfl⟩ (.cons ⟨fun hsave => (by cases hsave), rfl⟩
      (.cons ⟨fun hsave => (by cases hsave), rfl⟩ (.cons ⟨fun _ _ => rfl, rfl⟩
      (.cons ⟨trivial, rfl⟩ (.cons ⟨trivial, rfl⟩ (.cons ⟨trivial, rfl⟩ (.nil _)))))))
  exact ⟨_, hrun, ⟨rfl, rfl⟩, restores_from_device hrun rfl ⟨rfl, rfl⟩⟩

/-- The device resumes while the link is down, and the snapshot is restored when it is up: the
restore writes all ones to the first BAR. -/
theorem resumedBehindDeadLink :
    ∃ w w', Run (partialGraph LinkWorld.next) (.added true blackholeRegisters)
        (prepareCalls ++ [.linkDown, .d0Entry false, .call, .call, .linkUp, .restoreState]) w ∧
      ¬RestoresFromDevice w ∧ w.next .call = some w' ∧
      w'.config.cfg 0x10 = 0xFFFF ∧ w'.config.cfg 0x12 = 0xFFFF := by
  refine ⟨_, _, run_of_runList rfl, fun h => ?_, rfl, rfl, rfl⟩
  have hbar := h rfl ⟨rfl, rfl⟩ ⟨0x10, true, .header 4⟩ (List.mem_cons_self ..)
  cases hbar

end TtKmd
