import TtKmd.Lib.Runs

/-!
# The platform reset

`RESET_PCIE_LINK` hands the reset interface of the bus driver to a work item. The
interface counts its references by hand, the work item can outlive the one the device
context holds, and a flag keeps a second request away from the snapshot that the work
item has not copied yet.

Three parties take turns here, one statement at a time: the request inside
`TtPldrInitiate`, the runs of `TtPldrWorkItem`, and the two hardware callbacks that query
and drop the interface. Every owner of the flag is counted, and every owner that holds a
reference of the snapshot.
-/

namespace TtKmd

open Lib

/-- `DEVICE_RESET_INTERFACE_STANDARD`. -/
structure DeviceResetInterface where
  /-- The object whose references are counted. -/
  context : ℕ
  /-- `InterfaceReference` is not NULL. -/
  interfaceReference : Bool
  /-- `InterfaceDereference` is not NULL. -/
  interfaceDereference : Bool
  /-- `DeviceReset` is not NULL. -/
  deviceReset : Bool
  /-- `SupportedResetTypes`. -/
  supportedResetTypes : BitVec 32
  deriving DecidableEq

/-- The interface after `RtlZeroMemory`. -/
def DeviceResetInterface.zero : DeviceResetInterface := ⟨0, false, false, false, 0⟩

/-- An interface as the bus driver hands it out: both reference routines are there. -/
def DeviceResetInterface.counted (s : DeviceResetInterface) : Bool :=
  s.interfaceReference && s.interfaceDereference

/-- Where a `RESET_PCIE_LINK` request is in `TtPldrInitiate`. -/
inductive InitiateStage
  /-- Before the test of the interface. -/
  | entered
  /-- The platform can reset the link. -/
  | supported
  /-- `PldrQueued` was clear and is set. -/
  | claimed
  /-- `PldrSnapshot` is written. -/
  | copied
  /-- The snapshot's own reference is taken. -/
  | referenced
  deriving DecidableEq

/-- Where a run of `TtPldrWorkItem` is. Its local copy of the snapshot comes with the
number of the snapshot. -/
inductive PldrRun
  /-- Before the copy. -/
  | started
  /-- The snapshot is copied. -/
  | copied (number : ℕ) (s : DeviceResetInterface)
  /-- Inside `DeviceReset`. -/
  | calling (number : ℕ) (s : DeviceResetInterface)
  /-- `DeviceReset` has returned. -/
  | returned (number : ℕ) (s : DeviceResetInterface) (success : Bool)
  /-- The snapshot's reference is dropped. -/
  | dereferenced (success : Bool)
  /-- Past the last statement. -/
  | finished
  deriving DecidableEq

/-- Where the device is between its hardware callbacks. -/
inductive HardwareStage
  /-- Before `PrepareHardware`, and after `ReleaseHardware`. -/
  | released
  /-- `PrepareHardware` has zeroed `ResetInterface`. -/
  | zeroed
  /-- `PrepareHardware` is past the query. -/
  | prepared
  /-- `ReleaseHardware` has dropped the reference. -/
  | dropped
  deriving DecidableEq

/-- The fields of the device context, the three parties, and the record of references. -/
structure PldrWorld where
  /-- `ResetInterface`. -/
  resetInterface : DeviceResetInterface
  /-- `ResetInterfaceValid`. -/
  resetInterfaceValid : Bool
  /-- `PldrSnapshot`. -/
  pldrSnapshot : DeviceResetInterface
  /-- `PldrWorkItem` is not NULL. -/
  pldrWorkItem : Bool
  /-- `PldrQueued`. -/
  pldrQueued : Bool
  /-- The hardware callbacks. -/
  hardware : HardwareStage
  /-- The request that holds the reset resource exclusively and is in `TtPldrInitiate`. -/
  request : Option InitiateStage
  /-- How often the work item is enqueued and not run yet. -/
  enqueued : ℕ
  /-- The runs of the work item, in the order they began. -/
  runs : List PldrRun
  /-- The references of each interface object. -/
  refs : ℕ → ℕ
  /-- How many snapshots were written. -/
  snapshots : ℕ
  /-- The number of the snapshot that `PldrSnapshot` holds. -/
  number : ℕ
  /-- How often the reference of a snapshot was taken. -/
  taken : ℕ → ℕ
  /-- How often the reference of a snapshot was dropped. -/
  dropped : ℕ → ℕ

/-- The device context as `EvtDeviceAdd` leaves it. -/
def PldrWorld.init (pldrWorkItem : Bool) : PldrWorld where
  resetInterface := .zero
  resetInterfaceValid := false
  pldrSnapshot := .zero
  pldrWorkItem := pldrWorkItem
  pldrQueued := false
  hardware := .released
  request := none
  enqueued := 0
  runs := []
  refs := fun _ => 0
  snapshots := 0
  number := 0
  taken := fun _ => 0
  dropped := fun _ => 0

/-- `f` with one more at `i`. -/
def bump (f : ℕ → ℕ) (i : ℕ) : ℕ → ℕ := Function.update f i (f i + 1)

/-- `f` with one less at `i`. -/
def unbump (f : ℕ → ℕ) (i : ℕ) : ℕ → ℕ := Function.update f i (f i - 1)

/-- One more at one place. -/
theorem bump_apply (f : ℕ → ℕ) (i n : ℕ) : bump f i n = f n + if i = n then 1 else 0 := by
  unfold bump
  by_cases h : i = n
  · subst h
    simp
  · rw [Function.update_of_ne (Ne.symm h), if_neg h, Nat.add_zero]

/-- One less at one place. -/
theorem unbump_apply (f : ℕ → ℕ) (i n : ℕ) : unbump f i n = f n - if i = n then 1 else 0 := by
  unfold unbump
  by_cases h : i = n
  · subst h
    simp
  · rw [Function.update_of_ne (Ne.symm h), if_neg h, Nat.sub_zero]

/-- The test at the head of `TtPldrInitiate`, bit 1 being `PlatformLevelDeviceReset`. -/
def PldrWorld.supported (w : PldrWorld) : Bool :=
  w.resetInterfaceValid && w.resetInterface.deviceReset &&
    w.resetInterface.supportedResetTypes.getLsbD 1 && w.pldrWorkItem

/-- The next statement of `TtPldrInitiate`. -/
def ttPldrInitiate (w : PldrWorld) : InitiateStage → PldrWorld
  | .entered => { w with request := if w.supported then some .supported else none }
  | .supported =>
      -- InterlockedExchange: a reset is already in flight when the flag was set
      { w with
        pldrQueued := true
        request := if w.pldrQueued then none else some .claimed }
  | .claimed =>
      { w with
        pldrSnapshot := w.resetInterface
        number := w.snapshots
        snapshots := w.snapshots + 1
        request := some .copied }
  | .copied =>
      if w.pldrSnapshot.interfaceReference then
        { w with
          refs := bump w.refs w.pldrSnapshot.context
          taken := bump w.taken w.number
          request := some .referenced }
      else { w with request := some .referenced }
  | .referenced => { w with enqueued := w.enqueued + 1, request := none }

/-- The next statement of the `k`-th run of `TtPldrWorkItem`; `success` is what
`DeviceReset` returns when it returns. -/
def ttPldrWorkItem (w : PldrWorld) (k : ℕ) (success : Bool) : PldrRun → PldrWorld
  | .started => { w with runs := w.runs.set k (.copied w.number w.pldrSnapshot) }
  | .copied n s => { w with runs := w.runs.set k (.calling n s) }
  | .calling n s => { w with runs := w.runs.set k (.returned n s success) }
  | .returned n s ok =>
      if s.interfaceDereference then
        { w with
          refs := unbump w.refs s.context
          dropped := bump w.dropped n
          runs := w.runs.set k (.dereferenced ok) }
      else { w with runs := w.runs.set k (.dereferenced ok) }
  | .dereferenced ok =>
      -- a retry is allowed only if the platform refused
      { w with
        pldrQueued := w.pldrQueued && ok
        runs := w.runs.set k .finished }
  | .finished => w

/-- What can happen next. -/
inductive PldrEvent
  /-- A `RESET_PCIE_LINK` request gets the reset resource. -/
  | request
  /-- The request takes its next statement. -/
  | initiate
  /-- The framework runs the work item once for one of its enqueues. -/
  | run
  /-- A run takes its next statement. -/
  | workItem (k : ℕ) (success : Bool)
  /-- `PrepareHardware` of a device without a bus interface. -/
  | prepareBare
  /-- `PrepareHardware` zeroes `ResetInterface`. -/
  | prepareZero
  /-- `PrepareHardware` queries the interface, and the bus driver answers. -/
  | prepareQuery (answer : Option DeviceResetInterface)
  /-- `ReleaseHardware` drops the reference, if it has an interface. -/
  | releaseDrop
  /-- `ReleaseHardware` clears `ResetInterfaceValid`. -/
  | releaseClear

/-- The query of `PrepareHardware`: an interface that is handed out carries a reference. -/
def queryResetInterface (w : PldrWorld) : Option DeviceResetInterface → PldrWorld
  | some s =>
      { w with
        resetInterface := s
        resetInterfaceValid := true
        refs := bump w.refs s.context
        hardware := .prepared }
  | none => { w with resetInterfaceValid := false, hardware := .prepared }

/-- The reset interface in `ReleaseHardware`, up to the dereference. -/
def releaseResetInterface (w : PldrWorld) : PldrWorld :=
  if w.resetInterfaceValid then
    if w.resetInterface.interfaceDereference then
      { w with refs := unbump w.refs w.resetInterface.context, hardware := .dropped }
    else { w with hardware := .dropped }
  else { w with hardware := .released }

/-- One step; `none` is an event that cannot happen. A request does not begin inside
`ReleaseHardware`, and `ReleaseHardware` does not begin inside a request. -/
def PldrWorld.next (w : PldrWorld) : PldrEvent → Option PldrWorld
  | .request =>
      if w.request = none ∧ w.hardware ≠ .dropped then some { w with request := some .entered }
      else none
  | .initiate => w.request.map (ttPldrInitiate w)
  | .run =>
      if 0 < w.enqueued then
        some { w with enqueued := w.enqueued - 1, runs := w.runs ++ [.started] }
      else none
  | .workItem k success => w.runs[k]?.map (ttPldrWorkItem w k success)
  | .prepareBare =>
      if w.hardware = .released then some { w with hardware := .prepared } else none
  | .prepareZero =>
      if w.hardware = .released then
        some { w with resetInterface := .zero, hardware := .zeroed }
      else none
  | .prepareQuery answer =>
      if w.hardware = .zeroed then some (queryResetInterface w answer) else none
  | .releaseDrop =>
      if w.hardware = .prepared ∧ w.request = none then some (releaseResetInterface w) else none
  | .releaseClear =>
      if w.hardware = .dropped then
        some { w with resetInterfaceValid := false, hardware := .released }
      else none

/-- The step relation. -/
def pldrStep : PldrWorld → PldrEvent → PldrWorld → Prop := partialGraph PldrWorld.next

/-- What the bus driver promises: an interface it hands out can be referenced and
dereferenced. -/
def PldrEvent.counted : PldrEvent → Bool
  | .prepareQuery answer => answer.all DeviceResetInterface.counted
  | _ => true

/-! ## Owners of the flag and holders of a reference -/

/-- The request is between the flag and the end. -/
def InitiateStage.owns : InitiateStage → Bool
  | .claimed | .copied | .referenced => true
  | .entered | .supported => false

/-- The run is not over. -/
def PldrRun.active : PldrRun → Bool
  | .finished => false
  | _ => true

/-- The run has to drop the reference of a snapshot that meets `p`; before the copy that is
the one in `PldrSnapshot`. -/
def PldrRun.holds (p : ℕ → DeviceResetInterface → Bool) (number : ℕ) (s : DeviceResetInterface) :
    PldrRun → Bool
  | .started => p number s
  | .copied n t | .calling n t | .returned n t _ => p n t
  | .dereferenced _ | .finished => false

/-- The platform resets that are queued or running. -/
def PldrWorld.inFlight (w : PldrWorld) : ℕ := w.enqueued + w.runs.countP PldrRun.active

/-- The request, when it is past the flag. -/
def PldrWorld.claims (w : PldrWorld) : ℕ := if w.request.any InitiateStage.owns then 1 else 0

/-- The enqueues and the runs that have not copied `PldrSnapshot`. -/
def PldrWorld.uncopied (w : PldrWorld) : ℕ := w.enqueued + w.runs.count .started

/-- How many references of snapshots that meet `p` are taken and will be dropped. -/
def PldrWorld.held (w : PldrWorld) (p : ℕ → DeviceResetInterface → Bool) : ℕ :=
  (if w.request = some .referenced ∧ p w.number w.pldrSnapshot then 1 else 0) +
    (if p w.number w.pldrSnapshot then w.enqueued else 0) +
    w.runs.countP (PldrRun.holds p w.number w.pldrSnapshot)

/-- The reference that the device context holds of an interface object. -/
def PldrWorld.live (w : PldrWorld) (c : ℕ) : ℕ :=
  if w.resetInterfaceValid = true ∧ w.hardware ≠ .dropped ∧ w.resetInterface.context = c then 1
  else 0

/-- A snapshot that is not as `TtPldrInitiate` takes it. -/
def DeviceResetInterface.unfit (s : DeviceResetInterface) : Bool :=
  !(s.interfaceReference && s.interfaceDereference && s.deviceReset)

/-- The references of snapshots and of interface objects. -/
structure PldrAccounts (w : PldrWorld) : Prop where
  /-- Every snapshot whose reference is held is fit to be called and dropped. -/
  fit : w.held (fun _ s => s.unfit) = 0
  /-- What was taken was dropped or is held. -/
  balanced : ∀ n, w.taken n = w.dropped n + w.held (fun m _ => m = n)
  /-- The references of an object are the one of the device context and those of snapshots. -/
  refs : ∀ c, w.refs c = w.live c + w.held (fun _ s => s.context = c)

/-- What holds between any two statements of the three parties. -/
structure PldrInv (w : PldrWorld) : Prop where
  /-- The flag has one owner at most, and none when it is clear. -/
  single : w.claims + w.inFlight ≤ if w.pldrQueued then 1 else 0
  /-- A request past the test has a live interface. -/
  requested : ∀ g, w.request = some g → g ≠ .entered →
    w.resetInterfaceValid = true ∧ w.resetInterface.deviceReset = true
  /-- A request does not overlap `ReleaseHardware`. -/
  apart : w.request ≠ none → w.hardware ≠ .dropped
  /-- The interface is valid between the query and the end of `ReleaseHardware` only. -/
  stage : w.resetInterfaceValid = true → w.hardware = .prepared ∨ w.hardware = .dropped
  /-- The interface in the device context has its reference routines. -/
  counted : w.resetInterfaceValid = true → w.resetInterface.counted = true
  /-- A snapshot just written is the interface, under a number of its own. -/
  fresh : w.request = some .copied →
    w.pldrSnapshot = w.resetInterface ∧ w.number < w.snapshots ∧ w.taken w.number = 0
  /-- References are taken of written snapshots only. -/
  numbered : ∀ n, w.snapshots ≤ n → w.taken n = 0
  /-- The reference of a snapshot is taken once. -/
  once : ∀ n, w.taken n ≤ 1
  /-- The references. -/
  accounts : PldrAccounts w

/-- The accounts depend on the holders and on the counters. -/
theorem PldrAccounts.congr {w w' : PldrWorld} (h : PldrAccounts w)
    (hheld : ∀ p, w'.held p = w.held p) (htaken : w'.taken = w.taken)
    (hdropped : w'.dropped = w.dropped) (hrefs : w'.refs = w.refs)
    (hlive : ∀ c, w'.live c = w.live c) : PldrAccounts w' where
  fit := (hheld _).trans h.fit
  balanced n := by rw [htaken, hdropped, hheld, h.balanced]
  refs c := by rw [hrefs, hlive, hheld, h.refs]

/-- A change of one run moves a count by that run alone. -/
theorem countP_set_run {α : Type*} {p : α → Bool} {l : List α} {k : ℕ} {r : α} (r' : α)
    (hr : l[k]? = some r) :
    (l.set k r').countP p + (if p r then 1 else 0) = l.countP p + (if p r' then 1 else 0) := by
  obtain ⟨hk, rfl⟩ := List.getElem?_eq_some_iff.mp hr
  rw [List.countP_set hk]
  have hpos : p l[k] = true → 0 < l.countP p := fun hp =>
    List.countP_pos_iff.mpr ⟨_, List.getElem_mem hk, hp⟩
  by_cases hp : p l[k] = true
  · have := hpos hp
    simp only [if_pos hp]
    omega
  · simp only [if_neg hp]
    omega

/-- Only an active run holds a reference. -/
theorem PldrRun.active_of_holds {p : ℕ → DeviceResetInterface → Bool} {number : ℕ}
    {s : DeviceResetInterface} {r : PldrRun} (h : r.holds p number s = true) :
    r.active = true := by
  cases r <;> first | rfl | cases h

/-- Nothing is held of the runs when none is active. -/
theorem countP_holds_eq_zero {p : ℕ → DeviceResetInterface → Bool} {number : ℕ}
    {s : DeviceResetInterface} {runs : List PldrRun} (h : runs.countP PldrRun.active = 0) :
    runs.countP (PldrRun.holds p number s) = 0 := by
  rw [List.countP_eq_zero] at h ⊢
  exact fun r hr hholds => h r hr (PldrRun.active_of_holds hholds)

namespace PldrWorld

variable {w : PldrWorld} {p : ℕ → DeviceResetInterface → Bool}

/-- Runs that wait for the copy are queued or running. -/
theorem uncopied_le (w : PldrWorld) : w.uncopied ≤ w.inFlight := by
  unfold uncopied inFlight List.count
  have h : w.runs.countP (· == .started) ≤ w.runs.countP PldrRun.active := by
    apply List.countP_mono_left
    intro r _ hr
    rw [eq_of_beq hr]
    rfl
  omega

/-- Without anything queued or running, and without a referenced request, nothing is held. -/
theorem held_eq_zero (hflight : w.inFlight = 0) (hreq : w.request ≠ some .referenced) :
    w.held p = 0 := by
  unfold inFlight at hflight
  have hruns : w.runs.countP PldrRun.active = 0 := by omega
  have henq : w.enqueued = 0 := by omega
  simp [held, hreq, henq, countP_holds_eq_zero hruns]

/-- A run that takes a step changes what is held by its own part. -/
theorem held_setRun {k : ℕ} {r : PldrRun} (r' : PldrRun) (hr : w.runs[k]? = some r) :
    ({ w with runs := w.runs.set k r' } : PldrWorld).held p +
        (if r.holds p w.number w.pldrSnapshot then 1 else 0) =
      w.held p + (if r'.holds p w.number w.pldrSnapshot then 1 else 0) := by
  have h := countP_set_run (p := PldrRun.holds p w.number w.pldrSnapshot) r' hr
  simp only [held]
  omega

/-- A run that takes a step changes what is in flight by its own part. -/
theorem inFlight_setRun {k : ℕ} {r : PldrRun} (r' : PldrRun) (hr : w.runs[k]? = some r) :
    ({ w with runs := w.runs.set k r' } : PldrWorld).inFlight + (if r.active then 1 else 0) =
      w.inFlight + (if r'.active then 1 else 0) := by
  have h := countP_set_run (p := PldrRun.active) r' hr
  simp only [inFlight]
  omega

/-- A run that takes a step is in flight. -/
theorem inFlight_pos {k : ℕ} {r : PldrRun} (hr : w.runs[k]? = some r) (hact : r.active = true) :
    0 < w.inFlight := by
  have h : 0 < w.runs.countP PldrRun.active :=
    List.countP_pos_iff.mpr ⟨r, List.mem_of_getElem? hr, hact⟩
  unfold inFlight
  omega

/-- What a run holds is held. -/
theorem held_pos {r : PldrRun} (hr : r ∈ w.runs)
    (hholds : r.holds p w.number w.pldrSnapshot = true) : 0 < w.held p := by
  have h : 0 < w.runs.countP (PldrRun.holds p w.number w.pldrSnapshot) :=
    List.countP_pos_iff.mpr ⟨r, hr, hholds⟩
  unfold held
  omega

end PldrWorld

/-- A request that is not referenced holds nothing. -/
theorem PldrWorld.held_request {w : PldrWorld} {p : ℕ → DeviceResetInterface → Bool}
    {r : Option InitiateStage} (hold : w.request ≠ some .referenced)
    (hnew : r ≠ some .referenced) : ({ w with request := r } : PldrWorld).held p = w.held p := by
  simp [PldrWorld.held, hold, hnew]

/-! ## The steps of a request -/

namespace PldrInv

variable {w : PldrWorld}

/-- The test of the interface. -/
theorem entered (h : PldrInv w) (hg : w.request = some .entered) :
    PldrInv (ttPldrInitiate w .entered) := by
  have hclaims : (ttPldrInitiate w .entered).claims = w.claims := by
    simp only [ttPldrInitiate, PldrWorld.claims, hg]
    split <;> rfl
  refine { h with
    single := ?_, requested := ?_, apart := fun _ => h.apart (by simp [hg]), fresh := ?_,
    accounts := h.accounts.congr (fun p => ?_) rfl rfl rfl fun _ => rfl }
  · rw [hclaims]
    exact h.single
  · intro g hr hne
    by_cases hs : w.supported = true
    · simp only [PldrWorld.supported, Bool.and_eq_true] at hs
      exact ⟨hs.1.1.1, hs.1.1.2⟩
    · simp [ttPldrInitiate, hs] at hr
  · intro hr
    simp only [ttPldrInitiate] at hr
    split at hr <;> cases hr
  · apply PldrWorld.held_request
    · simp [hg]
    · split <;> simp

/-- The interlocked exchange of the flag. -/
theorem supported (h : PldrInv w) (hg : w.request = some .supported) :
    PldrInv (ttPldrInitiate w .supported) := by
  have hvalid := h.requested _ hg (by decide)
  refine { h with
    single := ?_, requested := fun _ _ _ => hvalid, apart := fun _ => h.apart (by simp [hg]),
    fresh := ?_, accounts := h.accounts.congr (fun p => ?_) rfl rfl rfl fun _ => rfl }
  · have hsingle := h.single
    have hclaims : w.claims = 0 := by simp [PldrWorld.claims, hg, InitiateStage.owns]
    have hflight : (ttPldrInitiate w .supported).inFlight = w.inFlight := rfl
    have hset : (ttPldrInitiate w .supported).pldrQueued = true := rfl
    rw [hclaims] at hsingle
    rw [hflight, hset, if_pos rfl]
    cases hq : w.pldrQueued with
    | false =>
      have hnew : (ttPldrInitiate w .supported).claims = 1 := by
        simp [ttPldrInitiate, PldrWorld.claims, hq, InitiateStage.owns]
      have hnone : w.inFlight = 0 := by simpa [hq] using hsingle
      omega
    | true =>
      have hnew : (ttPldrInitiate w .supported).claims = 0 := by
        simp [ttPldrInitiate, PldrWorld.claims, hq]
      simpa [hq, hnew] using hsingle
  · intro hr
    simp only [ttPldrInitiate] at hr
    split at hr <;> cases hr
  · apply PldrWorld.held_request (w := { w with pldrQueued := true })
    · simp [hg]
    · split <;> simp

/-- Past the flag a request is alone. -/
theorem inFlight_eq_zero (h : PldrInv w) {g : InitiateStage} (hg : w.request = some g)
    (howns : g.owns = true) : w.pldrQueued = true ∧ w.inFlight = 0 := by
  have hsingle := h.single
  have hclaims : w.claims = 1 := by simp [PldrWorld.claims, hg, howns]
  split at hsingle
  · exact ⟨‹_›, by omega⟩
  · omega

/-- The snapshot is written. -/
theorem claimed (h : PldrInv w) (hg : w.request = some .claimed) :
    PldrInv (ttPldrInitiate w .claimed) := by
  have hvalid := h.requested _ hg (by decide)
  obtain ⟨hq, hflight⟩ := h.inFlight_eq_zero hg rfl
  have hheld : ∀ p, (ttPldrInitiate w .claimed).held p = w.held p := by
    intro p
    have hnew : (ttPldrInitiate w .claimed).held p = 0 :=
      PldrWorld.held_eq_zero hflight (by simp [ttPldrInitiate])
    rw [hnew, PldrWorld.held_eq_zero hflight (by simp [hg])]
  have hclaims : (ttPldrInitiate w .claimed).claims = w.claims := by
    simp only [ttPldrInitiate, PldrWorld.claims, hg]
    rfl
  refine { h with
    single := ?_, requested := fun _ _ _ => hvalid, apart := fun _ => h.apart (by simp [hg]),
    fresh := fun _ => ⟨rfl, Nat.lt_succ_self _, h.numbered _ (Nat.le_refl _)⟩,
    numbered := fun n hn => h.numbered n (Nat.le_of_succ_le hn),
    accounts := h.accounts.congr hheld rfl rfl rfl fun _ => rfl }
  rw [hclaims]
  exact h.single

/-- A snapshot just written is fit. -/
theorem fit_of_copied (h : PldrInv w) (hg : w.request = some .copied) :
    w.pldrSnapshot.interfaceReference = true ∧ w.pldrSnapshot.unfit = false := by
  obtain ⟨hvalid, hreset⟩ := h.requested _ hg (by decide)
  obtain ⟨href, hderef⟩ := Bool.and_eq_true_iff.mp (h.counted hvalid)
  rw [(h.fresh hg).1]
  exact ⟨href, by simp [DeviceResetInterface.unfit, href, hderef, hreset]⟩

/-- The reference of the snapshot is taken. -/
theorem copied (h : PldrInv w) (hg : w.request = some .copied) :
    PldrInv (ttPldrInitiate w .copied) := by
  have hvalid := h.requested _ hg (by decide)
  obtain ⟨href, hfit⟩ := h.fit_of_copied hg
  obtain ⟨hsame, hnumber, hnone⟩ := h.fresh hg
  have hstep : ttPldrInitiate w .copied = { w with
      refs := bump w.refs w.pldrSnapshot.context
      taken := bump w.taken w.number
      request := some .referenced } := by
    simp [ttPldrInitiate, href]
  have hheld : ∀ p, (ttPldrInitiate w .copied).held p =
      w.held p + if p w.number w.pldrSnapshot then 1 else 0 := by
    intro p
    rw [hstep]
    simp only [PldrWorld.held, hg]
    simp
    omega
  have hclaims : (ttPldrInitiate w .copied).claims = w.claims := by
    rw [hstep]
    simp only [PldrWorld.claims, hg]
    rfl
  have htaken : ∀ n, (ttPldrInitiate w .copied).taken n =
      w.taken n + if w.number = n then 1 else 0 := by
    intro n
    rw [hstep]
    exact bump_apply _ _ _
  refine {
    single := ?_, requested := ?_, apart := ?_, stage := ?_, counted := ?_, fresh := ?_,
    numbered := ?_, once := ?_, accounts := ⟨?_, fun n => ?_, fun c => ?_⟩ }
  · rw [hclaims, hstep]
    exact h.single
  · rw [hstep]
    exact fun _ _ _ => hvalid
  · rw [hstep]
    exact fun _ => h.apart (by simp [hg])
  · rw [hstep]
    exact h.stage
  · rw [hstep]
    exact h.counted
  · rw [hstep]
    exact fun hr => nomatch hr
  · intro n hn
    have hn' : w.snapshots ≤ n := by rwa [hstep] at hn
    rw [htaken, h.numbered n hn', if_neg (by omega)]
  · intro n
    have honce := h.once n
    rw [htaken]
    split
    · subst n
      omega
    · omega
  · rw [hheld, h.accounts.fit]
    simp [hfit]
  · rw [htaken, hheld, h.accounts.balanced n]
    simp only [hstep, decide_eq_true_eq]
    omega
  · have hlive : (ttPldrInitiate w .copied).live c = w.live c := by rw [hstep]; rfl
    have hrefs : (ttPldrInitiate w .copied).refs c =
        w.refs c + if w.pldrSnapshot.context = c then 1 else 0 := by
      rw [hstep]
      exact bump_apply _ _ _
    rw [hrefs, hheld, hlive, h.accounts.refs c]
    simp only [decide_eq_true_eq]
    omega

/-- The work item is enqueued: the reference passes to it. -/
theorem referenced (h : PldrInv w) (hg : w.request = some .referenced) :
    PldrInv (ttPldrInitiate w .referenced) := by
  refine { h with
    single := ?_, requested := fun _ hr _ => (nomatch hr), apart := fun hr => absurd rfl hr,
    fresh := fun hr => (nomatch hr),
    accounts := h.accounts.congr (fun p => ?_) rfl rfl rfl fun _ => rfl }
  · have hsingle := h.single
    have hclaims : w.claims = 1 := by simp [PldrWorld.claims, hg, InitiateStage.owns]
    have hnew : (ttPldrInitiate w .referenced).claims = 0 := rfl
    have hflight : (ttPldrInitiate w .referenced).inFlight = w.inFlight + 1 := by
      simp only [ttPldrInitiate, PldrWorld.inFlight]
      omega
    have hset : (ttPldrInitiate w .referenced).pldrQueued = w.pldrQueued := rfl
    rw [hnew, hflight, hset]
    omega
  · simp only [ttPldrInitiate, PldrWorld.held, hg]
    by_cases hp : p w.number w.pldrSnapshot = true <;> simp [hp]
    omega

/-- Every statement of `TtPldrInitiate`. -/
theorem initiate (h : PldrInv w) {g : InitiateStage} (hg : w.request = some g) :
    PldrInv (ttPldrInitiate w g) := by
  cases g with
  | entered => exact h.entered hg
  | supported => exact h.supported hg
  | claimed => exact h.claimed hg
  | copied => exact h.copied hg
  | referenced => exact h.referenced hg

/-! ## The steps of the work item -/

/-- A step of a run that moves neither a reference nor the flag. -/
theorem setRun (h : PldrInv w) {k : ℕ} {r r' : PldrRun} (hr : w.runs[k]? = some r)
    (hactive : r'.active = r.active)
    (hholds : ∀ p : ℕ → DeviceResetInterface → Bool,
      r'.holds p w.number w.pldrSnapshot = r.holds p w.number w.pldrSnapshot) :
    PldrInv { w with runs := w.runs.set k r' } := by
  refine { h with
    single := ?_, accounts := h.accounts.congr (fun p => ?_) rfl rfl rfl fun _ => rfl }
  · have hflight := PldrWorld.inFlight_setRun r' hr
    have hsingle := h.single
    rw [hactive] at hflight
    change w.claims + _ ≤ if w.pldrQueued then 1 else 0
    omega
  · have hheld := PldrWorld.held_setRun (p := p) r' hr
    rw [hholds] at hheld
    omega

/-- A run in flight is the only owner of the flag. -/
theorem single_of_active (h : PldrInv w) {k : ℕ} {r : PldrRun} (hr : w.runs[k]? = some r)
    (hactive : r.active = true) : w.pldrQueued = true ∧ w.claims = 0 ∧ w.inFlight = 1 := by
  have hpos := PldrWorld.inFlight_pos hr hactive
  have hsingle := h.single
  split at hsingle
  · exact ⟨‹_›, by omega, by omega⟩
  · omega

/-- The snapshot that a run holds has its routines. -/
theorem fit_of_holds (h : PldrInv w) {r : PldrRun} {n : ℕ} {s : DeviceResetInterface}
    (hr : r ∈ w.runs) (hholds : ∀ p, r.holds p w.number w.pldrSnapshot = p n s) :
    s.interfaceReference = true ∧ s.interfaceDereference = true ∧ s.deviceReset = true := by
  by_contra hnot
  have hunfit : s.unfit = true := by
    simp only [DeviceResetInterface.unfit, Bool.not_eq_true', Bool.and_eq_false_iff]
    simp only [not_and, Bool.not_eq_true] at hnot
    cases hi : s.interfaceReference <;> cases hd : s.interfaceDereference <;> simp_all
  have hpos := PldrWorld.held_pos (p := fun _ s => s.unfit) hr ((hholds _).trans hunfit)
  have hfit := h.accounts.fit
  omega

/-- The reference of the snapshot is dropped. -/
theorem returned (h : PldrInv w) {k n : ℕ} {s : DeviceResetInterface} {ok success : Bool}
    (hr : w.runs[k]? = some (.returned n s ok)) :
    PldrInv (ttPldrWorkItem w k success (.returned n s ok)) := by
  obtain ⟨-, hderef, -⟩ := h.fit_of_holds (List.mem_of_getElem? hr) fun _ => rfl
  have hstep : ttPldrWorkItem w k success (.returned n s ok) = { w with
      refs := unbump w.refs s.context
      dropped := bump w.dropped n
      runs := w.runs.set k (.dereferenced ok) } := by
    simp [ttPldrWorkItem, hderef]
  have hheld : ∀ p, (ttPldrWorkItem w k success (.returned n s ok)).held p +
      (if p n s then 1 else 0) = w.held p := by
    intro p
    rw [hstep]
    exact PldrWorld.held_setRun (p := p) (.dereferenced ok) hr
  rw [hstep] at hheld ⊢
  refine { h with single := ?_, accounts := ⟨?_, fun m => ?_, fun c => ?_⟩ }
  · have hflight := PldrWorld.inFlight_setRun (.dereferenced ok) hr
    have hsingle := h.single
    simp only [PldrRun.active, if_true] at hflight
    change w.claims + ({ w with runs := w.runs.set k (.dereferenced ok) } : PldrWorld).inFlight ≤
      if w.pldrQueued then 1 else 0
    omega
  · have := hheld fun _ s => s.unfit
    have hfit := h.accounts.fit
    omega
  · have hm := hheld fun m' _ => m' = m
    have hbalanced := h.accounts.balanced m
    simp only [decide_eq_true_eq] at hm
    change w.taken m = bump w.dropped n m + _
    rw [bump_apply]
    omega
  · have hc := hheld fun _ s => s.context = c
    have hrefs := h.accounts.refs c
    simp only [decide_eq_true_eq] at hc
    change unbump w.refs s.context c = w.live c + _
    rw [unbump_apply]
    omega

/-- The flag is given back, or kept for good. -/
theorem dereferenced (h : PldrInv w) {k : ℕ} {ok success : Bool}
    (hr : w.runs[k]? = some (.dereferenced ok)) :
    PldrInv (ttPldrWorkItem w k success (.dereferenced ok)) := by
  obtain ⟨hq, hclaims, hone⟩ := h.single_of_active hr rfl
  refine { h with
    single := ?_, accounts := h.accounts.congr (fun p => ?_) rfl rfl rfl fun _ => rfl }
  · have hflight := PldrWorld.inFlight_setRun .finished hr
    simp only [PldrRun.active, if_true, Bool.false_eq_true, if_false] at hflight
    change w.claims + ({ w with runs := w.runs.set k .finished } : PldrWorld).inFlight ≤ _
    omega
  · exact PldrWorld.held_setRun (p := p) .finished hr

/-- Every statement of `TtPldrWorkItem`. -/
theorem workItem (h : PldrInv w) {k : ℕ} {success : Bool} {r : PldrRun}
    (hr : w.runs[k]? = some r) : PldrInv (ttPldrWorkItem w k success r) := by
  cases r with
  | started => exact h.setRun hr rfl fun _ => rfl
  | copied n s => exact h.setRun hr rfl fun _ => rfl
  | calling n s => exact h.setRun hr rfl fun _ => rfl
  | returned n s ok => exact h.returned hr
  | dereferenced ok => exact h.dereferenced hr
  | finished => exact h

/-- The framework starts a run: what was queued is running. -/
theorem run (h : PldrInv w) (henq : 0 < w.enqueued) :
    PldrInv { w with enqueued := w.enqueued - 1, runs := w.runs ++ [.started] } := by
  refine { h with
    single := ?_, accounts := h.accounts.congr (fun p => ?_) rfl rfl rfl fun _ => rfl }
  · have hsingle := h.single
    simp only [PldrWorld.claims, PldrWorld.inFlight, List.countP_append, List.countP_singleton,
      PldrRun.active, if_true] at hsingle ⊢
    omega
  · simp only [PldrWorld.held, List.countP_append, List.countP_singleton, PldrRun.holds]
    by_cases hp : p w.number w.pldrSnapshot = true
    · simp only [hp, if_true]
      omega
    · simp [hp]

/-! ## The steps of the hardware callbacks -/

/-- Outside `PrepareHardware` and `ReleaseHardware` the stages say the interface is not
valid. -/
theorem not_valid (h : PldrInv w) (hne : w.hardware ≠ .prepared) (hne' : w.hardware ≠ .dropped) :
    w.resetInterfaceValid = false := by
  by_contra hvalid
  rcases h.stage (by simpa using hvalid) with hw | hw
  · exact hne hw
  · exact hne' hw

/-- A request is at its head while the interface is not valid. -/
theorem entered_of_not_valid (h : PldrInv w) (hvalid : w.resetInterfaceValid = false)
    {g : InitiateStage} (hg : w.request = some g) : g = .entered := by
  by_contra hne
  exact absurd (h.requested g hg hne).1 (by simp [hvalid])

/-- A callback that leaves an interface that is not valid not valid. -/
theorem bare (h : PldrInv w) (hvalid : w.resetInterfaceValid = false) (s : DeviceResetInterface)
    {g : HardwareStage} (hne : g ≠ .dropped) :
    PldrInv { w with
      resetInterface := s, resetInterfaceValid := false, hardware := g } := by
  refine { h with
    requested := fun g hg hg' => absurd (h.entered_of_not_valid hvalid hg) hg',
    apart := fun _ => hne, stage := fun hv => (nomatch hv), counted := fun hv => (nomatch hv),
    fresh := fun hr => absurd (h.entered_of_not_valid hvalid hr) (by decide),
    accounts := h.accounts.congr (fun p => rfl) rfl rfl rfl fun c => ?_ }
  simp [PldrWorld.live, hvalid]

/-- The query. -/
theorem query (h : PldrInv w) (hstage : w.hardware = .zeroed)
    {answer : Option DeviceResetInterface}
    (hcounted : answer.all DeviceResetInterface.counted = true) :
    PldrInv (queryResetInterface w answer) := by
  have hvalid := h.not_valid (by simp [hstage]) (by simp [hstage])
  cases answer with
  | none => exact h.bare hvalid w.resetInterface (by decide)
  | some s =>
    refine { h with
      requested := fun g hg hg' => absurd (h.entered_of_not_valid hvalid hg) hg',
      apart := fun _ => nofun, stage := fun _ => .inl rfl, counted := fun _ => hcounted,
      fresh := fun hr => absurd (h.entered_of_not_valid hvalid hr) (by decide),
      accounts := ⟨h.accounts.fit, h.accounts.balanced, fun c => ?_⟩ }
    have hrefs := h.accounts.refs c
    have hlive : w.live c = 0 := by simp [PldrWorld.live, hvalid]
    have hnew : (queryResetInterface w (some s)).live c = if s.context = c then 1 else 0 := by
      simp [queryResetInterface, PldrWorld.live]
    have hheld : (queryResetInterface w (some s)).held (fun _ t => t.context = c) =
        w.held fun _ t => t.context = c := rfl
    rw [hnew, hheld]
    change bump w.refs s.context c = _
    rw [bump_apply]
    omega

/-- The reference of the device context is dropped. -/
theorem release (h : PldrInv w) (hstage : w.hardware = .prepared) (hreq : w.request = none) :
    PldrInv (releaseResetInterface w) := by
  cases hvalid : w.resetInterfaceValid with
  | false =>
    have hbare := h.bare hvalid w.resetInterface (g := .released) (by decide)
    have hstep : releaseResetInterface w = { w with hardware := .released } := by
      simp [releaseResetInterface, hvalid]
    rw [hstep]
    simpa [← hvalid] using hbare
  | true =>
    obtain ⟨-, hderef⟩ := Bool.and_eq_true_iff.mp (h.counted hvalid)
    have hstep : releaseResetInterface w = { w with
        refs := unbump w.refs w.resetInterface.context
        hardware := .dropped } := by
      simp [releaseResetInterface, hvalid, hderef]
    rw [hstep]
    refine { h with
      apart := fun hr => absurd hreq hr, stage := fun _ => .inr rfl,
      accounts := ⟨h.accounts.fit, h.accounts.balanced, fun c => ?_⟩ }
    have hrefs := h.accounts.refs c
    have hlive : w.live c = if w.resetInterface.context = c then 1 else 0 := by
      simp [PldrWorld.live, hvalid, hstage]
    change unbump w.refs w.resetInterface.context c =
      ({ w with hardware := .dropped } : PldrWorld).live c + w.held fun _ t => t.context = c
    have hnew : ({ w with hardware := .dropped } : PldrWorld).live c = 0 := by
      simp [PldrWorld.live]
    rw [unbump_apply, hnew]
    omega

/-- `ResetInterfaceValid` is cleared. -/
theorem releaseClear (h : PldrInv w) (hstage : w.hardware = .dropped) :
    PldrInv { w with resetInterfaceValid := false, hardware := .released } := by
  have hreq : w.request = none := by
    by_contra hne
    exact h.apart hne hstage
  refine { h with
    requested := fun g hg _ => absurd (hreq.symm.trans hg) nofun, apart := fun _ => nofun,
    stage := fun hv => (nomatch hv), counted := fun hv => (nomatch hv),
    accounts := h.accounts.congr (fun p => rfl) rfl rfl rfl fun c => ?_ }
  simp [PldrWorld.live, hstage]

/-- A request begins. -/
theorem request (h : PldrInv w) (hreq : w.request = none) (hne : w.hardware ≠ .dropped) :
    PldrInv { w with request := some .entered } := by
  refine { h with
    single := ?_, requested := fun g hg hg' => absurd (Option.some.inj hg).symm hg',
    apart := fun _ => hne, fresh := fun hr => (nomatch hr),
    accounts := h.accounts.congr (fun p => ?_) rfl rfl rfl fun _ => rfl }
  · have hsingle := h.single
    have hclaims : w.claims = 0 := by simp [PldrWorld.claims, hreq]
    rw [hclaims] at hsingle
    exact hsingle
  · exact PldrWorld.held_request (by simp [hreq]) (by decide)

/-- Every step keeps the invariant, whoever takes it. -/
theorem step {e : PldrEvent} {w' : PldrWorld} (h : PldrInv w) (he : e.counted = true)
    (hstep : pldrStep w e w') : PldrInv w' := by
  unfold pldrStep partialGraph at hstep
  cases e with
  | request =>
    obtain ⟨⟨hreq, hne⟩, rfl⟩ := guard_of_eq_some hstep
    exact h.request hreq hne
  | initiate =>
    obtain ⟨g, hg, rfl⟩ := Option.map_eq_some_iff.mp hstep
    exact h.initiate hg
  | run =>
    obtain ⟨henq, rfl⟩ := guard_of_eq_some hstep
    exact h.run henq
  | workItem k success =>
    obtain ⟨r, hr, rfl⟩ := Option.map_eq_some_iff.mp hstep
    exact h.workItem hr
  | prepareBare =>
    obtain ⟨hstage, rfl⟩ := guard_of_eq_some hstep
    have hvalid := h.not_valid (by simp [hstage]) (by simp [hstage])
    simpa [← hvalid] using h.bare hvalid w.resetInterface (g := .prepared) (by decide)
  | prepareZero =>
    obtain ⟨hstage, rfl⟩ := guard_of_eq_some hstep
    have hvalid := h.not_valid (by simp [hstage]) (by simp [hstage])
    simpa [← hvalid] using h.bare hvalid .zero (g := .zeroed) (by decide)
  | prepareQuery answer =>
    obtain ⟨hstage, rfl⟩ := guard_of_eq_some hstep
    exact h.query hstage he
  | releaseDrop =>
    obtain ⟨⟨hstage, hreq⟩, rfl⟩ := guard_of_eq_some hstep
    exact h.release hstage hreq
  | releaseClear =>
    obtain ⟨hstage, rfl⟩ := guard_of_eq_some hstep
    exact h.releaseClear hstage

end PldrInv

/-- The invariant holds at the start. -/
theorem pldrInv_init (pldrWorkItem : Bool) : PldrInv (.init pldrWorkItem) where
  single := by simp [PldrWorld.init, PldrWorld.claims, PldrWorld.inFlight]
  requested := fun _ hg => (nomatch hg)
  apart := fun hr => absurd rfl hr
  stage := fun hv => (nomatch hv)
  counted := fun hv => (nomatch hv)
  fresh := fun hr => (nomatch hr)
  numbered := fun _ _ => rfl
  once := fun _ => Nat.zero_le _
  accounts := by
    have hheld : ∀ p, (PldrWorld.init pldrWorkItem).held p = 0 := fun p =>
      PldrWorld.held_eq_zero rfl nofun
    refine ⟨hheld _, fun n => ?_, fun c => ?_⟩
    · rw [hheld]
      rfl
    · rw [hheld]
      simp [PldrWorld.init, PldrWorld.live]

/-! ## Single flight and the balance of references -/

/-- A run is inside `DeviceReset`, or about to call it, through an interface. -/
def PldrWorld.Calls (w : PldrWorld) (s : DeviceResetInterface) : Prop :=
  ∃ n, PldrRun.copied n s ∈ w.runs ∨ PldrRun.calling n s ∈ w.runs

/-- No work item is pending: none is being enqueued, is enqueued, or has its reference to
drop. -/
def PldrWorld.Settled (w : PldrWorld) : Prop :=
  w.request ≠ some .referenced ∧ w.enqueued = 0 ∧
    ∀ r ∈ w.runs, r = .finished ∨ ∃ ok, r = .dereferenced ok

/-- An interface that is called is not NULL, and a reference is held. -/
theorem PldrInv.called {w : PldrWorld} (h : PldrInv w) {s : DeviceResetInterface}
    (hcalls : w.Calls s) : s.deviceReset = true ∧ 0 < w.refs s.context := by
  obtain ⟨n, hrun⟩ := hcalls
  obtain ⟨r, hr, hholds⟩ : ∃ r ∈ w.runs, ∀ p : ℕ → DeviceResetInterface → Bool,
      r.holds p w.number w.pldrSnapshot = p n s := by
    rcases hrun with hrun | hrun
    · exact ⟨_, hrun, fun _ => rfl⟩
    · exact ⟨_, hrun, fun _ => rfl⟩
  have hpos := PldrWorld.held_pos (p := fun _ t => t.context = s.context) hr
    ((hholds _).trans (decide_eq_true rfl))
  have hrefs := h.accounts.refs s.context
  exact ⟨(h.fit_of_holds hr hholds).2.2, by omega⟩

/-- Nothing is held when no work item is pending. -/
theorem PldrWorld.Settled.held_eq_zero {w : PldrWorld} (h : w.Settled)
    (p : ℕ → DeviceResetInterface → Bool) : w.held p = 0 := by
  obtain ⟨hreq, henq, hruns⟩ := h
  have hnone : w.runs.countP (PldrRun.holds p w.number w.pldrSnapshot) = 0 := by
    rw [List.countP_eq_zero]
    intro r hr
    rcases hruns r hr with rfl | ⟨ok, rfl⟩
    · exact Bool.false_ne_true
    · exact Bool.false_ne_true
  simp [PldrWorld.held, hreq, henq, hnone]

/-- A snapshot that was not copied yet stays. -/
theorem PldrInv.snapshot_kept {w w' : PldrWorld} {e : PldrEvent} (h : PldrInv w)
    (hstep : pldrStep w e w') (huncopied : 0 < w.uncopied) :
    w'.pldrSnapshot = w.pldrSnapshot := by
  unfold pldrStep partialGraph at hstep
  cases e with
  | initiate =>
    obtain ⟨g, hg, rfl⟩ := Option.map_eq_some_iff.mp hstep
    cases g with
    | claimed =>
      have hflight := (h.inFlight_eq_zero hg rfl).2
      have := w.uncopied_le
      omega
    | copied =>
      simp only [ttPldrInitiate]
      split <;> rfl
    | entered => rfl
    | supported => rfl
    | referenced => rfl
  | workItem k success =>
    obtain ⟨r, hr, rfl⟩ := Option.map_eq_some_iff.mp hstep
    cases r with
    | returned n s ok =>
      simp only [ttPldrWorkItem]
      split <;> rfl
    | started => rfl
    | copied n s => rfl
    | calling n s => rfl
    | dereferenced ok => rfl
    | finished => rfl
  | prepareQuery answer =>
    obtain ⟨-, rfl⟩ := guard_of_eq_some hstep
    cases answer <;> rfl
  | releaseDrop =>
    obtain ⟨-, rfl⟩ := guard_of_eq_some hstep
    simp only [releaseResetInterface]
    split
    · split <;> rfl
    · rfl
  | request =>
    obtain ⟨-, rfl⟩ := guard_of_eq_some hstep
    rfl
  | run =>
    obtain ⟨-, rfl⟩ := guard_of_eq_some hstep
    rfl
  | prepareBare =>
    obtain ⟨-, rfl⟩ := guard_of_eq_some hstep
    rfl
  | prepareZero =>
    obtain ⟨-, rfl⟩ := guard_of_eq_some hstep
    rfl
  | releaseClear =>
    obtain ⟨-, rfl⟩ := guard_of_eq_some hstep
    rfl

/-- A state that some interleaving leads to, when the bus driver keeps its promise. -/
def PldrReachable (pldrWorkItem : Bool) (w : PldrWorld) : Prop :=
  Reachable (restrict pldrStep fun _ e => e.counted = true) (.init pldrWorkItem) w

/-- The invariant holds in every reachable state. -/
theorem PldrReachable.inv {pldrWorkItem : Bool} {w : PldrWorld}
    (h : PldrReachable pldrWorkItem w) : PldrInv w :=
  Reachable.invariant (fun _ _ _ hinv hstep => hinv.step hstep.1 hstep.2)
    (pldrInv_init pldrWorkItem) h

/-- Whatever the interleaving of requests, runs of the work item and hardware callbacks: one
platform reset is queued or running at most, a snapshot is not overwritten before it is
copied, `DeviceReset` is called through an interface that is referenced, and when no work
item is pending the reference of every snapshot was dropped as often as it was taken, which
is once. -/
theorem platform_reset_single_flight {pldrWorkItem : Bool} {w : PldrWorld}
    (h : PldrReachable pldrWorkItem w) :
    w.inFlight ≤ 1 ∧
    (∀ e w', pldrStep w e w' → 0 < w.uncopied → w'.pldrSnapshot = w.pldrSnapshot) ∧
    (∀ s, w.Calls s → s.deviceReset = true ∧ 0 < w.refs s.context) ∧
    (w.Settled → ∀ n, w.taken n ≤ 1 ∧ w.dropped n = w.taken n) := by
  have hinv := h.inv
  refine ⟨?_, fun e w' hstep => hinv.snapshot_kept hstep, fun s => hinv.called, ?_⟩
  · have hsingle := hinv.single
    split at hsingle <;> omega
  · intro hsettled n
    have hbalanced := hinv.accounts.balanced n
    rw [hsettled.held_eq_zero] at hbalanced
    exact ⟨hinv.once n, by omega⟩

/-- An interface of a platform that can reset the link. -/
def pldrInterface : DeviceResetInterface := ⟨7, true, true, true, 2⟩

/-- A request, the run of the work item up to the call, and the removal behind it. -/
def removalDuringReset : List PldrEvent :=
  [.prepareZero, .prepareQuery (some pldrInterface), .request, .initiate, .initiate, .initiate,
    .initiate, .initiate, .run, .workItem 0 true, .workItem 0 true, .releaseDrop, .releaseClear]

/-- The work item is inside `DeviceReset` when `ReleaseHardware` is over. -/
def releasedDuringReset : PldrWorld :=
  (runList (guarded (fun _ e => e.counted) PldrWorld.next) (.init true)
    removalDuringReset).getD (.init true)

/-- There the interface is still referenced. -/
theorem platform_reset_single_flight_releasedDuringReset :
    releasedDuringReset.hardware = .released ∧ releasedDuringReset.Calls pldrInterface ∧
      0 < releasedDuringReset.refs 7 := by
  have hreach : PldrReachable true releasedDuringReset :=
    ⟨removalDuringReset, run_of_guarded (fun _ _ he => he) rfl⟩
  have hcalls : releasedDuringReset.Calls pldrInterface := ⟨0, .inr (List.mem_singleton.mpr rfl)⟩
  exact ⟨rfl, hcalls, ((platform_reset_single_flight hreach).2.2.1 _ hcalls).2⟩

end TtKmd
