import TtKmd.Lib.LinkedList
import TtKmd.Lib.Lists
import TtKmd.Lib.Runs
import Mathlib.Data.Multiset.AddSub

/-!
# Views that survive the close

On Linux a mapping outlives the descriptor it was made with; here the driver would tear it down
when its handle is closed. The shim hides this: it keeps a list of the views of a handle,
`tt_close` only marks the handle as long as there are any, and the last `tt_munmap` closes it.

The list is a linked list of allocated cells, edited through a pointer to a pointer. Every
access to memory that is not allocated is a fault here, and so is a request to the driver on a
handle that is closed. A caller that leaves a handle alone once it has closed it and holds no
view runs into neither.
-/

namespace TtKmd

open Lib

/-! ## The memory of the shim -/

/-- `tt_view`. -/
structure TtView where
  /-- `next`. -/
  next : Option ℕ
  /-- `addr`. -/
  addr : ℕ
  /-- `length`. -/
  length : ℕ
  deriving DecidableEq

/-- `struct tt_device`. -/
structure TtDevice where
  /-- `file`. -/
  file : ℕ
  /-- `device_id`. -/
  deviceId : ℕ
  /-- `closed`. -/
  closed : Bool
  /-- `views`. -/
  views : Option ℕ
  deriving DecidableEq

/-- A request that the shim sends to the driver. -/
inductive ShimRequest
  /-- `IOCTL_TENSTORRENT_MAP`. -/
  | map (file offset length : ℕ)
  /-- `IOCTL_TENSTORRENT_UNMAP`. -/
  | unmap (file userVa : ℕ)
  deriving DecidableEq

/-- The handle of the driver that a request goes to. -/
def ShimRequest.file : ShimRequest → ℕ
  | .map file _ _ => file
  | .unmap file _ => file

/-- What the shim must not do. -/
inductive ShimFault
  /-- An access to memory that is not allocated, or a second `free`. -/
  | notAllocated
  /-- A request on a handle that is closed. -/
  | handleClosed
  /-- A loop that does not end. -/
  | endless
  deriving DecidableEq

/-- The memory and the handles of a process, as far as the shim uses them. -/
structure ShimMemory where
  /-- The allocated `tt_device` structures. -/
  devices : ℕ → Option TtDevice
  /-- The allocated `tt_view` cells. -/
  views : Cells TtView
  /-- The calls of `CloseHandle` on a handle of the driver since it was opened. -/
  closes : ℕ → ℕ
  /-- The requests to the driver. -/
  requests : List ShimRequest
  /-- `g_last_error`. -/
  lastError : ℕ

/-- `TT_MAP_FAILED`. -/
def ttMapFailed : ℕ := 2 ^ 64 - 1

/-- `ERROR_INVALID_HANDLE`. -/
def errorInvalidHandle : ℕ := 6

/-- `ERROR_NOT_ENOUGH_MEMORY`. -/
def errorNotEnoughMemory : ℕ := 8

/-- The address of a view that the driver has made. -/
structure UserVa where
  /-- `user_va`. -/
  addr : ℕ
  /-- Views lie in the address space of the user. -/
  addr_lt : addr < ttMapFailed

namespace ShimMemory

/-- A `tt_device` structure is read. -/
def readDevice (m : ShimMemory) (h : ℕ) : Except ShimFault TtDevice :=
  match m.devices h with
  | some dev => .ok dev
  | none => .error .notAllocated

/-- A `tt_device` structure is written. -/
def writeDevice (m : ShimMemory) (h : ℕ) (dev : TtDevice) : Except ShimFault ShimMemory := do
  let _ ← m.readDevice h
  return { m with devices := Function.update m.devices h (some dev) }

/-- A `tt_device` structure is freed. -/
def freeDevice (m : ShimMemory) (h : ℕ) : Except ShimFault ShimMemory := do
  let _ ← m.readDevice h
  return { m with devices := Function.update m.devices h none }

/-- A `tt_view` cell is read. -/
def readView (m : ShimMemory) (p : ℕ) : Except ShimFault TtView :=
  match m.views.lookup p with
  | some view => .ok view
  | none => .error .notAllocated

/-- A `tt_view` cell is written. -/
def writeView (m : ShimMemory) (p : ℕ) (view : TtView) : Except ShimFault ShimMemory := do
  let _ ← m.readView p
  return { m with views := m.views.insert p view }

/-- A `tt_view` cell is freed. -/
def freeView (m : ShimMemory) (p : ℕ) : Except ShimFault ShimMemory := do
  let _ ← m.readView p
  return { m with views := m.views.erase p }

/-- `DeviceIoControl`; what the driver answers is an input of the caller of this. -/
def deviceIoControl (m : ShimMemory) (q : ShimRequest) : Except ShimFault ShimMemory :=
  if m.closes q.file = 0 then .ok { m with requests := m.requests ++ [q] }
  else .error .handleClosed

/-- `CloseHandle`. -/
def closeHandle (m : ShimMemory) (file : ℕ) : ShimMemory :=
  { m with closes := Function.update m.closes file (m.closes file + 1) }

end ShimMemory

/-! ## The functions of the shim -/

/-- What the system answers to `tt_open`. -/
structure OpenEnv where
  /-- The new handle of the driver, or what `g_last_error` is set to. -/
  file : Except ℕ ℕ
  /-- `calloc`. -/
  calloc : Option ℕ

/-- `tt_open`. -/
def ttOpen (m : ShimMemory) (deviceId : ℕ) (env : OpenEnv) : Option ℕ × ShimMemory :=
  match env.file with
  | .error err => (none, { m with lastError := err })
  | .ok file =>
      let m := { m with closes := Function.update m.closes file 0 }
      match env.calloc with
      | none => (none, { m.closeHandle file with lastError := errorNotEnoughMemory })
      | some h =>
          (some h, { m with
            devices := Function.update m.devices h (some ⟨file, deviceId, false, none⟩) })

/-- What the system answers to `tt_mmap`. -/
structure MmapEnv where
  /-- The view, or the error of the request. -/
  map : Except ℕ UserVa
  /-- `calloc`. -/
  calloc : Option ℕ

/-- `tt_mmap`. -/
def ttMmap (m : ShimMemory) (h : Option ℕ) (length offset : ℕ) (env : MmapEnv) :
    Except ShimFault (ℕ × ShimMemory) :=
  match h with
  | none => return (ttMapFailed, { m with lastError := errorInvalidHandle })
  | some h => do
      let m ← m.deviceIoControl (.map (← m.readDevice h).file offset length)
      match env.map, env.calloc with
      | .error err, _ => return (ttMapFailed, { m with lastError := err })
      | .ok userVa, none =>
          -- the result of this request is ignored
          let m ← m.deviceIoControl (.unmap (← m.readDevice h).file userVa.addr)
          return (ttMapFailed, { m with lastError := errorNotEnoughMemory })
      | .ok userVa, some p =>
          let dev ← m.readDevice h
          let m := { m with views := m.views.insert p ⟨dev.views, userVa.addr, length⟩ }
          return (userVa.addr, ← m.writeDevice h { dev with views := some p })

/-- `tt_maybe_free`. -/
def ttMaybeFree (m : ShimMemory) (h : ℕ) : Except ShimFault ShimMemory := do
  let dev ← m.readDevice h
  if dev.closed && dev.views.isNone then (m.closeHandle dev.file).freeDevice h
  else return m

/-- What `pp` points to in the loop of `tt_munmap`. -/
inductive ViewSlot
  /-- `h->views`. -/
  | views
  /-- `next` of a view. -/
  | next (p : ℕ)

/-- `*pp` is read. -/
def ShimMemory.load (m : ShimMemory) (h : ℕ) : ViewSlot → Except ShimFault (Option ℕ)
  | .views => return (← m.readDevice h).views
  | .next p => return (← m.readView p).next

/-- `*pp` is written. -/
def ShimMemory.store (m : ShimMemory) (h : ℕ) (q : Option ℕ) :
    ViewSlot → Except ShimFault ShimMemory
  | .views => do m.writeDevice h { ← m.readDevice h with views := q }
  | .next p => do m.writeView p { ← m.readView p with next := q }

/-- The loop of `tt_munmap` up to its `break`: `pp`, and the view that `*pp` points to. -/
def ShimMemory.findView (m : ShimMemory) (h addr : ℕ) :
    ℕ → ViewSlot → Except ShimFault (Option (ViewSlot × ℕ))
  | 0, _ => .error .endless
  | steps + 1, pp => do
      match ← m.load h pp with
      | none => return none
      | some p =>
          if (← m.readView p).addr = addr then return some (pp, p)
          else m.findView h addr steps (.next p)

/-- The loop of `tt_munmap`. After as many steps as there are cells it is in a circle. -/
def ShimMemory.unlinkView (m : ShimMemory) (h addr : ℕ) : Except ShimFault ShimMemory := do
  match ← m.findView h addr (m.views.keys.length + 1) .views with
  | none => return m
  | some (pp, p) =>
      let m ← m.store h (← m.readView p).next pp
      m.freeView p

/-- `tt_munmap`; its length is ignored. -/
def ttMunmap (m : ShimMemory) (h : Option ℕ) (addr : ℕ) (unmap : Except ℕ Unit) :
    Except ShimFault (ℤ × ShimMemory) :=
  match h with
  | none => return (-1, { m with lastError := errorInvalidHandle })
  | some h => do
      let m ← m.unlinkView h addr
      let m ← m.deviceIoControl (.unmap (← m.readDevice h).file addr)
      match unmap with
      | .ok _ => return (0, ← ttMaybeFree m h)
      | .error err => return (-1, ← ttMaybeFree { m with lastError := err } h)

/-- `tt_close`. -/
def ttClose (m : ShimMemory) (h : Option ℕ) : Except ShimFault ShimMemory :=
  match h with
  | none => return m
  | some h => do
      let m ← m.writeDevice h { ← m.readDevice h with closed := true }
      ttMaybeFree m h

/-! ## The caller -/

/-- A call of the owner of a handle. -/
inductive ShimCall
  /-- `tt_mmap`. -/
  | mmap (length offset : ℕ) (env : MmapEnv)
  /-- `tt_munmap`. -/
  | munmap (addr : ℕ) (unmap : Except ℕ Unit)
  /-- `tt_close`. -/
  | close

/-- The shim, and what the owner of a handle knows: whether it has called `tt_close`, and which
views `tt_mmap` has returned and it has not passed to `tt_munmap`. -/
structure ShimWorld where
  /-- The memory of the shim. -/
  memory : ShimMemory
  /-- `tt_close` was called. -/
  closeCalled : Bool
  /-- The addresses of the views the caller holds; an address may occur more than once. -/
  held : Multiset ℕ

/-- The caller is done with its handle. -/
def ShimWorld.Done (w : ShimWorld) : Prop := w.closeCalled = true ∧ w.held = 0

instance (w : ShimWorld) : Decidable w.Done := inferInstanceAs (Decidable (_ ∧ _))

/-- A call on the handle `h`. -/
def ShimWorld.call (h : ℕ) (w : ShimWorld) : ShimCall → Except ShimFault ShimWorld
  | .mmap length offset env => do
      let (va, memory) ← ttMmap w.memory (some h) length offset env
      return { w with memory, held := if va = ttMapFailed then w.held else va ::ₘ w.held }
  | .munmap addr unmap => do
      let (_, memory) ← ttMunmap w.memory (some h) addr unmap
      return { w with memory, held := w.held.erase addr }
  | .close => do
      let memory ← ttClose w.memory (some h)
      return { w with memory, closeCalled := true }

/-- `calloc` returns memory that is not allocated. -/
def ShimCall.allocates (m : ShimMemory) : ShimCall → Prop
  | .mmap _ _ env => ∀ p ∈ env.calloc, p ∉ m.views
  | _ => True

instance (m : ShimMemory) : (call : ShimCall) → Decidable (call.allocates m)
  | .mmap _ _ env => inferInstanceAs (Decidable (∀ p ∈ env.calloc, p ∉ m.views))
  | .munmap .. => inferInstanceAs (Decidable True)
  | .close => inferInstanceAs (Decidable True)

/-- A call that the caller may make: it is not done with the handle. -/
def ShimWorld.Allowed (w : ShimWorld) (call : ShimCall) : Prop :=
  ¬ w.Done ∧ call.allocates w.memory

instance (w : ShimWorld) (call : ShimCall) : Decidable (w.Allowed call) :=
  inferInstanceAs (Decidable (_ ∧ _))

/-- The handle `h`, right after `tt_open`. -/
def ShimWorld.opened (m : ShimMemory) (deviceId file h : ℕ) : ShimWorld :=
  ⟨(ttOpen m deviceId ⟨.ok file, some h⟩).2, false, 0⟩

/-- A call that runs into no fault. -/
def ShimWorld.next (h : ℕ) (w : ShimWorld) (call : ShimCall) : Option ShimWorld :=
  (w.call h call).toOption

/-- Worlds that allowed calls on the handle `h` lead to. -/
def ShimReachable (h : ℕ) : ShimWorld → ShimWorld → Prop :=
  Reachable (restrict (partialGraph (ShimWorld.next h)) ShimWorld.Allowed)

/-! ## The invariant -/

/-- A handle that is not closed: its structure is allocated, and its list are the cells that
were allocated since it was opened, each with the address of its view. -/
structure HandleOpen (base : ShimMemory) (deviceId file h : ℕ) (closed : Bool)
    (es : List (ℕ × ℕ)) (m : ShimMemory) : Prop where
  /-- The structure, and the list that starts in it. -/
  device : ∃ views, m.devices h = some ⟨file, deviceId, closed, views⟩ ∧
    Linked TtView.next TtView.addr m.views views es none
  /-- The handle of the driver is open. -/
  closes : m.closes file = 0
  /-- No other cell has changed. -/
  others : ∀ p, p ∉ es.map Prod.fst → m.views.lookup p = base.views.lookup p
  /-- The cells of the list were not allocated before. -/
  fresh : ∀ p ∈ es.map Prod.fst, p ∉ base.views

/-- A handle that is closed: nothing that was allocated for it is left. -/
structure HandleClosed (base : ShimMemory) (file h : ℕ) (m : ShimMemory) : Prop where
  /-- The structure is freed. -/
  device : m.devices h = none
  /-- The handle of the driver was closed once. -/
  closes : m.closes file = 1
  /-- All cells are freed, and no other one has changed. -/
  views : ∀ p, m.views.lookup p = base.views.lookup p

/-- The invariant of a handle and its owner: the list has the views that the owner holds, and
the handle is closed as soon as the owner is done with it. -/
def ShimInv (base : ShimMemory) (deviceId file h : ℕ) (w : ShimWorld) : Prop :=
  (¬ w.Done ∧ ∃ es, HandleOpen base deviceId file h w.closeCalled es w.memory ∧
      (es.map Prod.snd : Multiset ℕ) = w.held) ∨
    (w.Done ∧ HandleClosed base file h w.memory)

section Accesses

variable {m : ShimMemory} {h p file : ℕ} {dev dev' : TtDevice} {view view' : TtView}

/-- A step that succeeds hands its result on. -/
theorem ok_bind {ε α β : Type} (a : α) (f : α → Except ε β) : (.ok a >>= f) = f a := rfl

/-- An allocated structure can be read. -/
theorem readDevice_eq (hdev : m.devices h = some dev) : m.readDevice h = .ok dev := by
  rw [ShimMemory.readDevice, hdev]

/-- An allocated structure can be written. -/
theorem writeDevice_eq (hdev : m.devices h = some dev) :
    m.writeDevice h dev' =
      .ok { m with devices := Function.update m.devices h (some dev') } := by
  rw [ShimMemory.writeDevice, readDevice_eq hdev]
  rfl

/-- An allocated structure can be freed. -/
theorem freeDevice_eq (hdev : m.devices h = some dev) :
    m.freeDevice h = .ok { m with devices := Function.update m.devices h none } := by
  rw [ShimMemory.freeDevice, readDevice_eq hdev]
  rfl

/-- An allocated cell can be read. -/
theorem readView_eq (hview : m.views.lookup p = some view) : m.readView p = .ok view := by
  rw [ShimMemory.readView, hview]

/-- An allocated cell can be written. -/
theorem writeView_eq (hview : m.views.lookup p = some view) :
    m.writeView p view' = .ok { m with views := m.views.insert p view' } := by
  rw [ShimMemory.writeView, readView_eq hview]
  rfl

/-- An allocated cell can be freed. -/
theorem freeView_eq (hview : m.views.lookup p = some view) :
    m.freeView p = .ok { m with views := m.views.erase p } := by
  rw [ShimMemory.freeView, readView_eq hview]
  rfl

end Accesses

section Handle

variable {base m m' : ShimMemory} {deviceId file h addr : ℕ} {closed : Bool}
  {es xs ys : List (ℕ × ℕ)}

/-- Requests and errors do not matter to a handle. -/
theorem HandleOpen.congr (hopen : HandleOpen base deviceId file h closed es m)
    (hdevices : m'.devices = m.devices) (hviews : m'.views = m.views)
    (hcloses : m'.closes = m.closes) : HandleOpen base deviceId file h closed es m' where
  device := by
    rw [hdevices, hviews]
    exact hopen.device
  closes := by
    rw [hcloses]
    exact hopen.closes
  others := by
    rw [hviews]
    exact hopen.others
  fresh := hopen.fresh

/-- The structure of an open handle can be read. -/
theorem HandleOpen.readDevice (hopen : HandleOpen base deviceId file h closed es m) :
    ∃ dev, m.readDevice h = .ok dev ∧ dev.file = file ∧ dev.closed = closed ∧
      Linked TtView.next TtView.addr m.views dev.views es none := by
  obtain ⟨views, hdev, hlist⟩ := hopen.device
  exact ⟨_, readDevice_eq hdev, rfl, rfl, hlist⟩

/-- A request on an open handle. -/
theorem HandleOpen.request (hopen : HandleOpen base deviceId file h closed es m)
    {q : ShimRequest} (hq : q.file = file) :
    ∃ m', m.deviceIoControl q = .ok m' ∧ m'.views = m.views ∧
      HandleOpen base deviceId file h closed es m' := by
  have hcloses : m.closes q.file = 0 := by rw [hq, hopen.closes]
  exact ⟨_, if_pos hcloses, rfl, hopen.congr rfl rfl rfl⟩

/-- A new view is put in front of the list. -/
theorem HandleOpen.push (hopen : HandleOpen base deviceId file h closed es m) {p : ℕ}
    (hp : p ∉ m.views) (addr length : ℕ) :
    ∃ dev m', m.readDevice h = .ok dev ∧
      { m with views := m.views.insert p ⟨dev.views, addr, length⟩ }.writeDevice h
        { dev with views := some p } = .ok m' ∧
      HandleOpen base deviceId file h closed ((p, addr) :: es) m' := by
  obtain ⟨views, hdev, hlist⟩ := hopen.device
  have hnew : p ∉ es.map Prod.fst := by
    intro hmem
    obtain ⟨e, he, rfl⟩ := List.mem_map.mp hmem
    exact hp (hlist.lookup_isSome he)
  refine ⟨_, _, readDevice_eq hdev, writeDevice_eq hdev, ?_⟩
  constructor
  · exact ⟨some p, Function.update_self .., hlist.push (c := ⟨views, addr, length⟩) hp⟩
  · exact hopen.closes
  · intro q hq
    rw [List.map_cons, List.mem_cons, not_or] at hq
    exact (AList.lookup_insert_ne hq.1).trans (hopen.others q hq.2)
  · intro q hq
    rw [List.map_cons, List.mem_cons] at hq
    rcases hq with rfl | hq
    · rw [← AList.lookup_eq_none, ← hopen.others q hnew, AList.lookup_eq_none]
      exact hp
    · exact hopen.fresh q hq

/-- `tt_maybe_free` closes a handle that is marked and has no views, and no other one. -/
theorem HandleOpen.maybeFree (hopen : HandleOpen base deviceId file h closed es m) :
    ∃ m', ttMaybeFree m h = .ok m' ∧
      if closed = true ∧ es = [] then HandleClosed base file h m'
      else HandleOpen base deviceId file h closed es m' := by
  obtain ⟨views, hdev, hlist⟩ := hopen.device
  have hempty : views = none ↔ es = [] := by
    cases hlist with
    | nil => simp
    | cons => simp
  unfold ttMaybeFree
  rw [readDevice_eq hdev]
  by_cases hdone : closed = true ∧ es = []
  · have htest : (closed && views.isNone) = true := by simp [hdone.1, hempty.mpr hdone.2]
    refine ⟨_, (if_pos htest).trans (freeDevice_eq (m := m.closeHandle file) hdev), ?_⟩
    rw [if_pos hdone]
    constructor
    · exact Function.update_self ..
    · exact (Function.update_self ..).trans (congrArg (· + 1) hopen.closes)
    · intro p
      exact hopen.others p (by simp [hdone.2])
  · have htest : ¬ (closed && views.isNone) = true := by
      simpa [hempty] using hdone
    refine ⟨m, if_neg htest, ?_⟩
    rwa [if_neg hdone]

/-- The place of the link behind some cells of a list. -/
def slotBehind (xs : List (ℕ × ℕ)) : ViewSlot :=
  match xs.getLast? with
  | none => .views
  | some e => .next e.1

/-- The place of the first link. -/
theorem slotBehind_nil : slotBehind [] = .views := rfl

/-- The place of the link behind the last cell. -/
theorem slotBehind_concat (xs : List (ℕ × ℕ)) (e : ℕ × ℕ) :
    slotBehind (xs ++ [e]) = .next e.1 := by
  rw [slotBehind, List.getLast?_concat]

/-- The link behind some cells leads to the rest of the list. -/
theorem HandleOpen.load (hopen : HandleOpen base deviceId file h closed (xs ++ ys) m) :
    ∃ q, m.load h (slotBehind xs) = .ok q ∧ Linked TtView.next TtView.addr m.views q ys none := by
  obtain ⟨views, hdev, hlist⟩ := hopen.device
  rcases xs.eq_nil_or_concat' with rfl | ⟨zs, e, rfl⟩
  · refine ⟨views, ?_, hlist⟩
    rw [slotBehind_nil, ShimMemory.load, readDevice_eq hdev, ok_bind]
    rfl
  · rw [List.append_assoc] at hlist
    obtain ⟨q, -, hrest⟩ := hlist.split
    obtain ⟨cell, -, hcell, -, hrest⟩ := hrest.head
    refine ⟨cell.next, ?_, hrest⟩
    rw [slotBehind_concat, ShimMemory.load, readView_eq hcell, ok_bind]
    rfl

/-- The loop goes through the rest of the list, to the first view with the address. -/
theorem HandleOpen.findView (hopen : HandleOpen base deviceId file h closed (xs ++ ys) m)
    (addr : ℕ) {steps : ℕ} (hsteps : ys.length < steps) :
    m.findView h addr steps (slotBehind xs) = .ok none ∧ (∀ e ∈ ys, e.2 ≠ addr) ∨
      ∃ us e vs, ys = us ++ e :: vs ∧ e.2 = addr ∧ (∀ u ∈ us, u.2 ≠ addr) ∧
        m.findView h addr steps (slotBehind xs) = .ok (some (slotBehind (xs ++ us), e.1)) := by
  induction ys generalizing xs steps with
  | nil =>
    obtain ⟨steps, rfl⟩ := Nat.exists_eq_add_one_of_ne_zero (Nat.ne_zero_of_lt hsteps)
    obtain ⟨q, hload, hend⟩ := hopen.load
    cases hend
    refine .inl ⟨?_, by simp⟩
    unfold ShimMemory.findView
    rw [hload]
    rfl
  | cons e ys ih =>
    obtain ⟨steps, rfl⟩ := Nat.exists_eq_add_one_of_ne_zero (Nat.ne_zero_of_lt hsteps)
    obtain ⟨q, hload, hrest⟩ := hopen.load
    obtain ⟨cell, rfl, hcell, haddr, -⟩ := hrest.head
    have hstep : m.findView h addr (steps + 1) (slotBehind xs) =
        if e.2 = addr then .ok (some (slotBehind xs, e.1))
        else m.findView h addr steps (.next e.1) := by
      rw [ShimMemory.findView, hload, ok_bind]
      dsimp only
      rw [readView_eq hcell, ok_bind, haddr]
      rfl
    by_cases he : e.2 = addr
    · refine .inr ⟨[], e, ys, rfl, he, by simp, ?_⟩
      rw [hstep, if_pos he, List.append_nil]
    · have hopen' : HandleOpen base deviceId file h closed ((xs ++ [e]) ++ ys) m := by
        rwa [List.append_assoc]
      rw [hstep, if_neg he, ← slotBehind_concat xs e]
      rcases ih hopen' (Nat.lt_of_succ_lt_succ hsteps) with
        ⟨hfind, hno⟩ | ⟨us, e', vs, rfl, he', hno, hfind⟩
      · exact .inl ⟨hfind, List.forall_mem_cons.mpr ⟨he, hno⟩⟩
      · refine .inr ⟨e :: us, e', vs, rfl, he', List.forall_mem_cons.mpr ⟨he, hno⟩, ?_⟩
        rw [hfind, List.append_assoc]
        rfl

/-- The list of a handle without one of its views. -/
theorem HandleOpen.without {e : ℕ × ℕ}
    (hopen : HandleOpen base deviceId file h closed (xs ++ e :: ys) m)
    (hdevice : ∃ views, m'.devices h = some ⟨file, deviceId, closed, views⟩ ∧
      Linked TtView.next TtView.addr m'.views views (xs ++ ys) none)
    (hcloses : m'.closes = m.closes) (hgone : m'.views.lookup e.1 = none)
    (hkept : ∀ p, p ∉ (xs ++ e :: ys).map Prod.fst → m'.views.lookup p = m.views.lookup p) :
    HandleOpen base deviceId file h closed (xs ++ ys) m' := by
  have hmem : ∀ p, p ∈ (xs ++ e :: ys).map Prod.fst ↔ p = e.1 ∨ p ∈ (xs ++ ys).map Prod.fst := by
    intro p
    simp only [List.map_append, List.map_cons, List.mem_append, List.mem_cons]
    exact or_left_comm
  refine ⟨hdevice, hcloses ▸ hopen.closes, ?_, fun p hp => hopen.fresh p ((hmem p).mpr (.inr hp))⟩
  intro p hp
  by_cases hpe : p = e.1
  · have hfresh := hopen.fresh e.1 ((hmem e.1).mpr (.inl rfl))
    rw [hpe, hgone, AList.lookup_eq_none.mpr hfresh]
  · have hout : p ∉ (xs ++ e :: ys).map Prod.fst := by
      rw [hmem, not_or]
      exact ⟨hpe, hp⟩
    rw [hkept p hout, hopen.others p hout]

/-- A view is taken out of the list, and its cell is freed. -/
theorem HandleOpen.unlink {e : ℕ × ℕ}
    (hopen : HandleOpen base deviceId file h closed (xs ++ e :: ys) m) :
    ∃ cell m₁ m', m.readView e.1 = .ok cell ∧ m.store h cell.next (slotBehind xs) = .ok m₁ ∧
      m₁.freeView e.1 = .ok m' ∧ HandleOpen base deviceId file h closed (xs ++ ys) m' := by
  obtain ⟨views, hdev, hlist⟩ := hopen.device
  rcases xs.eq_nil_or_concat' with rfl | ⟨zs, q, rfl⟩
  · -- the first view: the structure gets its link
    obtain ⟨cell, -, hcell, -, -⟩ := hlist.head
    have hstore : m.store h cell.next (slotBehind []) = .ok { m with
        devices := Function.update m.devices h (some ⟨file, deviceId, closed, cell.next⟩) } := by
      rw [slotBehind_nil, ShimMemory.store, readDevice_eq hdev, ok_bind]
      exact writeDevice_eq hdev
    refine ⟨cell, _, _, readView_eq hcell, hstore, freeView_eq hcell, ?_⟩
    apply hopen.without
    · exact ⟨cell.next, Function.update_self .., hlist.unlink_head hcell⟩
    · rfl
    · exact AList.lookup_erase ..
    · intro p hp
      apply AList.lookup_erase_ne
      rintro rfl
      exact hp (List.mem_cons_self ..)
  · -- a view behind another one, which gets its link
    have hlist' : Linked TtView.next TtView.addr m.views views (zs ++ q :: e :: ys) none := by
      rwa [List.append_assoc] at hlist
    obtain ⟨b, -, hrest⟩ := hlist'.split
    obtain ⟨front, -, hfront, -, hrest⟩ := hrest.head
    obtain ⟨cell, -, hcell, -, -⟩ := hrest.head
    have hne : e.1 ≠ q.1 := fun heq => hlist'.fst_notMem (by simp [heq])
    have hstore : m.store h cell.next (slotBehind (zs ++ [q])) =
        .ok { m with views := m.views.insert q.1 { front with next := cell.next } } := by
      rw [slotBehind_concat, ShimMemory.store, readView_eq hfront, ok_bind]
      exact writeView_eq hfront
    refine ⟨cell, _, _, readView_eq hcell, hstore,
      freeView_eq ((AList.lookup_insert_ne hne).trans hcell), ?_⟩
    apply hopen.without
    · refine ⟨views, hdev, ?_⟩
      rw [List.append_assoc]
      exact hlist'.unlink_next hcell hfront rfl rfl
    · rfl
    · exact AList.lookup_erase ..
    · intro p hp
      simp only [List.map_append, List.map_cons, List.mem_append, List.mem_cons, not_or] at hp
      exact (AList.lookup_erase_ne hp.2.1).trans (AList.lookup_insert_ne hp.1.2.1)

/-- The loop of `tt_munmap` takes the first view with the address out of the list. -/
theorem HandleOpen.unlinkView (hopen : HandleOpen base deviceId file h closed es m) (addr : ℕ) :
    ∃ m', m.unlinkView h addr = .ok m' ∧
      HandleOpen base deviceId file h closed (es.eraseP fun e => e.2 = addr) m' := by
  obtain ⟨_, -, hlist⟩ := hopen.device
  have hsteps : es.length < m.views.keys.length + 1 := Nat.lt_succ_of_le hlist.length_le
  have hopen' : HandleOpen base deviceId file h closed ([] ++ es) m := hopen
  have hfound := hopen'.findView addr hsteps
  rw [slotBehind_nil] at hfound
  unfold ShimMemory.unlinkView
  rcases hfound with ⟨hfind, hno⟩ | ⟨us, e, vs, rfl, he, hno, hfind⟩
  · have hsame : (es.eraseP fun e => e.2 = addr) = es :=
      List.eraseP_of_forall_not fun e he => by simpa using hno e he
    refine ⟨m, ?_, by rwa [hsame]⟩
    rw [hfind, ok_bind]
    rfl
  · obtain ⟨cell, m₁, m', hread, hstore, hfree, hopen₂⟩ := hopen.unlink
    have herase : ((us ++ e :: vs).eraseP fun e => e.2 = addr) = us ++ vs := by
      rw [List.eraseP_append_right _ fun u hu => by simpa using hno u hu,
        List.eraseP_cons_of_pos (by simpa using he)]
    refine ⟨m', ?_, by rwa [herase]⟩
    rw [hfind, ok_bind]
    dsimp only
    rw [hread, ok_bind, List.nil_append, hstore, ok_bind, hfree]

/-- `tt_mmap` returns a new view, or fails and leaves the list as it is. -/
theorem HandleOpen.ttMmap (hopen : HandleOpen base deviceId file h closed es m)
    (length offset : ℕ) {env : MmapEnv} (hcalloc : ∀ p ∈ env.calloc, p ∉ m.views) :
    ∃ va m', ttMmap m (some h) length offset env = .ok (va, m') ∧
      (va = ttMapFailed ∧ HandleOpen base deviceId file h closed es m' ∨
        va ≠ ttMapFailed ∧ ∃ p, HandleOpen base deviceId file h closed ((p, va) :: es) m') := by
  obtain ⟨dev, hdev, hfile, -⟩ := hopen.readDevice
  obtain ⟨m₁, hmap, hviews, hopen₁⟩ := hopen.request (q := .map dev.file offset length) hfile
  unfold TtKmd.ttMmap
  dsimp only
  rw [hdev, ok_bind, hmap, ok_bind]
  cases henv : env.map with
  | error err => exact ⟨_, _, rfl, .inl ⟨rfl, hopen₁.congr rfl rfl rfl⟩⟩
  | ok userVa =>
    cases hp : env.calloc with
    | none =>
      obtain ⟨dev₁, hdev₁, hfile₁, -⟩ := hopen₁.readDevice
      obtain ⟨m₂, hunmap, -, hopen₂⟩ := hopen₁.request (q := .unmap dev₁.file userVa.addr) hfile₁
      dsimp only
      rw [hdev₁, ok_bind, hunmap, ok_bind]
      exact ⟨_, _, rfl, .inl ⟨rfl, hopen₂.congr rfl rfl rfl⟩⟩
    | some p =>
      have hfresh : p ∉ m₁.views := by
        rw [hviews]
        exact hcalloc p hp
      obtain ⟨dev₁, m₂, hdev₁, hwrite, hopen₂⟩ :=
        hopen₁.push hfresh userVa.addr length
      dsimp only
      rw [hdev₁, ok_bind, hwrite, ok_bind]
      exact ⟨_, _, rfl, .inr ⟨userVa.addr_lt.ne, p, hopen₂⟩⟩

/-- `tt_munmap` takes a view with the address out of the list and may close the handle. -/
theorem HandleOpen.ttMunmap (hopen : HandleOpen base deviceId file h closed es m) (addr : ℕ)
    (unmap : Except ℕ Unit) :
    ∃ m₁, HandleOpen base deviceId file h closed (es.eraseP fun e => e.2 = addr) m₁ ∧
      ∃ result, ttMunmap m (some h) addr unmap = do return (result, ← ttMaybeFree m₁ h) := by
  obtain ⟨m₁, hunlink, hopen₁⟩ := hopen.unlinkView addr
  obtain ⟨dev, hdev, hfile, -⟩ := hopen₁.readDevice
  obtain ⟨m₂, hunmap, -, hopen₂⟩ := hopen₁.request (q := .unmap dev.file addr) hfile
  unfold TtKmd.ttMunmap
  dsimp only
  rw [hunlink, ok_bind, hdev, ok_bind, hunmap, ok_bind]
  cases unmap with
  | ok _ => exact ⟨m₂, hopen₂, 0, rfl⟩
  | error err => exact ⟨{ m₂ with lastError := err }, hopen₂.congr rfl rfl rfl, -1, rfl⟩

/-- `tt_close` marks the handle and may close it. -/
theorem HandleOpen.ttClose (hopen : HandleOpen base deviceId file h closed es m) :
    ∃ m₁, HandleOpen base deviceId file h true es m₁ ∧
      ttClose m (some h) = ttMaybeFree m₁ h := by
  obtain ⟨views, hdev, hlist⟩ := hopen.device
  refine ⟨{ m with devices := Function.update m.devices h (some ⟨file, deviceId, true, views⟩) },
    ⟨⟨views, Function.update_self .., hlist⟩, hopen.closes, hopen.others, hopen.fresh⟩, ?_⟩
  unfold TtKmd.ttClose
  dsimp only
  rw [readDevice_eq hdev, ok_bind, writeDevice_eq hdev, ok_bind]

end Handle

/-! ## The calls -/

section Calls

variable {base : ShimMemory} {deviceId file h : ℕ} {w w' : ShimWorld} {m : ShimMemory}
  {es : List (ℕ × ℕ)}

/-- What `tt_maybe_free` makes of a handle at the end of a call. -/
theorem ShimInv.of_maybeFree (hopen : HandleOpen base deviceId file h w.closeCalled es m)
    (hheld : (es.map Prod.snd : Multiset ℕ) = w.held) :
    ∃ memory, ttMaybeFree m h = .ok memory ∧
      ShimInv base deviceId file h { w with memory } := by
  obtain ⟨memory, hfree, hafter⟩ := hopen.maybeFree
  have hdone : ({ w with memory } : ShimWorld).Done ↔ w.closeCalled = true ∧ es = [] := by
    unfold ShimWorld.Done
    rw [← hheld, Multiset.coe_eq_zero, List.map_eq_nil_iff]
  refine ⟨memory, hfree, ?_⟩
  split at hafter
  · exact .inr ⟨hdone.mpr ‹_›, hafter⟩
  · exact .inl ⟨mt hdone.mp ‹_›, es, hafter, hheld⟩

/-- `tt_mmap` adds the view it returns, if it returns one. -/
theorem ShimInv.mmap (hdone : ¬ w.Done)
    (hopen : HandleOpen base deviceId file h w.closeCalled es w.memory)
    (hheld : (es.map Prod.snd : Multiset ℕ) = w.held) (length offset : ℕ) {env : MmapEnv}
    (hcalloc : ∀ p ∈ env.calloc, p ∉ w.memory.views) :
    ∃ w', w.call h (.mmap length offset env) = .ok w' ∧ ShimInv base deviceId file h w' := by
  obtain ⟨va, memory, hcall, hafter⟩ := hopen.ttMmap length offset hcalloc
  refine ⟨{ w with memory, held := if va = ttMapFailed then w.held else va ::ₘ w.held }, ?_, ?_⟩
  · rw [ShimWorld.call, hcall, ok_bind]
    rfl
  rcases hafter with ⟨hfailed, hopen'⟩ | ⟨hmapped, p, hopen'⟩
  · rw [if_pos hfailed]
    exact .inl ⟨hdone, es, hopen', hheld⟩
  · rw [if_neg hmapped]
    refine .inl ⟨fun hnone => Multiset.cons_ne_zero hnone.2, _, hopen', ?_⟩
    rw [List.map_cons, ← Multiset.cons_coe, hheld]

/-- `tt_munmap` removes a view with the address, if there is one. -/
theorem ShimInv.munmap (hopen : HandleOpen base deviceId file h w.closeCalled es w.memory)
    (hheld : (es.map Prod.snd : Multiset ℕ) = w.held) (addr : ℕ) (unmap : Except ℕ Unit) :
    ∃ w', w.call h (.munmap addr unmap) = .ok w' ∧ ShimInv base deviceId file h w' := by
  obtain ⟨m₁, hopen₁, result, hcall⟩ := hopen.ttMunmap addr unmap
  have hheld₁ : ((es.eraseP fun e => e.2 = addr).map Prod.snd : Multiset ℕ) =
      w.held.erase addr := by
    have htest : (fun e : ℕ × ℕ => decide (e.2 = addr)) = (addr == ·) ∘ Prod.snd := by
      funext e
      exact decide_eq_decide.mpr eq_comm
    rw [← hheld, Multiset.coe_erase, List.erase_eq_eraseP, List.eraseP_map, htest]
  obtain ⟨memory, hfree, hinv⟩ :=
    ShimInv.of_maybeFree (w := { w with held := w.held.erase addr }) hopen₁ hheld₁
  refine ⟨_, ?_, hinv⟩
  rw [ShimWorld.call, hcall, hfree]
  rfl

/-- `tt_close` marks the handle. -/
theorem ShimInv.close (hopen : HandleOpen base deviceId file h w.closeCalled es w.memory)
    (hheld : (es.map Prod.snd : Multiset ℕ) = w.held) :
    ∃ w', w.call h .close = .ok w' ∧ ShimInv base deviceId file h w' := by
  obtain ⟨m₁, hopen₁, hcall⟩ := hopen.ttClose
  obtain ⟨memory, hfree, hinv⟩ :=
    ShimInv.of_maybeFree (w := { w with closeCalled := true }) hopen₁ hheld
  refine ⟨_, ?_, hinv⟩
  rw [ShimWorld.call, hcall, hfree]
  rfl

/-- An allowed call runs into no fault and keeps the invariant. -/
theorem ShimInv.call (hinv : ShimInv base deviceId file h w) {call : ShimCall}
    (hallowed : w.Allowed call) :
    ∃ w', w.call h call = .ok w' ∧ ShimInv base deviceId file h w' := by
  rcases hinv with ⟨hdone, es, hopen, hheld⟩ | ⟨hdone, -⟩
  · cases call with
    | mmap length offset env => exact ShimInv.mmap hdone hopen hheld length offset hallowed.2
    | munmap addr unmap => exact ShimInv.munmap hopen hheld addr unmap
    | close => exact ShimInv.close hopen hheld
  · exact absurd hdone hallowed.1

/-- The handle after `tt_open`. -/
theorem ShimInv.opened (base : ShimMemory) (deviceId file h : ℕ) :
    ShimInv base deviceId file h (.opened base deviceId file h) := by
  refine .inl ⟨fun hdone => Bool.false_ne_true hdone.1, [], ?_, rfl⟩
  constructor
  · exact ⟨none, Function.update_self .., .nil none⟩
  · exact Function.update_self ..
  · exact fun p _ => rfl
  · exact fun p hp => absurd hp (List.not_mem_nil)

/-- Every world that allowed calls lead to meets the invariant. -/
theorem ShimReachable.inv (hreach : ShimReachable h (.opened base deviceId file h) w) :
    ShimInv base deviceId file h w := by
  refine Reachable.invariant ?_ (.opened base deviceId file h) hreach
  rintro w call w' hinv ⟨hallowed, hnext⟩
  obtain ⟨w'', hcall, hinv'⟩ := hinv.call hallowed
  have hsame : w'' = w' := by
    have hsome : (w.call h call).toOption = some w' := hnext
    rw [hcall] at hsome
    exact Option.some.inj hsome
  exact hsame ▸ hinv'

end Calls

/-! ## The result -/

/-- Whatever the owner of a handle calls, and whatever fails, as long as it leaves the handle
alone when it is done with it: the handle of the driver is closed once at most, and it is closed,
and its structure freed, exactly when `tt_close` was called and every view was passed to
`tt_munmap`. So it is open while the owner holds a view. In the end no cell is left over, and
no call touches memory that is not allocated or a handle that is closed. -/
theorem mmap_survives_close (m : ShimMemory) (deviceId file h : ℕ) {w : ShimWorld}
    (hreach : ShimReachable h (.opened m deviceId file h) w) :
    w.memory.closes file ≤ 1 ∧
      (w.memory.closes file = 1 ↔ w.closeCalled = true ∧ w.held = 0) ∧
      (w.memory.devices h = none ↔ w.closeCalled = true ∧ w.held = 0) ∧
      (w.held ≠ 0 → w.memory.closes file = 0) ∧
      (w.memory.closes file = 1 → ∀ p, w.memory.views.lookup p = m.views.lookup p) ∧
      ∀ call, w.Allowed call → ∃ w', w.call h call = .ok w' := by
  have hinv := hreach.inv
  have hcalls : ∀ call, w.Allowed call → ∃ w', w.call h call = .ok w' := by
    intro call hallowed
    obtain ⟨w', hcall, -⟩ := hinv.call hallowed
    exact ⟨w', hcall⟩
  rcases hinv with ⟨hdone, es, hopen, hheld⟩ | ⟨hdone, hclosed⟩
  · have hcloses := hopen.closes
    obtain ⟨views, hdev, -⟩ := hopen.device
    refine ⟨by omega, ⟨fun hone => by omega, fun hd => absurd hd hdone⟩,
      ⟨fun hfreed => ?_, fun hd => absurd hd hdone⟩, fun _ => hcloses, fun hone => by omega, hcalls⟩
    rw [hdev] at hfreed
    cases hfreed
  · exact ⟨hclosed.closes.le, ⟨fun _ => hdone, fun _ => hclosed.closes⟩,
      ⟨fun _ => hdone, fun _ => hclosed.device⟩, fun hheld => absurd hdone.2 hheld,
      fun _ => hclosed.views, hcalls⟩

/-- A process that has not used the shim yet. -/
def freshShim : ShimMemory := ⟨fun _ => none, ∅, fun _ => 0, [], 0⟩

/-- Two views at one address, the second one made after the close; an unmapping that fails. -/
def repeatedAddress : List ShimCall :=
  [.mmap 4096 0 ⟨.ok ⟨0x10000, by decide⟩, some 2⟩, .munmap 0x5000 (.error 87), .close,
    .mmap 4096 0 ⟨.ok ⟨0x10000, by decide⟩, some 3⟩, .munmap 0x10000 (.error 87)]

/-- The owner still holds one of the two views. -/
def oneViewLeft : ShimWorld :=
  (runList (guarded (fun w call => decide (w.Allowed call)) (ShimWorld.next 1))
    (.opened freshShim 0 7 1) repeatedAddress).getD (.opened freshShim 0 7 1)

/-- There the handle of the driver is open still, although it was closed by its owner. -/
theorem mmap_survives_close_oneViewLeft :
    oneViewLeft.held = {0x10000} ∧ oneViewLeft.memory.closes 7 = 0 := by
  have hreach : ShimReachable 1 (.opened freshShim 0 7 1) oneViewLeft :=
    ⟨repeatedAddress, run_of_guarded (fun _ _ hallowed => of_decide_eq_true hallowed) rfl⟩
  have hheld : oneViewLeft.held = {0x10000} := by decide
  have hsome : oneViewLeft.held ≠ 0 := by
    rw [hheld]
    exact Multiset.singleton_ne_zero _
  exact ⟨hheld, (mmap_survives_close freshShim 0 7 1 hreach).2.2.2.1 hsome⟩

end TtKmd
