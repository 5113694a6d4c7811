import TtKmd.Lib.Ring
import TtKmd.Lib.Runs
import TtKmd.Platform

/-!
# The ARC message queue

The driver and the firmware share two rings in CSM: requests go to the firmware,
responses come back. Every CSM access is a step of its own, so the firmware may
run between any two accesses of `TtBhArcMsgPush` and `TtBhArcMsgPop`. The driver
is the code of these two functions with a program counter; the firmware is any
agent that reads each unread request once, never has more than `NumEntries`
unread responses and advances its pointers modulo twice that number.

`ArcInv` is the invariant of this system. It is kept by every step from a state in
which the driver's two occupancy tests are sound.
-/

namespace TtKmd

open Lib

/-- `TT_ARC_MSG`: word 0 is the header, words 1 to 7 are the payload. -/
abbrev ArcMsg := Fin 8 → ℕ

/-- The words of CSM, by their address. -/
abbrev Csm := ℕ → ℕ

/-- `TT_ARC_CSM_BASE`. -/
def csmBase : ℕ := 0x10000000

/-- `TT_ARC_CSM_SIZE`. -/
def csmSize : ℕ := 2 ^ 19

/-- `TtBhCsmRead32`; `none` is a range violation. -/
def ttBhCsmRead32 (mem : Csm) (addr : ℕ) : Option ℕ :=
  if addr < csmBase ∨ addr > csmBase + csmSize - 4 then none else some (mem addr)

/-- `TtBhCsmWrite32`; `none` is a range violation. -/
def ttBhCsmWrite32 (mem : Csm) (addr value : ℕ) : Option Csm :=
  if addr < csmBase ∨ addr > csmBase + csmSize - 4 then none
  else some (Function.update mem addr value)

/-- The queue `TtBhSendArcMessage` discovers: `QueueBase` and `NumEntries`. -/
structure ArcQueue where
  /-- CSM address of the queue header. -/
  base : ℕ
  /-- Number of entries of each ring. -/
  numEntries : ℕ

/-- The discovered queue, from the two words of the queue control block. -/
def discoverQueue (queueBase queueInfo : ℕ) : Option ArcQueue :=
  let numEntries := queueInfo &&& 0xFF
  if numEntries = 0 then none else some ⟨queueBase, numEntries⟩

/-- `TT_ARC_MSG_QUEUE_REQ_WPTR`, written by the driver. -/
def reqWptr : ℕ := 0x00

/-- `TT_ARC_MSG_QUEUE_RES_RPTR`, written by the driver. -/
def resRptr : ℕ := 0x04

/-- `TT_ARC_MSG_QUEUE_REQ_RPTR`, written by the firmware. -/
def reqRptr : ℕ := 0x10

/-- `TT_ARC_MSG_QUEUE_RES_WPTR`, written by the firmware. -/
def resWptr : ℕ := 0x14

/-- `TT_ARC_MSG_QUEUE_HEADER_SIZE`, and also `sizeof(TT_ARC_MSG)`. -/
def entrySize : ℕ := 32

/-- The occupancy test of `TtBhArcMsgPush`: there is space. -/
def pushHasSpace (numEntries wptr rptr : ℕ) : Bool :=
  u32Sub wptr rptr % (2 * numEntries) < numEntries

/-- The occupancy test of `TtBhArcMsgPop`: there is a response. -/
def popHasResponse (numEntries wptr rptr : ℕ) : Bool :=
  u32Sub wptr rptr % (2 * numEntries) > 0

/-- What the last call returned. -/
inductive ArcResult
  /-- `FALSE`, from either function. -/
  | failed
  /-- `TRUE` from `TtBhArcMsgPush`. -/
  | pushed
  /-- `TRUE` from `TtBhArcMsgPop`, with the message. -/
  | popped (msg : ArcMsg)

/-- Where the driver stands in `TtBhArcMsgPush` or `TtBhArcMsgPop`. -/
inductive DriverPc
  /-- Outside both functions; the result of the last call. -/
  | returned (result : ArcResult)
  /-- Before the read of `REQ_WPTR`. -/
  | pushStart (msg : ArcMsg)
  /-- Before a read of `REQ_RPTR` in the waiting loop. -/
  | pushPoll (msg : ArcMsg) (wptr : ℕ)
  /-- Before the write of word `i`, or of `REQ_WPTR` when `i = 8`. -/
  | pushWrite (msg : ArcMsg) (wptr i : ℕ)
  /-- Before the read of `RES_RPTR`. -/
  | popStart
  /-- Before a read of `RES_WPTR` in the waiting loop. -/
  | popPoll (rptr : ℕ)
  /-- Before the read of word `i`, or the write of `RES_RPTR` when `i = 8`. -/
  | popLoad (rptr i : ℕ) (msg : ArcMsg)

/-- The shared memory, both parties, and the history of the two rings. -/
structure ArcState where
  /-- CSM. -/
  mem : Csm
  /-- The driver. -/
  driver : DriverPc
  /-- The words of the request the firmware is reading. -/
  reader : Option (ℕ × ArcMsg)
  /-- The response the firmware is writing and the words written. -/
  writer : Option (ArcMsg × ℕ)
  /-- Requests published by the driver. -/
  pushed : List ArcMsg
  /-- Requests consumed by the firmware. -/
  taken : List ArcMsg
  /-- Responses published by the firmware. -/
  written : List ArcMsg
  /-- Responses consumed by the driver. -/
  popped : List ArcMsg

/-- A step of one of the parties. -/
inductive ArcEvent
  /-- `TtBhArcMsgPush` is called. -/
  | startPush (msg : ArcMsg)
  /-- `TtBhArcMsgPop` is called. -/
  | startPop
  /-- The next CSM access of the driver; `timeout` says whether the deadline has
  passed when a waiting loop asks. -/
  | driver (timeout : Bool)
  /-- The firmware begins, continues or finishes to read a request. -/
  | fwRead
  /-- The firmware begins to write a response. -/
  | fwWriteStart (msg : ArcMsg)
  /-- The firmware continues or finishes to write a response. -/
  | fwWrite

/-- The driver returns to its caller. -/
def ArcState.ret (s : ArcState) (r : ArcResult) : ArcState := { s with driver := .returned r }

/-- The driver goes on to another place. -/
def ArcState.goto (s : ArcState) (pc : DriverPc) : ArcState := { s with driver := pc }

/-- The next CSM access of `TtBhArcMsgPush` or `TtBhArcMsgPop`, with what the
driver does on the value before the access after it. -/
def driverStep (q : ArcQueue) (timeout : Bool) (s : ArcState) : Option ArcState :=
  match s.driver with
  | .returned _ => none
  | .pushStart msg =>
      match ttBhCsmRead32 s.mem (u32 (q.base + reqWptr)) with
      | none => some (s.ret .failed)
      | some wptr =>
          if wptr = maxUlong then some (s.ret .failed) else some (s.goto (.pushPoll msg wptr))
  | .pushPoll msg wptr =>
      match ttBhCsmRead32 s.mem (u32 (q.base + reqRptr)) with
      | none => some (s.ret .failed)
      | some rptr =>
          if rptr = maxUlong then some (s.ret .failed)
          else if pushHasSpace q.numEntries wptr rptr then some (s.goto (.pushWrite msg wptr 0))
          else if timeout then some (s.ret .failed)
          else some s
  | .pushWrite msg wptr i =>
      let requestBase := u32 (q.base + entrySize)
      let slot := wptr % q.numEntries
      if h : i < 8 then
        match ttBhCsmWrite32 s.mem (u32 (requestBase + slot * entrySize + i * 4)) (msg ⟨i, h⟩) with
        | none => some (s.ret .failed)
        | some mem => some { s with mem := mem, driver := .pushWrite msg wptr (i + 1) }
      else
        match ttBhCsmWrite32 s.mem (u32 (q.base + reqWptr)) ((wptr + 1) % (2 * q.numEntries)) with
        | none => some (s.ret .failed)
        | some mem =>
            some { s with mem := mem, driver := .returned .pushed, pushed := s.pushed ++ [msg] }
  | .popStart =>
      match ttBhCsmRead32 s.mem (u32 (q.base + resRptr)) with
      | none => some (s.ret .failed)
      | some rptr => if rptr = maxUlong then some (s.ret .failed) else some (s.goto (.popPoll rptr))
  | .popPoll rptr =>
      match ttBhCsmRead32 s.mem (u32 (q.base + resWptr)) with
      | none => some (s.ret .failed)
      | some wptr =>
          if wptr = maxUlong then some (s.ret .failed)
          else if popHasResponse q.numEntries wptr rptr then
            some (s.goto (.popLoad rptr 0 fun _ => 0))
          else if timeout then some (s.ret .failed)
          else some s
  | .popLoad rptr i msg =>
      let responseBase := u32 (q.base + entrySize + q.numEntries * entrySize)
      let slot := rptr % q.numEntries
      let base := u32 (responseBase + slot * entrySize)
      if h : i < 8 then
        match ttBhCsmRead32 s.mem (u32 (base + i * 4)) with
        | none => some (s.ret .failed)
        | some value => some (s.goto (.popLoad rptr (i + 1) (Function.update msg ⟨i, h⟩ value)))
      else
        match ttBhCsmWrite32 s.mem (u32 (q.base + resRptr)) ((rptr + 1) % (2 * q.numEntries)) with
        | none => some (s.ret .failed)
        | some mem =>
            some { s with
              mem := mem
              driver := .returned (.popped msg)
              popped := s.popped ++ [msg] }

/-- Where one of the two rings lies in CSM. -/
structure RingLayout where
  /-- Address of the producer's pointer. -/
  wptr : ℕ
  /-- Address of the consumer's pointer. -/
  rptr : ℕ
  /-- Address of the first entry. -/
  entries : ℕ
  /-- Number of entries. -/
  size : ℕ

/-- The address of word `i` of an entry. -/
def RingLayout.addr (L : RingLayout) (slot i : ℕ) : ℕ := L.entries + slot * entrySize + i * 4

/-- The request ring. -/
def ArcQueue.req (q : ArcQueue) : RingLayout :=
  ⟨q.base + reqWptr, q.base + reqRptr, q.base + entrySize, q.numEntries⟩

/-- The response ring. -/
def ArcQueue.res (q : ArcQueue) : RingLayout :=
  ⟨q.base + resWptr, q.base + resRptr, q.base + entrySize + q.numEntries * entrySize, q.numEntries⟩

/-- One step of the firmware on the request ring. -/
def fwReadStep (q : ArcQueue) (s : ArcState) : Option ArcState :=
  let rptr := s.mem q.req.rptr
  match s.reader with
  | none =>
      if s.taken.length < s.pushed.length then some { s with reader := some (0, fun _ => 0) }
      else none
  | some (i, msg) =>
      if h : i < 8 then
        let value := s.mem (q.req.addr (rptr % q.numEntries) i)
        some { s with reader := some (i + 1, Function.update msg ⟨i, h⟩ value) }
      else
        some { s with
          mem := Function.update s.mem q.req.rptr ((rptr + 1) % (2 * q.numEntries)),
          reader := none, taken := s.taken ++ [msg] }

/-- One step of the firmware on the response ring. -/
def fwWriteStep (q : ArcQueue) (s : ArcState) : Option ArcState :=
  let wptr := s.mem q.res.wptr
  match s.writer with
  | none => none
  | some (msg, i) =>
      if h : i < 8 then
        some { s with
          mem := Function.update s.mem (q.res.addr (wptr % q.numEntries) i) (msg ⟨i, h⟩),
          writer := some (msg, i + 1) }
      else
        some { s with
          mem := Function.update s.mem q.res.wptr ((wptr + 1) % (2 * q.numEntries)),
          writer := none, written := s.written ++ [msg] }

/-- One step of the system; `none` where the step is not possible. -/
def arcNext (q : ArcQueue) (s : ArcState) : ArcEvent → Option ArcState
  | .startPush msg =>
      match s.driver with
      | .returned _ => some (s.goto (.pushStart msg))
      | _ => none
  | .startPop =>
      match s.driver with
      | .returned _ => some (s.goto .popStart)
      | _ => none
  | .driver timeout => driverStep q timeout s
  | .fwRead => fwReadStep q s
  | .fwWriteStart msg =>
      if s.writer = none ∧ s.written.length - s.popped.length < q.numEntries then
        some { s with writer := some (msg, 0) }
      else none
  | .fwWrite => fwWriteStep q s

/-- The step relation of the system. -/
def ArcStep (q : ArcQueue) : ArcState → ArcEvent → ArcState → Prop := partialGraph (arcNext q)

/-- The header and both rings lie inside CSM. -/
structure ArcQueue.InCsm (q : ArcQueue) : Prop where
  /-- The queue begins inside CSM. -/
  lo : csmBase ≤ q.base
  /-- The queue ends inside CSM. -/
  hi : q.base + entrySize + 2 * (q.numEntries * entrySize) ≤ csmBase + csmSize
  /-- There is at least one entry. -/
  pos : 0 < q.numEntries

/-- A ring in memory, with its history. -/
def RingLayout.view (L : RingLayout) (mem : Csm) (sent recv : List ArcMsg) : Lib.Ring 8 ℕ where
  wptr := mem L.wptr
  rptr := mem L.rptr
  cell i j := if i < L.size then mem (L.addr i j) else 0
  sent := sent
  recv := recv

/-- The request ring of a state. -/
def ArcQueue.reqRing (q : ArcQueue) (s : ArcState) : Lib.Ring 8 ℕ :=
  q.req.view s.mem s.pushed s.taken

/-- The response ring of a state. -/
def ArcQueue.resRing (q : ArcQueue) (s : ArcState) : Lib.Ring 8 ℕ :=
  q.res.view s.mem s.written s.popped

/-- What holds of the rings at each place the driver may stand in. -/
def DriverOk (n : ℕ) (req res : Lib.Ring 8 ℕ) : DriverPc → Prop
  | .pushPoll _ wptr => wptr = req.wptr
  | .pushWrite msg wptr i => wptr = req.wptr ∧ i ≤ 8 ∧ req.Writing n msg i
  | .popPoll rptr => rptr = res.rptr
  | .popLoad rptr i msg => rptr = res.rptr ∧ i ≤ 8 ∧ res.Reading i msg
  | _ => True

/-- Both rings are consistent, and each party's unfinished read or write is of the
right message in the right cell. -/
structure RingsInv (n : ℕ) (requests responses : Lib.Ring 8 ℕ) (pc : DriverPc)
    (reading : Option (ℕ × ArcMsg)) (writing : Option (ArcMsg × ℕ)) : Prop where
  /-- The request ring is consistent. -/
  req : requests.Ok n
  /-- The response ring is consistent. -/
  res : responses.Ok n
  /-- The driver's unfinished work. -/
  driver : DriverOk n requests responses pc
  /-- The firmware's unfinished read. -/
  reader : ∀ i msg, reading = some (i, msg) → i ≤ 8 ∧ requests.Reading i msg
  /-- The firmware's unfinished write. -/
  writer : ∀ msg i, writing = some (msg, i) → i ≤ 8 ∧ responses.Writing n msg i

/-- The invariant of the queue. -/
def ArcInv (q : ArcQueue) (s : ArcState) : Prop :=
  RingsInv q.numEntries (q.reqRing s) (q.resRing s) s.driver s.reader s.writer

/-- The driver's occupancy tests give no false answer that would make it write to
a full ring or read from an empty one. -/
structure TestsSound (q : ArcQueue) (s : ArcState) : Prop where
  /-- A push that sees space has space. -/
  push : ∀ msg wptr, s.driver = .pushPoll msg wptr →
    pushHasSpace q.numEntries wptr (q.reqRing s).rptr = true →
      (q.reqRing s).unread < q.numEntries
  /-- A pop that sees a response has one. -/
  pop : ∀ rptr, s.driver = .popPoll rptr →
    popHasResponse q.numEntries (q.resRing s).wptr rptr = true → 0 < (q.resRing s).unread

section Access

variable {q : ArcQueue}

/-- An address of the queue is inside CSM and is not truncated. -/
theorem ArcQueue.InCsm.access (hq : q.InCsm) (mem : Csm) {a : ℕ} (hlo : q.base ≤ a)
    (hhi : a + 4 ≤ q.base + entrySize + 2 * (q.numEntries * entrySize)) :
    u32 a = a ∧ ttBhCsmRead32 mem a = some (mem a) ∧
      ∀ value, ttBhCsmWrite32 mem a value = some (Function.update mem a value) := by
  have h₁ := hq.lo
  have h₂ := hq.hi
  have hrange : ¬(a < csmBase ∨ a > csmBase + csmSize - 4) := by omega
  refine ⟨?_, ?_, ?_⟩
  · unfold u32
    unfold csmBase csmSize at h₂
    omega
  · unfold ttBhCsmRead32
    rw [if_neg hrange]
  · intro value
    unfold ttBhCsmWrite32
    rw [if_neg hrange]

/-- A header word is read. -/
theorem ArcQueue.InCsm.read_header (hq : q.InCsm) (mem : Csm) {off : ℕ}
    (hoff : off + 4 ≤ entrySize) :
    ttBhCsmRead32 mem (u32 (q.base + off)) = some (mem (q.base + off)) := by
  obtain ⟨hu, hr, _⟩ := hq.access mem (a := q.base + off) (by omega) (by omega)
  rw [hu, hr]

/-- A header word is written. -/
theorem ArcQueue.InCsm.write_header (hq : q.InCsm) (mem : Csm) (value : ℕ) {off : ℕ}
    (hoff : off + 4 ≤ entrySize) :
    ttBhCsmWrite32 mem (u32 (q.base + off)) value =
      some (Function.update mem (q.base + off) value) := by
  obtain ⟨hu, _, hw⟩ := hq.access mem (a := q.base + off) (by omega) (by omega)
  rw [hu, hw]

/-- A word of a request entry is written. -/
theorem ArcQueue.InCsm.write_req (hq : q.InCsm) (mem : Csm) (wptr value : ℕ) {i : ℕ} (hi : i < 8) :
    ttBhCsmWrite32 mem
        (u32 (u32 (q.base + entrySize) + wptr % q.numEntries * entrySize + i * 4)) value =
      some (Function.update mem (q.req.addr (wptr % q.numEntries) i) value) := by
  have hslot : wptr % q.numEntries < q.numEntries := Nat.mod_lt _ hq.pos
  unfold RingLayout.addr ArcQueue.req
  unfold entrySize
  obtain ⟨hu, _⟩ := hq.access mem (a := q.base + 32) (by omega) (by unfold entrySize; omega)
  obtain ⟨hu', _, hw⟩ := hq.access mem
    (a := q.base + 32 + wptr % q.numEntries * 32 + i * 4) (by omega) (by unfold entrySize; omega)
  rw [hu, hu', hw]

/-- A word of a response entry is read. -/
theorem ArcQueue.InCsm.read_res (hq : q.InCsm) (mem : Csm) (rptr : ℕ) {i : ℕ} (hi : i < 8) :
    ttBhCsmRead32 mem
        (u32 (u32 (u32 (q.base + entrySize + q.numEntries * entrySize) +
          rptr % q.numEntries * entrySize) + i * 4)) =
      some (mem (q.res.addr (rptr % q.numEntries) i)) := by
  have hslot : rptr % q.numEntries < q.numEntries := Nat.mod_lt _ hq.pos
  unfold RingLayout.addr ArcQueue.res
  unfold entrySize
  obtain ⟨hu, _⟩ := hq.access mem (a := q.base + 32 + q.numEntries * 32) (by omega)
    (by unfold entrySize; omega)
  obtain ⟨hu', _⟩ := hq.access mem
    (a := q.base + 32 + q.numEntries * 32 + rptr % q.numEntries * 32) (by omega)
    (by unfold entrySize; omega)
  obtain ⟨hu'', hr, _⟩ := hq.access mem
    (a := q.base + 32 + q.numEntries * 32 + rptr % q.numEntries * 32 + i * 4) (by omega)
    (by unfold entrySize; omega)
  rw [hu, hu', hu'', hr]

end Access

section Layout

variable {L L' : RingLayout} {mem : Csm} {sent recv : List ArcMsg}

/-- The addresses of a ring. -/
def RingLayout.Has (L : RingLayout) (a : ℕ) : Prop :=
  a = L.wptr ∨ a = L.rptr ∨ ∃ slot < L.size, ∃ j : Fin 8, a = L.addr slot j

/-- The pointers of a ring are two words below its entries. -/
structure RingLayout.Wf (L : RingLayout) : Prop where
  /-- The producer's pointer is below the entries. -/
  wptr_lt : L.wptr < L.entries
  /-- The consumer's pointer is below the entries. -/
  rptr_lt : L.rptr < L.entries
  /-- The pointers are different words. -/
  ne : L.wptr ≠ L.rptr

/-- Two words of a ring share an address only if they are the same. -/
theorem RingLayout.addr_inj {i i' : ℕ} {j j' : Fin 8} (h : L.addr i j = L.addr i' j') :
    i = i' ∧ j = j' := by
  unfold RingLayout.addr entrySize at h
  constructor
  · omega
  · apply Fin.ext
    omega

/-- A write elsewhere leaves a ring alone. -/
theorem RingLayout.view_frame {a : ℕ} (ha : ¬L.Has a) (v : ℕ) :
    L.view (Function.update mem a v) sent recv = L.view mem sent recv := by
  have hframe : ∀ b, L.Has b → Function.update mem a v b = mem b := by
    intro b hb
    apply Function.update_of_ne
    rintro rfl
    exact ha hb
  refine Lib.Ring.ext (hframe _ (Or.inl rfl)) (hframe _ (Or.inr (Or.inl rfl))) ?_ rfl rfl
  funext i j
  simp only [RingLayout.view]
  split
  · exact hframe _ (Or.inr (Or.inr ⟨i, ‹_›, j, rfl⟩))
  · rfl

/-- The write of one word of the entry at the producer's pointer. -/
theorem RingLayout.view_store (hL : L.Wf) (hpos : 0 < L.size) (j : Fin 8) (v : ℕ) :
    L.view (Function.update mem (L.addr (mem L.wptr % L.size) j) v) sent recv =
      (L.view mem sent recv).store L.size j v := by
  have hslot := Nat.mod_lt (mem L.wptr) hpos
  have hw := hL.wptr_lt
  have hr := hL.rptr_lt
  refine Lib.Ring.ext ?_ ?_ ?_ rfl rfl
  · apply Function.update_of_ne
    unfold RingLayout.addr
    omega
  · apply Function.update_of_ne
    unfold RingLayout.addr
    omega
  · funext i' j'
    simp only [Lib.Ring.store, RingLayout.view]
    by_cases hi : i' = mem L.wptr % L.size
    · rw [hi, Function.update_self, if_pos hslot]
      by_cases hj : j' = j
      · rw [hj, Function.update_self, Function.update_self]
      · rw [Function.update_of_ne hj, if_pos hslot]
        exact Function.update_of_ne (fun h => hj (RingLayout.addr_inj h).2) _ _
    · rw [Function.update_of_ne hi]
      split
      · exact Function.update_of_ne (fun h => hi (RingLayout.addr_inj h).1) _ _
      · rfl

/-- The write of the producer's pointer. -/
theorem RingLayout.view_publish (hL : L.Wf) (msg : ArcMsg) :
    L.view (Function.update mem L.wptr ((mem L.wptr + 1) % (2 * L.size))) (sent ++ [msg]) recv =
      (L.view mem sent recv).publish L.size msg := by
  have hw := hL.wptr_lt
  refine Lib.Ring.ext (Function.update_self _ _ _) (Function.update_of_ne hL.ne.symm _ _) ?_ rfl rfl
  funext i j
  simp only [RingLayout.view, Lib.Ring.publish]
  split
  · apply Function.update_of_ne
    unfold RingLayout.addr
    omega
  · rfl

/-- The write of the consumer's pointer. -/
theorem RingLayout.view_take (hL : L.Wf) (msg : ArcMsg) :
    L.view (Function.update mem L.rptr ((mem L.rptr + 1) % (2 * L.size))) sent (recv ++ [msg]) =
      (L.view mem sent recv).take L.size msg := by
  have hr := hL.rptr_lt
  refine Lib.Ring.ext (Function.update_of_ne hL.ne _ _) (Function.update_self _ _ _) ?_ rfl rfl
  funext i j
  simp only [RingLayout.view, Lib.Ring.take]
  split
  · apply Function.update_of_ne
    unfold RingLayout.addr
    omega
  · rfl

/-- The word a consumer reads from the entry at its pointer. -/
theorem RingLayout.view_cell (hpos : 0 < L.size) (j : Fin 8) :
    mem (L.addr (mem L.rptr % L.size) j) =
      (L.view mem sent recv).cell ((L.view mem sent recv).rptr % L.size) j := by
  simp only [RingLayout.view]
  rw [if_pos (Nat.mod_lt _ hpos)]

/-- The request ring is laid out properly. -/
theorem ArcQueue.req_wf (q : ArcQueue) : q.req.Wf := by
  constructor <;> simp only [ArcQueue.req, reqWptr, reqRptr, entrySize] <;> omega

/-- The response ring is laid out properly. -/
theorem ArcQueue.res_wf (q : ArcQueue) : q.res.Wf := by
  constructor <;> simp only [ArcQueue.res, resWptr, resRptr, entrySize] <;> omega

/-- The two rings have no address in common. -/
theorem ArcQueue.not_has_both (q : ArcQueue) {a : ℕ} (hreq : q.req.Has a) : ¬q.res.Has a := by
  intro hres
  simp only [RingLayout.Has, RingLayout.addr, ArcQueue.req, ArcQueue.res, reqWptr, reqRptr,
    resWptr, resRptr, entrySize] at hreq hres
  rcases hreq with rfl | rfl | ⟨slot, hslot, j, rfl⟩ <;>
    rcases hres with h | h | ⟨slot', hslot', j', h⟩ <;> omega

end Layout

/-- What the next CSM access of the driver can do when the queue lies inside CSM. -/
inductive DriverMove (q : ArcQueue) (s : ArcState) : ArcState → Prop
  /-- The call gives up. -/
  | fail : DriverMove q s (s.ret .failed)
  /-- A waiting loop goes round again. -/
  | wait : DriverMove q s s
  /-- A push has read `REQ_WPTR`. -/
  | pushBegin (msg : ArcMsg) (h : s.driver = .pushStart msg) :
      DriverMove q s (s.goto (.pushPoll msg (q.reqRing s).wptr))
  /-- A push has seen space. -/
  | pushSpace (msg : ArcMsg) (wptr : ℕ) (h : s.driver = .pushPoll msg wptr)
      (htest : pushHasSpace q.numEntries wptr (q.reqRing s).rptr = true) :
      DriverMove q s (s.goto (.pushWrite msg wptr 0))
  /-- A push writes one word. -/
  | pushWord (msg : ArcMsg) (wptr i : ℕ) (h : s.driver = .pushWrite msg wptr i) (hi : i < 8) :
      DriverMove q s { s with
        mem := Function.update s.mem (q.req.addr (wptr % q.numEntries) i) (msg ⟨i, hi⟩),
        driver := .pushWrite msg wptr (i + 1) }
  /-- A push publishes its message. -/
  | pushDone (msg : ArcMsg) (wptr i : ℕ) (h : s.driver = .pushWrite msg wptr i) (hi : ¬i < 8) :
      DriverMove q s { s with
        mem := Function.update s.mem q.req.wptr ((wptr + 1) % (2 * q.numEntries)),
        driver := .returned .pushed, pushed := s.pushed ++ [msg] }
  /-- A pop has read `RES_RPTR`. -/
  | popBegin (h : s.driver = .popStart) :
      DriverMove q s (s.goto (.popPoll (q.resRing s).rptr))
  /-- A pop has seen a response. -/
  | popSome (rptr : ℕ) (h : s.driver = .popPoll rptr)
      (htest : popHasResponse q.numEntries (q.resRing s).wptr rptr = true) :
      DriverMove q s (s.goto (.popLoad rptr 0 fun _ => 0))
  /-- A pop reads one word. -/
  | popWord (rptr i : ℕ) (msg : ArcMsg) (h : s.driver = .popLoad rptr i msg) (hi : i < 8) :
      DriverMove q s (s.goto (.popLoad rptr (i + 1)
        (Function.update msg ⟨i, hi⟩ (s.mem (q.res.addr (rptr % q.numEntries) i)))))
  /-- A pop advances past its message. -/
  | popDone (rptr i : ℕ) (msg : ArcMsg) (h : s.driver = .popLoad rptr i msg) (hi : ¬i < 8) :
      DriverMove q s { s with
        mem := Function.update s.mem q.res.rptr ((rptr + 1) % (2 * q.numEntries)),
        driver := .returned (.popped msg), popped := s.popped ++ [msg] }

/-- The moves are all a driver step can do. -/
theorem driverStep_move {q : ArcQueue} (hq : q.InCsm) {timeout : Bool} {s t : ArcState}
    (h : driverStep q timeout s = some t) : DriverMove q s t := by
  unfold driverStep at h
  have hheader : ∀ off, off ∈ [reqWptr, reqRptr, resWptr, resRptr] → off + 4 ≤ entrySize := by
    decide
  cases hpc : s.driver with
  | returned r => simp [hpc] at h
  | pushStart msg =>
    simp only [hpc, hq.read_header s.mem (hheader reqWptr (by decide))] at h
    split at h <;> cases h
    · exact .fail
    · exact .pushBegin msg hpc
  | pushPoll msg wptr =>
    simp only [hpc, hq.read_header s.mem (hheader reqRptr (by decide))] at h
    split at h
    · cases h
      exact .fail
    · split at h
      · cases h
        exact .pushSpace msg wptr hpc ‹_›
      · split at h <;> cases h
        · exact .fail
        · exact .wait
  | pushWrite msg wptr i =>
    simp only [hpc] at h
    split at h
    · rename_i hi
      simp only [hq.write_req s.mem wptr _ hi, Option.some.injEq] at h
      subst h
      exact .pushWord msg wptr i hpc hi
    · rename_i hi
      simp only [hq.write_header s.mem _ (hheader reqWptr (by decide)), Option.some.injEq] at h
      subst h
      exact .pushDone msg wptr i hpc hi
  | popStart =>
    simp only [hpc, hq.read_header s.mem (hheader resRptr (by decide))] at h
    split at h <;> cases h
    · exact .fail
    · exact .popBegin hpc
  | popPoll rptr =>
    simp only [hpc, hq.read_header s.mem (hheader resWptr (by decide))] at h
    split at h
    · cases h
      exact .fail
    · split at h
      · cases h
        exact .popSome rptr hpc ‹_›
      · split at h <;> cases h
        · exact .fail
        · exact .wait
  | popLoad rptr i msg =>
    simp only [hpc] at h
    split at h
    · rename_i hi
      simp only [hq.read_res s.mem rptr hi, Option.some.injEq] at h
      subst h
      exact .popWord rptr i msg hpc hi
    · rename_i hi
      simp only [hq.write_header s.mem _ (hheader resRptr (by decide)), Option.some.injEq] at h
      subst h
      exact .popDone rptr i msg hpc hi

section Rings

variable {n : ℕ} {req res : Lib.Ring 8 ℕ} {driver : DriverPc} {reader : Option (ℕ × ArcMsg)}
  {writer : Option (ArcMsg × ℕ)}

/-- The driver writes one word of a request. -/
theorem RingsInv.pushWord {msg : ArcMsg} {i : ℕ} (hi : i < 8)
    (h : RingsInv n req res (.pushWrite msg req.wptr i) reader writer) :
    RingsInv n (req.store n ⟨i, hi⟩ (msg ⟨i, hi⟩)) res (.pushWrite msg req.wptr (i + 1))
      reader writer := by
  obtain ⟨_, _, hw⟩ := h.driver
  refine ⟨h.req.store hw.free _ _, h.res, ⟨rfl, by omega, hw.store hi⟩, ?_, h.writer⟩
  intro i' msg' hr
  exact ⟨(h.reader i' msg' hr).1, (h.reader i' msg' hr).2.store _ _ _⟩

/-- The driver publishes a request. -/
theorem RingsInv.pushDone {msg : ArcMsg} {i : ℕ} (hi : ¬i < 8) {r : ArcResult}
    (h : RingsInv n req res (.pushWrite msg req.wptr i) reader writer) :
    RingsInv n (req.publish n msg) res (.returned r) reader writer := by
  obtain ⟨_, hle, hw⟩ := h.driver
  obtain rfl : i = 8 := by omega
  refine ⟨h.req.publish hw, h.res, trivial, ?_, h.writer⟩
  intro i' msg' hr
  exact ⟨(h.reader i' msg' hr).1, (h.reader i' msg' hr).2.publish _ _⟩

/-- The driver reads one word of a response. -/
theorem RingsInv.popWord {msg : ArcMsg} {i : ℕ} (hi : i < 8)
    (h : RingsInv n req res (.popLoad res.rptr i msg) reader writer) :
    RingsInv n req res (.popLoad res.rptr (i + 1)
      (Function.update msg ⟨i, hi⟩ (res.cell (res.rptr % n) ⟨i, hi⟩))) reader writer := by
  obtain ⟨_, _, hr⟩ := h.driver
  exact ⟨h.req, h.res, ⟨rfl, by omega, hr.load h.res hi⟩, h.reader, h.writer⟩

/-- The driver advances past a response. -/
theorem RingsInv.popDone {msg : ArcMsg} {i : ℕ} (hi : ¬i < 8) {r : ArcResult}
    (h : RingsInv n req res (.popLoad res.rptr i msg) reader writer) :
    RingsInv n req (res.take n msg) (.returned r) reader writer := by
  obtain ⟨_, hle, hr⟩ := h.driver
  obtain rfl : i = 8 := by omega
  refine ⟨h.req, h.res.take hr, trivial, h.reader, ?_⟩
  intro msg' i' hw
  exact ⟨(h.writer msg' i' hw).1, (h.writer msg' i' hw).2.take _⟩

/-- The firmware reads one word of a request. -/
theorem RingsInv.fwWord {msg : ArcMsg} {i : ℕ} (hi : i < 8)
    (h : RingsInv n req res driver (some (i, msg)) writer) :
    RingsInv n req res driver (some (i + 1,
      Function.update msg ⟨i, hi⟩ (req.cell (req.rptr % n) ⟨i, hi⟩))) writer := by
  obtain ⟨_, hr⟩ := h.reader i msg rfl
  refine ⟨h.req, h.res, h.driver, ?_, h.writer⟩
  rintro _ _ ⟨⟩
  exact ⟨by omega, hr.load h.req hi⟩

/-- The firmware advances past a request. -/
theorem RingsInv.fwTake {msg : ArcMsg} {i : ℕ} (hi : ¬i < 8)
    (h : RingsInv n req res driver (some (i, msg)) writer) :
    RingsInv n (req.take n msg) res driver none writer := by
  obtain ⟨hle, hr⟩ := h.reader i msg rfl
  obtain rfl : i = 8 := by omega
  refine ⟨h.req.take hr, h.res, ?_, by simp, h.writer⟩
  have hdrv := h.driver
  cases driver with
  | pushWrite msg' wptr i' => exact ⟨hdrv.1, hdrv.2.1, hdrv.2.2.take _⟩
  | _ => exact hdrv

/-- The firmware writes one word of a response. -/
theorem RingsInv.fwStore {msg : ArcMsg} {i : ℕ} (hi : i < 8)
    (h : RingsInv n req res driver reader (some (msg, i))) :
    RingsInv n req (res.store n ⟨i, hi⟩ (msg ⟨i, hi⟩)) driver reader (some (msg, i + 1)) := by
  obtain ⟨_, hw⟩ := h.writer msg i rfl
  refine ⟨h.req, h.res.store hw.free _ _, ?_, h.reader, ?_⟩
  · have hdrv := h.driver
    cases driver with
    | popLoad rptr i' msg' => exact ⟨hdrv.1, hdrv.2.1, hdrv.2.2.store _ _ _⟩
    | _ => exact hdrv
  · rintro _ _ ⟨⟩
    exact ⟨by omega, hw.store hi⟩

/-- The firmware publishes a response. -/
theorem RingsInv.fwPublish {msg : ArcMsg} {i : ℕ} (hi : ¬i < 8)
    (h : RingsInv n req res driver reader (some (msg, i))) :
    RingsInv n req (res.publish n msg) driver reader none := by
  obtain ⟨hle, hw⟩ := h.writer msg i rfl
  obtain rfl : i = 8 := by omega
  refine ⟨h.req, h.res.publish hw, ?_, h.reader, by simp⟩
  have hdrv := h.driver
  cases driver with
  | popLoad rptr i' msg' => exact ⟨hdrv.1, hdrv.2.1, hdrv.2.2.publish _ _⟩
  | _ => exact hdrv

end Rings

section Invariant

variable {q : ArcQueue} {s t : ArcState}

/-- The invariant of a state from what a step made of the two rings. -/
theorem ArcInv.of_rings {requests responses : Lib.Ring 8 ℕ} (hreq : q.reqRing t = requests)
    (hres : q.resRing t = responses)
    (h : RingsInv q.numEntries requests responses t.driver t.reader t.writer) : ArcInv q t := by
  unfold ArcInv
  rw [hreq, hres]
  exact h

/-- The response ring after a write to the request ring. -/
theorem ArcQueue.res_frame {a : ℕ} (ha : q.req.Has a) (v : ℕ) :
    q.res.view (Function.update s.mem a v) s.written s.popped = q.resRing s :=
  RingLayout.view_frame (q.not_has_both ha) v

/-- The request ring after a write to the response ring. -/
theorem ArcQueue.req_frame {a : ℕ} (ha : q.res.Has a) (v : ℕ) :
    q.req.view (Function.update s.mem a v) s.pushed s.taken = q.reqRing s :=
  RingLayout.view_frame (fun h => q.not_has_both h ha) v

/-- The entry a reduced pointer selects belongs to its ring. -/
theorem ArcQueue.InCsm.req_has (hq : q.InCsm) (p i : ℕ) (hi : i < 8) :
    q.req.Has (q.req.addr (p % q.numEntries) i) :=
  Or.inr (Or.inr ⟨_, Nat.mod_lt p hq.pos, ⟨i, hi⟩, rfl⟩)

/-- The entry a reduced pointer selects belongs to its ring. -/
theorem ArcQueue.InCsm.res_has (hq : q.InCsm) (p i : ℕ) (hi : i < 8) :
    q.res.Has (q.res.addr (p % q.numEntries) i) :=
  Or.inr (Or.inr ⟨_, Nat.mod_lt p hq.pos, ⟨i, hi⟩, rfl⟩)

/-- A move of the driver keeps the invariant where its tests are sound. -/
theorem ArcInv.driverMove (hq : q.InCsm) (hinv : ArcInv q s) (hsound : TestsSound q s)
    (hmove : DriverMove q s t) : ArcInv q t := by
  unfold ArcInv at hinv
  cases hmove with
  | fail => exact ⟨hinv.req, hinv.res, trivial, hinv.reader, hinv.writer⟩
  | wait => exact hinv
  | pushBegin msg h => exact ⟨hinv.req, hinv.res, rfl, hinv.reader, hinv.writer⟩
  | pushSpace msg wptr h htest =>
    rw [h] at hinv
    refine ⟨hinv.req, hinv.res, ⟨hinv.driver, by omega, ?_⟩, hinv.reader, hinv.writer⟩
    exact Lib.Ring.Writing.start (hsound.push msg wptr h htest) msg
  | pushWord msg wptr i h hi =>
    rw [h] at hinv
    obtain ⟨rfl, _⟩ := hinv.driver
    exact .of_rings (RingLayout.view_store q.req_wf hq.pos ⟨i, hi⟩ _)
      (ArcQueue.res_frame (hq.req_has _ i hi) _) (hinv.pushWord hi)
  | pushDone msg wptr i h hi =>
    rw [h] at hinv
    obtain ⟨rfl, _⟩ := hinv.driver
    exact .of_rings (RingLayout.view_publish q.req_wf msg)
      (ArcQueue.res_frame (Or.inl rfl) _) (hinv.pushDone hi)
  | popBegin h => exact ⟨hinv.req, hinv.res, rfl, hinv.reader, hinv.writer⟩
  | popSome rptr h htest =>
    rw [h] at hinv
    refine ⟨hinv.req, hinv.res, ⟨hinv.driver, by omega, ?_⟩, hinv.reader, hinv.writer⟩
    exact Lib.Ring.Reading.start (hsound.pop rptr h htest) _
  | popWord rptr i msg h hi =>
    rw [h] at hinv
    obtain ⟨rfl, _⟩ := hinv.driver
    have hstep := hinv.popWord hi
    rw [show (q.resRing s).cell ((q.resRing s).rptr % q.numEntries) ⟨i, hi⟩ = _ from
      (RingLayout.view_cell hq.pos ⟨i, hi⟩).symm] at hstep
    exact hstep
  | popDone rptr i msg h hi =>
    rw [h] at hinv
    obtain ⟨rfl, _⟩ := hinv.driver
    exact .of_rings (ArcQueue.req_frame (Or.inr (Or.inl rfl)) _)
      (RingLayout.view_take q.res_wf msg) (hinv.popDone hi)

/-- A step of the firmware on the request ring keeps the invariant. -/
theorem ArcInv.fwReadStep (hq : q.InCsm) (hinv : ArcInv q s) (h : fwReadStep q s = some t) :
    ArcInv q t := by
  unfold ArcInv at hinv
  unfold TtKmd.fwReadStep at h
  cases hrd : s.reader with
  | none =>
    simp only [hrd] at h
    split at h
    · rename_i hlt
      cases h
      refine ⟨hinv.req, hinv.res, hinv.driver, ?_, hinv.writer⟩
      rintro _ _ ⟨⟩
      exact ⟨by omega, Lib.Ring.Reading.start (Nat.sub_pos_of_lt hlt) _⟩
    · cases h
  | some p =>
    obtain ⟨i, msg⟩ := p
    simp only [hrd] at h
    rw [hrd] at hinv
    split at h
    · rename_i hi
      cases h
      have hstep := hinv.fwWord hi
      rw [show (q.reqRing s).cell ((q.reqRing s).rptr % q.numEntries) ⟨i, hi⟩ = _ from
        (RingLayout.view_cell hq.pos ⟨i, hi⟩).symm] at hstep
      exact hstep
    · rename_i hi
      cases h
      exact .of_rings (RingLayout.view_take q.req_wf msg)
        (ArcQueue.res_frame (Or.inr (Or.inl rfl)) _) (hinv.fwTake hi)

/-- A step of the firmware on the response ring keeps the invariant. -/
theorem ArcInv.fwWriteStep (hq : q.InCsm) (hinv : ArcInv q s) (h : fwWriteStep q s = some t) :
    ArcInv q t := by
  unfold ArcInv at hinv
  unfold TtKmd.fwWriteStep at h
  cases hwr : s.writer with
  | none => simp [hwr] at h
  | some p =>
    obtain ⟨msg, i⟩ := p
    simp only [hwr] at h
    rw [hwr] at hinv
    split at h
    · rename_i hi
      cases h
      exact .of_rings (ArcQueue.req_frame (hq.res_has _ i hi) _)
        (RingLayout.view_store q.res_wf hq.pos ⟨i, hi⟩ _) (hinv.fwStore hi)
    · rename_i hi
      cases h
      exact .of_rings (ArcQueue.req_frame (Or.inl rfl) _)
        (RingLayout.view_publish q.res_wf msg) (hinv.fwPublish hi)

/-- Every step from a state in which the driver's tests are sound keeps the
invariant. -/
theorem ArcInv.step (hq : q.InCsm) (hinv : ArcInv q s) (hsound : TestsSound q s) {e : ArcEvent}
    (h : ArcStep q s e t) : ArcInv q t := by
  unfold ArcStep partialGraph at h
  cases e with
  | startPush msg =>
    simp only [arcNext] at h
    split at h <;> cases h
    exact ⟨hinv.req, hinv.res, trivial, hinv.reader, hinv.writer⟩
  | startPop =>
    simp only [arcNext] at h
    split at h <;> cases h
    exact ⟨hinv.req, hinv.res, trivial, hinv.reader, hinv.writer⟩
  | driver timeout => exact hinv.driverMove hq hsound (driverStep_move hq h)
  | fwRead => exact hinv.fwReadStep hq h
  | fwWriteStart msg =>
    simp only [arcNext] at h
    split at h
    · rename_i hg
      cases h
      refine ⟨hinv.req, hinv.res, hinv.driver, hinv.reader, ?_⟩
      rintro _ _ ⟨⟩
      exact ⟨by omega, Lib.Ring.Writing.start hg.2 _⟩
    · cases h
  | fwWrite => exact hinv.fwWriteStep hq h

end Invariant

end TtKmd
