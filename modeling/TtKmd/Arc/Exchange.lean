import TtKmd.Lib.Program
import TtKmd.Arc.Correlation
import TtKmd.Arc.Telemetry

/-!
# One exchange with the ARC

`TtBhSendArcMessage` as a whole, against firmware that may answer every read with anything: the
ready gate, the discovery of the queue, `TtBhArcMsgPush`, the doorbell and `TtBhArcMsgPop`. The
three loops poll until a deadline of the interrupt time.

Whatever the firmware answers, the call returns, it accesses nothing but three registers of the
ARC tile and CSM, and its writes are those of the protocol in their order, up to the place where
it has stopped.
-/

namespace TtKmd

open Lib

/-! ## The program -/

/-- `TT_BH_RESET_SCRATCH`. -/
def resetScratchAddr (n : ℕ) : ℕ := 0x80030400 + n * 4

/-- `TT_BH_ARC_BOOT_STATUS`. -/
def arcBootStatus : ℕ := resetScratchAddr 2

/-- `TT_BH_ARC_MSG_QCB_PTR`. -/
def arcMsgQcbPtr : ℕ := resetScratchAddr 11

/-- `TT_BH_ARC_MSI_FIFO`. -/
def arcMsiFifo : ℕ := 0x800B0000

/-- `TT_ARC_MSG_TIMEOUT_MS`. -/
def arcMsgTimeoutMs : ℕ := 1000

/-- `TT_ARC_MSG_READY_MS`. -/
def arcMsgReadyMs : ℕ := 500

/-- The ARC tile, reached through the NOC, and the clock. -/
structure ArcEnv (σ : Type) where
  /-- A read of the tile. -/
  read : σ → ℕ → ℕ × σ
  /-- A write to the tile. -/
  write : σ → ℕ → ℕ → σ
  /-- `KeQueryInterruptTime`, in units of 100 ns. -/
  interruptTime : σ → ℕ × σ
  /-- `TtBhPollDelay`. -/
  delay : σ → σ

/-- An access to the ARC tile, with the value that was read or written. -/
inductive ArcAccess
  | read (addr value : ℕ)
  | write (addr value : ℕ)
  deriving DecidableEq

/-- The address of an access. -/
def ArcAccess.addr : ArcAccess → ℕ
  | .read a _ => a
  | .write a _ => a

/-- The environment, the accesses so far and the message of the caller. -/
structure ArcWorld (σ : Type) where
  /-- The tile and the clock. -/
  env : σ
  /-- The accesses, in their order. -/
  log : List ArcAccess
  /-- `Msg`. -/
  msg : ArcMsg

section Program

variable {σ : Type} (E : ArcEnv σ)

/-- `TtBhNocRead32` of the ARC tile. -/
def arcRead (addr : ℕ) : Program (ArcWorld σ) ℕ :=
  .step fun w =>
    let value := u32 (E.read w.env addr).1
    (value, { w with env := (E.read w.env addr).2, log := w.log ++ [.read addr value] })

/-- `TtBhNocWrite32` of the ARC tile. -/
def arcWrite (addr value : ℕ) : Program (ArcWorld σ) Unit :=
  .step fun w =>
    ((), { w with env := E.write w.env addr value, log := w.log ++ [.write addr value] })

/-- `TtBhCsmRead32`; every caller here returns on a range violation. -/
def csmRead (addr : ℕ) : Program (ArcWorld σ) ℕ :=
  if addr < csmBase ∨ addr > csmBase + csmSize - 4 then .stop else arcRead E addr

/-- `TtBhCsmWrite32`; every caller here returns on a range violation. -/
def csmWrite (addr value : ℕ) : Program (ArcWorld σ) Unit :=
  if addr < csmBase ∨ addr > csmBase + csmSize - 4 then .stop else arcWrite E addr value

/-- `KeQueryInterruptTime`. -/
def keQueryInterruptTime : Program (ArcWorld σ) ℕ :=
  .step fun w => ((E.interruptTime w.env).1, { w with env := (E.interruptTime w.env).2 })

/-- `TtBhDeadline`. -/
def ttBhDeadline (milliseconds : ℕ) : Program (ArcWorld σ) ℕ := do
  let now ← keQueryInterruptTime E
  pure (now + milliseconds * 10000)

/-- `TtBhPollDelay`. -/
def ttBhPollDelay : Program (ArcWorld σ) Unit :=
  .step fun w => ((), { w with env := E.delay w.env })

/-- A loop that polls until a deadline. -/
def arcPoll (fuel : ℕ) (read : Program (ArcWorld σ) ℕ) (accept : ℕ → Bool) (deadline : ℕ) :
    Program (ArcWorld σ) ℕ :=
  .pollUntil read
    (fun value => if value = maxUlong then .abort else if accept value then .accept else .wait)
    (keQueryInterruptTime E) (ttBhPollDelay E) deadline fuel

/-- The address of word `i` of a slot of the request ring. -/
def requestAddr (q : ArcQueue) (wptr i : ℕ) : ℕ :=
  u32 (u32 (q.base + entrySize) + wptr % q.numEntries * entrySize + i * 4)

/-- The address of word `i` of a slot of the response ring. -/
def responseAddr (q : ArcQueue) (rptr i : ℕ) : ℕ :=
  u32 (u32 (u32 (q.base + entrySize + q.numEntries * entrySize) +
    rptr % q.numEntries * entrySize) + i * 4)

/-- The caller's message is replaced. -/
def setMsg (f : ArcMsg → ArcMsg) : Program (ArcWorld σ) Unit :=
  .step fun w => ((), { w with msg := f w.msg })

/-- The caller's message. -/
def getMsg : Program (ArcWorld σ) ArcMsg := .step fun w => (w.msg, w)

/-- `TtBhArcMsgPush`; it stops where the source returns `FALSE`. -/
def ttBhArcMsgPush (fuel : ℕ) (q : ArcQueue) : Program (ArcWorld σ) Unit := do
  let wptr ← csmRead E (u32 (q.base + reqWptr))
  if wptr = maxUlong then .stop
  else do
    let deadline ← ttBhDeadline E arcMsgTimeoutMs
    let _ ← arcPoll E fuel (csmRead E (u32 (q.base + reqRptr)))
      (pushHasSpace q.numEntries wptr) deadline
    let msg ← getMsg
    Program.forEach (fun i : Fin 8 => csmWrite E (requestAddr q wptr i) (msg i)) (List.finRange 8)
    csmWrite E (u32 (q.base + reqWptr)) ((wptr + 1) % (2 * q.numEntries))

/-- `TtBhArcMsgPop`; it stops where the source returns `FALSE`. -/
def ttBhArcMsgPop (fuel : ℕ) (q : ArcQueue) : Program (ArcWorld σ) Unit := do
  setMsg fun _ _ => 0
  let rptr ← csmRead E (u32 (q.base + resRptr))
  if rptr = maxUlong then .stop
  else do
    let deadline ← ttBhDeadline E arcMsgTimeoutMs
    let _ ← arcPoll E fuel (csmRead E (u32 (q.base + resWptr)))
      (fun wptr => popHasResponse q.numEntries wptr rptr) deadline
    Program.forEach (fun i : Fin 8 => do
      let value ← csmRead E (responseAddr q rptr i)
      setMsg fun msg => Function.update msg i value) (List.finRange 8)
    csmWrite E (u32 (q.base + resRptr)) ((rptr + 1) % (2 * q.numEntries))

/-- `TtBhSendArcMessage` up to `out`, with `ArcMsgLock` held. -/
def ttBhSendArcMessageBody (fuel : ℕ) : Program (ArcWorld σ) Unit := do
  let deadline ← ttBhDeadline E arcMsgReadyMs
  -- a status that is not ready at the deadline fails the test behind the loop
  let _ ← arcPoll E fuel (arcRead E arcBootStatus) (fun status => status &&& 1 ≠ 0) deadline
  let queueCtrlAddr ← arcRead E arcMsgQcbPtr
  let queueBase ← csmRead E (u32 (queueCtrlAddr + 0))
  let queueInfo ← csmRead E (u32 (queueCtrlAddr + 4))
  match discoverQueue queueBase queueInfo with
  | none => .stop
  | some q => do
      ttBhArcMsgPush E fuel q
      arcWrite E arcMsiFifo 0
      ttBhArcMsgPop E fuel q

/-- `TtBhSendArcMessage`: `ok` is set behind the pop, from the header of the response. -/
def ttBhSendArcMessage (fuel : ℕ) : Program (ArcWorld σ) Bool := do
  let answered ← (ttBhSendArcMessageBody E fuel).attempt
  let msg ← getMsg
  pure (answered.isSome && msg ⟨0, by decide⟩ == 0)

end Program

/-! ## What an exchange is -/

/-- The writes among some accesses. -/
def arcWrites (log : List ArcAccess) : List (ℕ × ℕ) :=
  log.filterMap fun a =>
    match a with
    | .write addr value => some (addr, value)
    | .read .. => none

/-- The writes of the words of a request. -/
def requestWrites (q : ArcQueue) (msg : ArcMsg) (wptr : ℕ) : List (ℕ × ℕ) :=
  (List.finRange 8).map fun i => (requestAddr q wptr i.val, msg i)

/-- All writes of an exchange, in their order: the words of the request, its publication, the
doorbell, and the release of the response. -/
def exchangeWrites (q : ArcQueue) (msg : ArcMsg) (wptr rptr : ℕ) : List (ℕ × ℕ) :=
  requestWrites q msg wptr ++
    [(u32 (q.base + reqWptr), (wptr + 1) % (2 * q.numEntries)), (arcMsiFifo, 0),
      (u32 (q.base + resRptr), (rptr + 1) % (2 * q.numEntries))]

/-- The addresses that an exchange may access. -/
def ArcReach (addr : ℕ) : Prop :=
  addr = arcBootStatus ∨ addr = arcMsgQcbPtr ∨ addr = arcMsiFifo ∨ InCsm addr

/-- The polls of the ready gate. -/
def readyRounds : ℕ := arcMsgReadyMs * 10 + 2

/-- The polls of `TtBhArcMsgPush`, and of `TtBhArcMsgPop`. -/
def timeoutRounds : ℕ := arcMsgTimeoutMs * 10 + 2

/-- The accesses that there is time for. -/
def exchangeAccesses : ℕ := readyRounds + 2 * timeoutRounds + 24

/-- The queue is the one that the firmware describes. -/
def QueueSeen (q : ArcQueue) (log : List ArcAccess) : Prop :=
  ∃ ctrl info, .read arcMsgQcbPtr ctrl ∈ log ∧ .read (u32 (ctrl + 0)) q.base ∈ log ∧
    .read (u32 (ctrl + 4)) info ∈ log ∧ discoverQueue q.base info = some q

/-- The slot of a request was seen to be free. -/
def SpaceSeen (q : ArcQueue) (wptr : ℕ) (log : List ArcAccess) : Prop :=
  wptr ≠ maxUlong ∧ .read (u32 (q.base + reqWptr)) wptr ∈ log ∧
    ∃ v, v ≠ maxUlong ∧ .read (u32 (q.base + reqRptr)) v ∈ log ∧ pushHasSpace q.numEntries wptr v

/-- The response in a slot was seen to be there. -/
def ResponseSeen (q : ArcQueue) (rptr : ℕ) (log : List ArcAccess) : Prop :=
  rptr ≠ maxUlong ∧ .read (u32 (q.base + resRptr)) rptr ∈ log ∧
    ∃ v, v ≠ maxUlong ∧ .read (u32 (q.base + resWptr)) v ∈ log ∧ popHasResponse q.numEntries v rptr

/-- What an exchange has read before its first `n` writes. -/
structure Justified (msg : ArcMsg) (q : ArcQueue) (wptr rptr n : ℕ) (log : List ArcAccess)
    (reply : ArcMsg) : Prop where
  /-- There are at most eleven writes, and a published request has its doorbell. -/
  rung : n ≤ 11 ∧ n ≠ 9
  /-- The queue that is written to. -/
  queue : 0 < n → QueueSeen q log
  /-- The slot that is written. -/
  space : 0 < n → SpaceSeen q wptr log
  /-- Before the doorbell the message is the caller's. -/
  untouched : n < 10 → reply = msg
  /-- The response that is released. -/
  response : n = 11 → ResponseSeen q rptr log
  /-- It is the message. -/
  reply : n = 11 → ∀ i : Fin 8, .read (responseAddr q rptr i) (reply i) ∈ log

/-- An exchange of a message that has made its first `n` writes. -/
structure Exchanged (msg : ArcMsg) (q : ArcQueue) (wptr rptr n : ℕ) (log : List ArcAccess)
    (reply : ArcMsg) : Prop where
  /-- The accesses are to the registers and to CSM. -/
  confined : ∀ a ∈ log, ArcReach a.addr
  /-- There are not more accesses than there is time for. -/
  length : log.length ≤ exchangeAccesses
  /-- The writes. -/
  writes : arcWrites log = (exchangeWrites q msg wptr rptr).take n
  /-- The reads before them. -/
  justified : Justified msg q wptr rptr n log reply

/-- The interrupt time does not go back, and a delay takes 100 µs at least. -/
structure ArcEnv.Ticks {σ : Type} (E : ArcEnv σ) (now : σ → ℕ) : Prop where
  /-- A read. -/
  read : ∀ s addr, now s ≤ now (E.read s addr).2
  /-- The clock. -/
  interruptTime : ∀ s, now s ≤ (E.interruptTime s).1 ∧
    (E.interruptTime s).1 ≤ now (E.interruptTime s).2
  /-- A delay. -/
  delay : ∀ s, now s + 1000 ≤ now (E.delay s)

/-! ## The single accesses -/

/-- How far an exchange is: `left` accesses are left, the writes are `ws`, the accesses `seen` are
among those made, and the message is `m`. -/
structure Reached {σ : Type} (left : ℕ) (ws : List (ℕ × ℕ)) (seen : List ArcAccess) (m : ArcMsg)
    (w : ArcWorld σ) : Prop where
  /-- The accesses are to the registers and to CSM. -/
  confined : ∀ a ∈ w.log, ArcReach a.addr
  /-- The accesses that are left. -/
  length : w.log.length + left ≤ exchangeAccesses
  /-- The writes. -/
  writes : arcWrites w.log = ws
  /-- What was read. -/
  seen : ∀ a ∈ seen, a ∈ w.log
  /-- The message. -/
  msg : w.msg = m

section Accesses

variable {σ : Type} {E : ArcEnv σ} {now : σ → ℕ} {left : ℕ} {ws : List (ℕ × ℕ)}
  {seen : List ArcAccess} {m : ArcMsg} {w : ArcWorld σ} {F : ArcWorld σ → Prop} {addr : ℕ}

/-- One more access. -/
theorem Reached.push (h : Reached (left + 1) ws seen m w) (s : σ) {a : ArcAccess}
    (ha : ArcReach a.addr) :
    Reached left (ws ++ arcWrites [a]) (a :: seen) m { w with env := s, log := w.log ++ [a] } where
  confined := by
    intro b hb
    rcases List.mem_append.mp hb with hb | hb
    · exact h.confined b hb
    · rw [List.mem_singleton.mp hb]
      exact ha
  length := by
    have hlength := h.length
    simp only [List.length_append, List.length_singleton]
    omega
  writes := by
    rw [← h.writes]
    exact List.filterMap_append
  seen := by
    intro b hb
    rcases List.mem_cons.mp hb with rfl | hb
    · simp
    · exact List.mem_append_left _ (h.seen b hb)
  msg := h.msg

/-- `TtBhNocRead32`. -/
theorem reached_arcRead (haddr : ArcReach addr) :
    Triple (Reached (left + 1) ws seen m) (arcRead E addr)
      (fun v => Reached left ws (.read addr v :: seen) m) F := by
  apply Triple.step
  intro w h
  have hpush := h.push (E.read w.env addr).2 (a := .read addr (u32 (E.read w.env addr).1)) haddr
  have hwrites : ws ++ arcWrites [.read addr (u32 (E.read w.env addr).1)] = ws :=
    List.append_nil ws
  rwa [hwrites] at hpush

/-- `TtBhNocWrite32`. -/
theorem reached_arcWrite (haddr : ArcReach addr) (value : ℕ) :
    Triple (Reached (left + 1) ws seen m) (arcWrite E addr value)
      (fun _ => Reached left (ws ++ [(addr, value)]) seen m) F := by
  apply Triple.step
  intro w h
  have hpush := h.push (E.write w.env addr value) (a := .write addr value) haddr
  exact ⟨hpush.confined, hpush.length, hpush.writes,
    fun b hb => hpush.seen b (List.mem_cons_of_mem _ hb), hpush.msg⟩

/-- An address that passes the gate is in CSM. -/
theorem arcReach_of_gate (h : ¬(addr < csmBase ∨ addr > csmBase + csmSize - 4)) :
    ArcReach addr := by
  right
  right
  right
  unfold InCsm csmBase csmSize at *
  omega

/-- `TtBhCsmRead32`. -/
theorem reached_csmRead (hF : ∀ w : ArcWorld σ, Reached (left + 1) ws seen m w → F w) :
    Triple (Reached (left + 1) ws seen m) (csmRead E addr)
      (fun v => Reached left ws (.read addr v :: seen) m) F := by
  apply Triple.ite
  · intro _
    exact Triple.stop hF
  · intro hgate
    exact reached_arcRead (arcReach_of_gate hgate)

/-- `TtBhCsmWrite32`. -/
theorem reached_csmWrite (value : ℕ)
    (hF : ∀ w : ArcWorld σ, Reached (left + 1) ws seen m w → F w) :
    Triple (Reached (left + 1) ws seen m) (csmWrite E addr value)
      (fun _ => Reached left (ws ++ [(addr, value)]) seen m) F := by
  apply Triple.ite
  · intro _
    exact Triple.stop hF
  · intro hgate
    exact reached_arcWrite (arcReach_of_gate hgate) value

/-- A step that makes no access. -/
theorem Reached.env (h : Reached left ws seen m w) (s : σ) :
    Reached left ws seen m { w with env := s } :=
  ⟨h.confined, h.length, h.writes, h.seen, h.msg⟩

/-- Fewer accesses are left. -/
theorem Reached.fewer {left' : ℕ} (h : Reached left ws seen m w) (hle : left' ≤ left) :
    Reached left' ws seen m w :=
  ⟨h.confined, (Nat.add_le_add_left hle _).trans h.length, h.writes, h.seen, h.msg⟩

/-- Fewer of the accesses that were made. -/
theorem Reached.forget {seen' : List ArcAccess} (h : Reached left ws seen m w)
    (hsub : seen' ⊆ seen) : Reached left ws seen' m w :=
  ⟨h.confined, h.length, h.writes, fun a ha => h.seen a (hsub ha), h.msg⟩

/-- `TtBhDeadline`. -/
theorem reached_ttBhDeadline (hE : E.Ticks now) (ms : ℕ) :
    Triple (Reached left ws seen m) (ttBhDeadline E ms)
      (fun deadline w => Reached left ws seen m w ∧ deadline ≤ now w.env + ms * 10000) F := by
  have hclock : Triple (Reached left ws seen m) (keQueryInterruptTime E)
      (fun t w => Reached left ws seen m w ∧ t ≤ now w.env) F := by
    apply Triple.step
    intro w h
    exact ⟨h.env _, (hE.interruptTime w.env).2⟩
  apply hclock.bind
  intro t
  apply Triple.pure
  intro w h
  exact ⟨h.1, Nat.add_le_add_right h.2 _⟩

/-- A read does not turn the clock back. -/
theorem later_arcRead (hE : E.Ticks now) (t : ℕ) :
    Triple (fun w => t ≤ now w.env) (arcRead E addr) (fun _ w => t ≤ now w.env) F := by
  apply Triple.step
  intro w h
  exact h.trans (hE.read w.env addr)

/-- A gated read does not turn the clock back. -/
theorem later_csmRead (hE : E.Ticks now) (t : ℕ) :
    Triple (fun w => t ≤ now w.env) (csmRead E addr) (fun _ w => t ≤ now w.env)
      fun _ => True := by
  apply Triple.ite
  · intro _
    exact Triple.stop fun _ _ => trivial
  · intro _
    exact later_arcRead hE t

/-- A polling loop makes one access a round, and ends with the value that it waited for. -/
theorem reached_arcPoll (hE : E.Ticks now) {read : Program (ArcWorld σ) ℕ} {accept : ℕ → Bool}
    {deadline ms fuel : ℕ} (hfuel : ms * 10 + 2 ≤ fuel)
    (hread : ∀ n, Triple (Reached (n + 1) ws seen m) read
      (fun v => Reached n ws (.read addr v :: seen) m) F)
    (hlater : ∀ t, Triple (fun w => t ≤ now w.env) read (fun _ w => t ≤ now w.env) fun _ => True)
    (hF : ∀ n, ∀ w : ArcWorld σ, Reached n ws seen m w → F w) :
    Triple (fun w => Reached (left + (ms * 10 + 2)) ws seen m w ∧
        deadline ≤ now w.env + ms * 10000)
      (arcPoll E fuel read accept deadline)
      (fun v w => Reached left ws (.read addr v :: seen) m w ∧ v ≠ maxUlong ∧ accept v) F := by
  obtain ⟨spare, rfl⟩ := Nat.exists_eq_add_of_le hfuel
  have hrounds : ms * 10 + 2 + spare = ms * 10 + 1 + spare + 1 := by omega
  rw [arcPoll, hrounds]
  have hforget (n : ℕ) (v : ℕ) (w : ArcWorld σ)
      (h : Reached n ws (.read addr v :: seen) m w) : Reached n ws seen m w :=
    h.forget (List.subset_cons_of_subset _ (List.Subset.refl _))
  apply Triple.before
  · apply Triple.pollUntil (fun w => now w.env) 1000
      (fun n => Reached (left + n + 1) ws seen m) (fun n => Reached (left + n) ws seen m)
    · intro n t
      apply ((hread (left + n)).and (hlater t)).weaken fun _ h => h
      · intro v w h
        by_cases hmax : v = maxUlong
        · simp only [if_pos hmax]
          exact hF _ w (hforget _ v w h.1)
        · simp only [if_neg hmax]
          by_cases haccept : accept v = true
          · simp only [if_pos haccept]
            exact ⟨h.1.fewer (Nat.le_add_right _ _), hmax, haccept⟩
          · simp only [if_neg haccept]
            exact ⟨hforget _ v w h.1, h.2⟩
      · exact fun w h => h.1
    · intro n t
      apply Triple.step
      intro w h
      have hclock := hE.interruptTime w.env
      exact ⟨h.1.env _, h.2.trans hclock.1, hclock.2⟩
    · intro n t
      apply Triple.step
      intro w h
      exact ⟨h.1.env _, (Nat.add_le_add_right h.2 _).trans (hE.delay w.env)⟩
    · exact fun n w h => hF _ w h
  · intro w h
    constructor
    · exact h.1
    · have hdeadline := h.2
      show deadline < now w.env + (ms * 10 + 1) * 1000
      omega

end Accesses

/-! ## The exchange -/

section Exchange

variable {σ : Type} {E : ArcEnv σ} {now : σ → ℕ} {left : ℕ} {ws : List (ℕ × ℕ)}
  {seen log : List ArcAccess} {m msg : ArcMsg} {w : ArcWorld σ} {F : ArcWorld σ → Prop}
  {q : ArcQueue} {wptr rptr n fuel : ℕ}

/-- The queue was seen, and more. -/
theorem QueueSeen.mono (h : QueueSeen q seen) (hsub : seen ⊆ log) : QueueSeen q log := by
  obtain ⟨ctrl, info, hctrl, hbase, hinfo, hq⟩ := h
  exact ⟨ctrl, info, hsub hctrl, hsub hbase, hsub hinfo, hq⟩

/-- The space was seen, and more. -/
theorem SpaceSeen.mono (h : SpaceSeen q wptr seen) (hsub : seen ⊆ log) :
    SpaceSeen q wptr log := by
  obtain ⟨hmax, hwptr, v, hv, hread, hspace⟩ := h
  exact ⟨hmax, hsub hwptr, v, hv, hsub hread, hspace⟩

/-- The response was seen, and more. -/
theorem ResponseSeen.mono (h : ResponseSeen q rptr seen) (hsub : seen ⊆ log) :
    ResponseSeen q rptr log := by
  obtain ⟨hmax, hrptr, v, hv, hread, hresponse⟩ := h
  exact ⟨hmax, hsub hrptr, v, hv, hsub hread, hresponse⟩

/-- An exchange, from how far it is. -/
theorem Reached.exchanged (h : Reached left ws seen m w)
    (hws : ws = (exchangeWrites q msg wptr rptr).take n) (hj : Justified msg q wptr rptr n seen m) :
    Exchanged msg q wptr rptr n w.log w.msg where
  confined := h.confined
  length := (Nat.le_add_right _ _).trans h.length
  writes := h.writes.trans hws
  justified := by
    rw [h.msg]
    exact {
      rung := hj.rung
      queue := fun hn => (hj.queue hn).mono h.seen
      space := fun hn => (hj.space hn).mono h.seen
      untouched := hj.untouched
      response := fun hn => (hj.response hn).mono h.seen
      reply := fun hn i => h.seen _ (hj.reply hn i) }

/-- An exchange that has stopped before its last write. -/
def Fails (msg : ArcMsg) (w : ArcWorld σ) : Prop :=
  ∃ q wptr rptr n, n < 11 ∧ Exchanged msg q wptr rptr n w.log w.msg

/-- An exchange that stops before its first write. -/
theorem Reached.fails_first (h : Reached left [] seen msg w) : Fails msg w := by
  refine ⟨⟨0, 0⟩, 0, 0, 0, by decide, h.exchanged rfl ?_⟩
  constructor
  · decide
  · exact fun hn => absurd hn (Nat.lt_irrefl 0)
  · exact fun hn => absurd hn (Nat.lt_irrefl 0)
  · exact fun _ => rfl
  · exact fun hn => absurd hn (by decide)
  · exact fun hn => absurd hn (by decide)

/-- An exchange that stops while it writes a request. -/
theorem Reached.fails_request (h : Reached left (((List.finRange 8).take n).map fun i =>
      (requestAddr q wptr i.val, msg i)) seen msg w) (hn : n ≤ 8) (hqueue : QueueSeen q seen)
    (hspace : SpaceSeen q wptr seen) : Fails msg w := by
  refine ⟨q, wptr, 0, n, by omega, h.exchanged ?_ ?_⟩
  · have hlength : n ≤ (requestWrites q msg wptr).length := by simpa [requestWrites] using hn
    rw [exchangeWrites, List.take_append_of_le_length hlength, requestWrites, List.map_take]
  · constructor
    · omega
    · exact fun _ => hqueue
    · exact fun _ => hspace
    · exact fun _ => rfl
    · exact fun hn => by omega
    · exact fun hn => by omega

/-- The writes up to the doorbell. -/
theorem exchangeWrites_take_ten (q : ArcQueue) (msg : ArcMsg) (wptr rptr : ℕ) :
    (exchangeWrites q msg wptr rptr).take 10 = requestWrites q msg wptr ++
      [(u32 (q.base + reqWptr), (wptr + 1) % (2 * q.numEntries)), (arcMsiFifo, 0)] := by
  have hlength : (requestWrites q msg wptr).length = 8 := by simp [requestWrites]
  simp [exchangeWrites, List.take_append, hlength]

/-- An exchange that stops behind the doorbell. -/
theorem Reached.fails_response (h : Reached left (requestWrites q msg wptr ++
      [(u32 (q.base + reqWptr), (wptr + 1) % (2 * q.numEntries)), (arcMsiFifo, 0)]) seen m w)
    (hqueue : QueueSeen q seen) (hspace : SpaceSeen q wptr seen) : Fails msg w := by
  refine ⟨q, wptr, 0, 10, by decide, h.exchanged (exchangeWrites_take_ten q msg wptr 0).symm ?_⟩
  constructor
  · decide
  · exact fun _ => hqueue
  · exact fun _ => hspace
  · exact fun hn => absurd hn (by decide)
  · exact fun hn => absurd hn (by decide)
  · exact fun hn => absurd hn (by decide)

/-- The words of a request. -/
theorem reached_requestWords (hqueue : QueueSeen q seen) (hspace : SpaceSeen q wptr seen) :
    Triple (Reached (left + 8) [] seen msg)
      (Program.forEach (fun i : Fin 8 => csmWrite E (requestAddr q wptr i) (msg i))
        (List.finRange 8))
      (fun _ => Reached left (requestWrites q msg wptr) seen msg) (Fails msg) := by
  apply Triple.forEach (I := fun done => Reached (left + (8 - done.length))
    (done.map fun i => (requestAddr q wptr i.val, msg i)) seen msg)
  intro done x rest hsplit
  have hdone : done = (List.finRange 8).take done.length := by
    rw [hsplit, List.take_left]
  have hlength : done.length + 1 + rest.length = 8 := by
    have h := congrArg List.length hsplit
    simp only [List.length_finRange, List.length_append, List.length_cons] at h
    omega
  have hleft : left + (8 - done.length) = left + (8 - (done ++ [x]).length) + 1 := by
    rw [List.length_append, List.length_singleton]
    omega
  rw [hleft, List.map_append]
  apply reached_csmWrite
  intro w h
  rw [hdone] at h
  exact h.fails_request (by omega) hqueue hspace

/-- The caller's message. -/
theorem reached_getMsg : Triple (Reached left ws seen m) (getMsg (σ := σ))
    (fun m' w => Reached left ws seen m w ∧ m = m') F :=
  Triple.step fun _ h => ⟨h, h.msg.symm⟩

/-- `TtBhArcMsgPush` writes and publishes the request, in a slot that it has seen to be free. -/
theorem reached_ttBhArcMsgPush (hE : E.Ticks now) (hfuel : timeoutRounds ≤ fuel)
    (hqueue : QueueSeen q seen) :
    Triple (Reached (left + timeoutRounds + 10) [] seen msg) (ttBhArcMsgPush E fuel q)
      (fun _ w => ∃ wptr seen', Reached left (requestWrites q msg wptr ++
          [(u32 (q.base + reqWptr), (wptr + 1) % (2 * q.numEntries))]) seen' msg w ∧
        seen ⊆ seen' ∧ SpaceSeen q wptr seen')
      (Fails msg) := by
  unfold ttBhArcMsgPush
  apply Triple.bind (reached_csmRead fun w h => h.fails_first)
  intro wptr
  apply Triple.ite
  · intro _
    exact Triple.stop fun w h => h.fails_first
  intro hmax
  apply Triple.bind (reached_ttBhDeadline hE arcMsgTimeoutMs)
  intro deadline
  have hpoll : Triple (fun w => Reached (left + 9 + timeoutRounds) []
        (.read (u32 (q.base + reqWptr)) wptr :: seen) msg w ∧
        deadline ≤ now w.env + arcMsgTimeoutMs * 10000)
      (arcPoll E fuel (csmRead E (u32 (q.base + reqRptr))) (pushHasSpace q.numEntries wptr)
        deadline)
      (fun v w => Reached (left + 9) [] (.read (u32 (q.base + reqRptr)) v ::
          .read (u32 (q.base + reqWptr)) wptr :: seen) msg w ∧
        v ≠ maxUlong ∧ pushHasSpace q.numEntries wptr v)
      (Fails msg) :=
    reached_arcPoll hE hfuel (fun n => reached_csmRead fun w h => h.fails_first)
      (fun t => later_csmRead hE t) fun n w h => h.fails_first
  apply (hpoll.before _).bind
  · intro v
    apply Triple.of_and
    rintro ⟨hvmax, hfree⟩
    have hsub : seen ⊆ .read (u32 (q.base + reqRptr)) v ::
        .read (u32 (q.base + reqWptr)) wptr :: seen :=
      List.subset_cons_of_subset _ (List.subset_cons_self _ _)
    have hspace : SpaceSeen q wptr (.read (u32 (q.base + reqRptr)) v ::
        .read (u32 (q.base + reqWptr)) wptr :: seen) :=
      ⟨hmax, by simp, v, hvmax, by simp, hfree⟩
    apply reached_getMsg.bind
    intro msg'
    apply Triple.of_and
    rintro rfl
    apply (reached_requestWords (hqueue.mono hsub) hspace).bind
    intro _
    apply (reached_csmWrite _ _).weaken fun _ h => h
    · intro _ w h
      exact ⟨wptr, _, h, hsub, hspace⟩
    · exact fun _ h => h
    · intro w h
      exact Reached.fails_request (n := 8) h le_rfl (hqueue.mono hsub) hspace
  · intro w h
    refine ⟨h.1.fewer ?_, h.2⟩
    omega

/-- What the load of a response has seen: the words that are done are in the message. -/
def Loaded (q : ArcQueue) (rptr left : ℕ) (ws : List (ℕ × ℕ)) (seen : List ArcAccess)
    (done : List (Fin 8)) (w : ArcWorld σ) : Prop :=
  ∃ reply seen', Reached left ws seen' reply w ∧ seen ⊆ seen' ∧
    ∀ i ∈ done, .read (responseAddr q rptr i) (reply i) ∈ seen'

/-- The words of a response. -/
theorem reached_responseWords (hF : ∀ n m seen', seen ⊆ seen' →
      ∀ w : ArcWorld σ, Reached n ws seen' m w → F w) :
    Triple (Reached (left + 8) ws seen m)
      (Program.forEach (fun i : Fin 8 => do
        let value ← csmRead E (responseAddr q rptr i)
        setMsg fun msg => Function.update msg i value) (List.finRange 8))
      (fun _ => Loaded q rptr left ws seen (List.finRange 8)) F := by
  apply Triple.before
  · apply Triple.forEach
      (I := fun done => Loaded q rptr (left + (8 - done.length)) ws seen done)
    intro done x rest hsplit
    have hlength : done.length + 1 + rest.length = 8 := by
      have h := congrArg List.length hsplit
      simp only [List.length_finRange, List.length_append, List.length_cons] at h
      omega
    have hleft : left + (8 - done.length) = left + (8 - (done ++ [x]).length) + 1 := by
      rw [List.length_append, List.length_singleton]
      omega
    have hnew : x ∉ done := by
      have hnodup := List.nodup_finRange 8
      rw [hsplit] at hnodup
      exact fun hx => (List.nodup_append.mp hnodup).2.2 x hx x List.mem_cons_self rfl
    rw [hleft]
    apply Triple.of_exists
    intro reply
    apply Triple.of_exists
    intro seen'
    apply Triple.of_and
    rintro ⟨hsub, hdone⟩
    apply (reached_csmRead (hF _ reply seen' hsub)).bind
    intro value
    apply Triple.step
    intro w h
    refine ⟨Function.update reply x value, .read (responseAddr q rptr x) value :: seen', ?_, ?_, ?_⟩
    · exact ⟨h.confined, h.length, h.writes, h.seen, by rw [h.msg]⟩
    · exact List.subset_cons_of_subset _ hsub
    · intro i hi
      rcases List.mem_append.mp hi with hi | hi
      · have hne : i ≠ x := fun hix => hnew (hix ▸ hi)
        rw [Function.update_of_ne hne]
        exact List.mem_cons_of_mem _ (hdone i hi)
      · rw [List.mem_singleton.mp hi, Function.update_self]
        exact List.mem_cons_self
  · intro w h
    exact ⟨m, seen, h, List.Subset.refl _, fun i hi => by simp at hi⟩

/-- `TtBhArcMsgPop` loads and releases a response that it has seen to be there. -/
theorem reached_ttBhArcMsgPop (hE : E.Ticks now) (hfuel : timeoutRounds ≤ fuel)
    (hF : ∀ n m seen', seen ⊆ seen' → ∀ w : ArcWorld σ, Reached n ws seen' m w → F w) :
    Triple (Reached (left + timeoutRounds + 10) ws seen m) (ttBhArcMsgPop E fuel q)
      (fun _ w => ∃ rptr reply seen',
        Reached left (ws ++ [(u32 (q.base + resRptr), (rptr + 1) % (2 * q.numEntries))]) seen'
          reply w ∧
        seen ⊆ seen' ∧ ResponseSeen q rptr seen' ∧
          ∀ i : Fin 8, .read (responseAddr q rptr i) (reply i) ∈ seen')
      F := by
  have hself : seen ⊆ seen := List.Subset.refl _
  unfold ttBhArcMsgPop
  have hzero : Triple (Reached (left + timeoutRounds + 10) ws seen m)
      (setMsg (σ := σ) fun _ _ => 0)
      (fun _ => Reached (left + timeoutRounds + 10) ws seen fun _ => 0) F := by
    apply Triple.step
    intro w h
    exact ⟨h.confined, h.length, h.writes, h.seen, rfl⟩
  apply hzero.bind
  intro _
  apply Triple.bind (reached_csmRead fun w h => hF _ _ _ hself w h)
  intro rptr
  have hcons {a : ArcAccess} : seen ⊆ a :: seen := List.subset_cons_self _ _
  apply Triple.ite
  · intro _
    exact Triple.stop fun w h => hF _ _ _ hcons w h
  intro hmax
  apply Triple.bind (reached_ttBhDeadline hE arcMsgTimeoutMs)
  intro deadline
  have hpoll : Triple (fun w => Reached (left + 9 + timeoutRounds) ws
        (.read (u32 (q.base + resRptr)) rptr :: seen) (fun _ => 0) w ∧
        deadline ≤ now w.env + arcMsgTimeoutMs * 10000)
      (arcPoll E fuel (csmRead E (u32 (q.base + resWptr)))
        (fun wptr => popHasResponse q.numEntries wptr rptr) deadline)
      (fun v w => Reached (left + 9) ws (.read (u32 (q.base + resWptr)) v ::
          .read (u32 (q.base + resRptr)) rptr :: seen) (fun _ => 0) w ∧
        v ≠ maxUlong ∧ popHasResponse q.numEntries v rptr)
      F :=
    reached_arcPoll hE hfuel (fun n => reached_csmRead fun w h => hF _ _ _ hcons w h)
      (fun t => later_csmRead hE t) fun n w h => hF _ _ _ hcons w h
  apply (hpoll.before _).bind
  · intro v
    apply Triple.of_and
    rintro ⟨hvmax, hthere⟩
    have hsub : seen ⊆ .read (u32 (q.base + resWptr)) v ::
        .read (u32 (q.base + resRptr)) rptr :: seen :=
      List.subset_cons_of_subset _ (List.subset_cons_self _ _)
    have hresponse : ResponseSeen q rptr (.read (u32 (q.base + resWptr)) v ::
        .read (u32 (q.base + resRptr)) rptr :: seen) :=
      ⟨hmax, by simp, v, hvmax, by simp, hthere⟩
    apply Triple.bind (reached_responseWords fun n m seen' h w hw =>
      hF n m seen' (List.Subset.trans hsub h) w hw)
    intro _
    apply Triple.of_exists
    intro reply
    apply Triple.of_exists
    intro seen'
    apply Triple.of_and
    rintro ⟨hsub', hreply⟩
    have hall := List.Subset.trans hsub hsub'
    apply (reached_csmWrite _ (hF _ _ _ hall)).weaken fun _ h => h
    · intro _ w h
      exact ⟨rptr, reply, seen', h, hall, hresponse.mono hsub',
        fun i => hreply i (List.mem_finRange i)⟩
    · exact fun _ h => h
  · intro w h
    refine ⟨h.1.fewer ?_, h.2⟩
    omega

/-- An exchange that has released its response. -/
def Answers (msg : ArcMsg) (w : ArcWorld σ) : Prop :=
  ∃ q wptr rptr, Exchanged msg q wptr rptr 11 w.log w.msg

/-- The exchange on a queue that was discovered. -/
theorem reached_exchange (hE : E.Ticks now) (hfuel : timeoutRounds ≤ fuel)
    (hqueue : QueueSeen q seen) :
    Triple (Reached (2 * timeoutRounds + 21) [] seen msg)
      (do
        ttBhArcMsgPush E fuel q
        arcWrite E arcMsiFifo 0
        ttBhArcMsgPop E fuel q)
      (fun _ => Answers msg) (Fails msg) := by
  have hstart (w : ArcWorld σ) (h : Reached (2 * timeoutRounds + 21) [] seen msg w) :
      Reached (timeoutRounds + 11 + timeoutRounds + 10) [] seen msg w := h.fewer (by omega)
  apply ((reached_ttBhArcMsgPush hE hfuel hqueue).before hstart).bind
  · intro _
    apply Triple.of_exists
    intro wptr
    apply Triple.of_exists
    intro seen'
    apply Triple.of_and
    rintro ⟨hsub, hspace⟩
    have hqueue' := hqueue.mono hsub
    apply (reached_arcWrite (.inr (.inr (.inl rfl))) 0).bind
    intro _
    rw [List.append_assoc]
    have hfails : ∀ n m seen'', seen' ⊆ seen'' → ∀ w : ArcWorld σ,
        Reached n (requestWrites q msg wptr ++
          ([(u32 (q.base + reqWptr), (wptr + 1) % (2 * q.numEntries))] ++ [(arcMsiFifo, 0)]))
          seen'' m w → Fails msg w :=
      fun n m seen'' h w hw => hw.fails_response (hqueue'.mono h) (hspace.mono h)
    have hleft : timeoutRounds + 10 = 0 + timeoutRounds + 10 := by omega
    rw [hleft]
    apply (reached_ttBhArcMsgPop hE hfuel hfails).weaken fun _ h => h
    · rintro _ w ⟨rptr, reply, seen'', h, hsub', hresponse, hreply⟩
      refine ⟨q, wptr, rptr, h.exchanged ?_ ?_⟩
      · have hlength : (exchangeWrites q msg wptr rptr).length = 11 := by
          simp [exchangeWrites, requestWrites]
        rw [List.take_of_length_le hlength.le, List.append_assoc]
        rfl
      · constructor
        · decide
        · exact fun _ => hqueue'.mono hsub'
        · exact fun _ => hspace.mono hsub'
        · exact fun hn => absurd hn (by decide)
        · exact fun _ => hresponse
        · exact fun _ => hreply
    · exact fun _ h => h

/-- The part of `TtBhSendArcMessage` with the lock. -/
theorem reached_ttBhSendArcMessageBody (hE : E.Ticks now) (hfuel : timeoutRounds ≤ fuel) :
    Triple (Reached exchangeAccesses [] [] msg) (ttBhSendArcMessageBody E fuel)
      (fun _ => Answers msg) (Fails msg) := by
  have hready : readyRounds ≤ fuel := Nat.le_trans (by decide) hfuel
  have hboot : ArcReach arcBootStatus := .inl rfl
  have hqcb : ArcReach arcMsgQcbPtr := .inr (.inl rfl)
  unfold ttBhSendArcMessageBody
  apply Triple.bind (reached_ttBhDeadline hE arcMsgReadyMs)
  intro deadline
  have hgate : Triple (fun w => Reached (2 * timeoutRounds + 24 + readyRounds) [] [] msg w ∧
        deadline ≤ now w.env + arcMsgReadyMs * 10000)
      (arcPoll E fuel (arcRead E arcBootStatus) (fun status => status &&& 1 ≠ 0) deadline)
      (fun v w => Reached (2 * timeoutRounds + 24) [] [.read arcBootStatus v] msg w ∧
        v ≠ maxUlong ∧ decide (v &&& 1 ≠ 0) = true)
      (Fails msg) :=
    reached_arcPoll hE hready (fun n => reached_arcRead hboot) (fun t => later_arcRead hE t)
      fun n w h => h.fails_first
  apply (hgate.before _).bind
  · intro status
    apply Triple.of_and
    intro _
    apply (reached_arcRead hqcb).bind
    intro ctrl
    apply Triple.bind (reached_csmRead fun w h => h.fails_first)
    intro queueBase
    apply Triple.bind (reached_csmRead fun w h => h.fails_first)
    intro queueInfo
    cases hq : discoverQueue queueBase queueInfo with
    | none => exact Triple.stop fun w h => h.fails_first
    | some q =>
      have hbase : q.base = queueBase := by
        simp only [discoverQueue] at hq
        split at hq
        · cases hq
        · rw [← Option.some.inj hq]
      apply reached_exchange hE hfuel
      rw [← hbase] at hq ⊢
      exact ⟨ctrl, queueInfo, by simp, by simp, by simp, hq⟩
  · intro w h
    refine ⟨h.1.fewer ?_, h.2⟩
    unfold exchangeAccesses
    omega

end Exchange

/-- Firmware that is ready, with a queue of four entries, an empty request ring and one response
of zeros, and a clock that only a delay moves. -/
def answeringArc : ArcEnv ℕ where
  read := fun s addr =>
    (if addr = arcBootStatus then 1
      else if addr = arcMsgQcbPtr then csmBase
      else if addr = csmBase then csmBase + 0x100
      else if addr = csmBase + 4 then 4
      else if addr = csmBase + 0x100 + resWptr then 1
      else 0, s)
  write := fun s _ _ => s
  interruptTime := fun s => (s, s)
  delay := fun s => s + 1000

/-- The clock of `answeringArc`. -/
theorem answeringArc_ticks : answeringArc.Ticks id where
  read := fun _ _ => le_rfl
  interruptTime := fun _ => ⟨le_rfl, le_rfl⟩
  delay := fun _ => le_rfl

end TtKmd
