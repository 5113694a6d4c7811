import TtKmd.Arc.Occupancy

/-!
# Which response a message call receives

`TtBhSendArcMessage` pushes a request and pops a response as one transaction
under `ArcMsgLock`. The messages carry no tag, so the response popped is the
oldest one in the ring. It belongs to the request of the same call as long as no
earlier call has given up between its push and its pop; a call that did leaves a
response behind that every later call finds in place of its own.
-/

namespace TtKmd

open Lib

/-- How far the call that holds `ArcMsgLock` has come. -/
inductive CallPhase
  /-- Inside `TtBhArcMsgPush`. -/
  | pushing (msg : ArcMsg)
  /-- After the doorbell, inside `TtBhArcMsgPop`; the place of its request. -/
  | popping (msg : ArcMsg) (request : ℕ)

/-- A call whose `TtBhArcMsgPop` returned a message. -/
structure CallRecord where
  /-- The message of the request. -/
  sent : ArcMsg
  /-- The place of the request among all requests pushed. -/
  request : ℕ
  /-- The place of the response among all responses written. -/
  response : ℕ
  /-- The message popped. -/
  got : ArcMsg

/-- The queue, the call in progress and the calls that were answered. -/
structure SendState where
  /-- The two rings and their parties. -/
  arc : ArcState
  /-- The call that holds `ArcMsgLock`. -/
  call : Option CallPhase
  /-- The answered calls. -/
  log : List CallRecord

/-- A step of a caller or of the firmware. -/
inductive SendEvent
  /-- `TtBhSendArcMessage` takes `ArcMsgLock` and has read the boot status. -/
  | call (msg : ArcMsg) (bootStatus : ℕ)
  /-- The next CSM access of the call in progress. -/
  | driver (timeout : Bool)
  /-- `TtBhArcMsgPush` or `TtBhArcMsgPop` has returned. -/
  | proceed
  /-- The firmware continues to read a request. -/
  | fwRead
  /-- The firmware begins the response to the oldest request it has not answered. -/
  | fwRespond (msg : ArcMsg)
  /-- The firmware continues to write a response. -/
  | fwWrite

/-- `TT_BH_ARC_BOOT_STATUS_READY_FOR_MSG` is set in a status that is not all-ones. -/
def readyForMsg (bootStatus : ℕ) : Bool := bootStatus ≠ maxUlong ∧ bootStatus &&& 1 ≠ 0

/-- What `TtBhSendArcMessage` does when the function it has called returns. -/
def proceed (q : ArcQueue) (s : SendState) : Option SendState :=
  match s.call, s.arc.driver with
  | some (.pushing msg), .returned .pushed =>
      -- the doorbell has no effect on the rings
      (arcNext q s.arc .startPop).map fun arc =>
        { s with arc := arc, call := some (.popping msg (s.arc.pushed.length - 1)) }
  | some (.popping msg request), .returned (.popped got) =>
      let record := ⟨msg, request, s.arc.popped.length - 1, got⟩
      some { s with call := none, log := s.log ++ [record] }
  | some _, .returned .failed => some { s with call := none }
  | _, _ => none

/-- One step of the system; `none` where the step is not possible. -/
def sendNext (q : ArcQueue) (s : SendState) : SendEvent → Option SendState
  | .call msg bootStatus =>
      match s.call with
      | some _ => none
      | none =>
          if readyForMsg bootStatus then
            (arcNext q s.arc (.startPush msg)).map fun arc =>
              { s with arc := arc, call := some (.pushing msg) }
          else some s
  | .driver timeout => (arcNext q s.arc (.driver timeout)).map fun arc => { s with arc := arc }
  | .proceed => proceed q s
  | .fwRead => (arcNext q s.arc .fwRead).map fun arc => { s with arc := arc }
  | .fwRespond msg =>
      if s.arc.written.length < s.arc.taken.length then
        (arcNext q s.arc (.fwWriteStart msg)).map fun arc => { s with arc := arc }
      else none
  | .fwWrite => (arcNext q s.arc .fwWrite).map fun arc => { s with arc := arc }

/-- The step relation of the system. -/
def SendStep (q : ArcQueue) : SendState → SendEvent → SendState → Prop := partialGraph (sendNext q)

/-- The queue is empty and no call has been made. -/
structure ArcQueue.Fresh (q : ArcQueue) (s : SendState) : Prop where
  /-- The pointers are reduced. -/
  start : q.Start s.arc
  /-- No request is outstanding. -/
  pushed : s.arc.pushed = []
  /-- No response is outstanding. -/
  written : s.arc.written = []
  /-- `ArcMsgLock` is free. -/
  call : s.call = none
  /-- No call was answered. -/
  log : s.log = []

/-- The message an answered call received is the response to its own request: the
firmware answers request `i` with response `i`. -/
structure Correlated (arc : ArcState) (r : CallRecord) : Prop where
  /-- The call pushed this request. -/
  request : arc.pushed[r.request]? = some r.sent
  /-- The response has the place of the request. -/
  place : r.response = r.request
  /-- The message is what the firmware wrote there. -/
  response : arc.written[r.response]? = some r.got

/-- The condition on a step: a call begins its push only when every request pushed
before it has had its response popped. -/
def NoneOutstanding (s : SendState) : SendEvent → Prop
  | .call _ bootStatus => readyForMsg bootStatus = true → s.arc.pushed.length = s.arc.popped.length
  | _ => True

/-- What holds of the two histories in each phase of a call. -/
def PhaseOk (arc : ArcState) : Option CallPhase → Prop
  | none => ∃ r, arc.driver = .returned r
  | some (.pushing msg) =>
      match arc.driver with
      | .pushStart m | .pushPoll m _ | .pushWrite m _ _ =>
          m = msg ∧ arc.pushed.length = arc.popped.length
      | .returned .pushed =>
          arc.pushed.length = arc.popped.length + 1 ∧ arc.pushed[arc.popped.length]? = some msg
      | .returned .failed => True
      | _ => False
  | some (.popping msg request) =>
      arc.pushed[request]? = some msg ∧
      match arc.driver with
      | .popStart | .popPoll _ | .popLoad _ _ _ => arc.popped.length = request
      | .returned (.popped got) =>
          arc.popped.length = request + 1 ∧ arc.popped[request]? = some got
      | .returned .failed => True
      | _ => False

/-- The invariant of the calls. -/
structure SendInv (q : ArcQueue) (s : SendState) : Prop where
  /-- The rings are consistent. -/
  arc : ArcInv q s.arc
  /-- The firmware has answered no request it has not read. -/
  order : s.arc.written.length ≤ s.arc.taken.length
  /-- Nor is it answering one. -/
  answering : s.arc.writer ≠ none → s.arc.written.length < s.arc.taken.length
  /-- The call in progress. -/
  phase : PhaseOk s.arc s.call
  /-- The answered calls received their own responses. -/
  log : ∀ r ∈ s.log, Correlated s.arc r

/-- A pop never sees a response in an empty ring. -/
theorem popHasResponse_of_ok {n : ℕ} {R : Lib.Ring 8 ℕ} (hok : R.Ok n)
    (h : popHasResponse n R.wptr R.rptr = true) : 0 < R.unread := by
  by_contra hzero
  have hunread : R.unread = 0 := by omega
  have hw := hok.wptr_eq
  rw [hunread, Nat.add_zero, Nat.mod_eq_of_lt hok.rptr_lt] at hw
  simp [popHasResponse, hw, u32Sub] at h

/-- With no request outstanding the tests of the driver are sound. -/
theorem SendInv.sound {q : ArcQueue} {s : SendState} (hq : q.InCsm) (hinv : SendInv q s) :
    TestsSound q s.arc := by
  constructor
  · intro msg wptr hpc _
    have hphase := hinv.phase
    have hreq := (RingsInv.req hinv.arc).length_le
    have hres := (RingsInv.res hinv.arc).length_le
    have horder := hinv.order
    have hempty : s.arc.pushed.length = s.arc.popped.length := by
      cases hcall : s.call with
      | none =>
        rw [hcall] at hphase
        obtain ⟨r, hr⟩ := hphase
        rw [hpc] at hr
        cases hr
      | some phase =>
        cases phase with
        | pushing m =>
          simp only [hcall, PhaseOk, hpc] at hphase
          exact hphase.2
        | popping m k => simp [hcall, PhaseOk, hpc] at hphase
    have hpos := hq.pos
    simp only [ArcQueue.reqRing, ArcQueue.resRing, RingLayout.view, Lib.Ring.unread] at hreq hres ⊢
    omega
  · intro rptr hpc h
    have hdrv := RingsInv.driver hinv.arc
    rw [hpc] at hdrv
    obtain rfl : rptr = _ := hdrv
    exact popHasResponse_of_ok (RingsInv.res hinv.arc) h

/-- An element of a list stays where it is when the list grows. -/
theorem getElem?_of_isPrefix {α : Type*} {l l' : List α} {i : ℕ} {x : α} (hpre : l <+: l')
    (h : l[i]? = some x) : l'[i]? = some x := by
  obtain ⟨rest, rfl⟩ := hpre
  have hlt : i < l.length := (List.getElem?_eq_some_iff.mp h).1
  rw [List.getElem?_append_left hlt]
  exact h

/-- Later requests and responses do not change who was answered. -/
theorem Correlated.mono {a b : ArcState} {r : CallRecord} (h : Correlated a r)
    (hpushed : a.pushed <+: b.pushed) (hwritten : a.written <+: b.written) : Correlated b r :=
  ⟨getElem?_of_isPrefix hpushed h.request, h.place, getElem?_of_isPrefix hwritten h.response⟩

/-- The parts of the state the driver does not write. -/
theorem DriverMove.frame {q : ArcQueue} {a b : ArcState} (h : DriverMove q a b) :
    b.taken = a.taken ∧ b.written = a.written ∧ b.writer = a.writer ∧ a.pushed <+: b.pushed := by
  cases h with
  | pushDone msg wptr i h hi => exact ⟨rfl, rfl, rfl, List.prefix_append _ _⟩
  | _ => exact ⟨rfl, rfl, rfl, List.prefix_refl _⟩

/-- What the firmware changes when it reads. -/
theorem fwReadStep_frame {q : ArcQueue} {a b : ArcState} (h : fwReadStep q a = some b) :
    b.driver = a.driver ∧ b.pushed = a.pushed ∧ b.written = a.written ∧ b.popped = a.popped ∧
      b.writer = a.writer ∧ a.taken.length ≤ b.taken.length := by
  unfold fwReadStep at h
  simp only at h
  split at h
  · split at h <;> cases h
    exact ⟨rfl, rfl, rfl, rfl, rfl, le_rfl⟩
  · split at h <;> cases h
    · exact ⟨rfl, rfl, rfl, rfl, rfl, le_rfl⟩
    · exact ⟨rfl, rfl, rfl, rfl, rfl, by simp⟩

/-- What the firmware changes when it writes. -/
theorem fwWriteStep_frame {q : ArcQueue} {a b : ArcState} (h : fwWriteStep q a = some b) :
    b.driver = a.driver ∧ b.pushed = a.pushed ∧ b.taken = a.taken ∧ b.popped = a.popped ∧
      a.writer ≠ none ∧ ((b.writer ≠ none ∧ b.written = a.written) ∨
        (b.writer = none ∧ ∃ m, b.written = a.written ++ [m])) := by
  unfold fwWriteStep at h
  simp only at h
  split at h
  · cases h
  · rename_i msg i hw
    rw [hw]
    split at h <;> cases h
    · exact ⟨rfl, rfl, rfl, rfl, by simp, Or.inl ⟨by simp, rfl⟩⟩
    · exact ⟨rfl, rfl, rfl, rfl, by simp, Or.inr ⟨rfl, msg, rfl⟩⟩

/-- The phase of a call depends on the driver and its two histories only. -/
theorem PhaseOk.congr {a b : ArcState} {call : Option CallPhase} (h : PhaseOk a call)
    (hdriver : b.driver = a.driver) (hpushed : b.pushed = a.pushed)
    (hpopped : b.popped = a.popped) : PhaseOk b call := by
  unfold PhaseOk at h ⊢
  rw [hdriver, hpushed, hpopped]
  exact h

/-- A move of the driver keeps the phase of the call. -/
theorem PhaseOk.driverMove {q : ArcQueue} {a b : ArcState} {call : Option CallPhase}
    (h : PhaseOk a call) (hmove : DriverMove q a b) : PhaseOk b call := by
  rcases call with _ | ⟨m⟩ | ⟨m, k⟩
  · obtain ⟨r, hr⟩ := h
    cases hmove with
    | fail => exact ⟨_, rfl⟩
    | wait => exact ⟨r, hr⟩
    | _ => simp_all
  · cases hmove with
    | fail => trivial
    | wait => exact h
    | pushBegin msg hpc => simpa [PhaseOk, ArcState.goto, hpc] using h
    | pushSpace msg wptr hpc => simpa [PhaseOk, ArcState.goto, hpc] using h
    | pushWord msg wptr i hpc => simpa [PhaseOk, ArcState.goto, hpc] using h
    | pushDone msg wptr i hpc =>
      simp only [PhaseOk, hpc] at h
      obtain ⟨rfl, hlen⟩ := h
      refine ⟨by simp [hlen], ?_⟩
      rw [← hlen, List.getElem?_concat_length]
    | popBegin hpc => simp [PhaseOk, hpc] at h
    | popSome rptr hpc => simp [PhaseOk, hpc] at h
    | popWord rptr i msg hpc => simp [PhaseOk, hpc] at h
    | popDone rptr i msg hpc => simp [PhaseOk, hpc] at h
  · obtain ⟨hreq, hpos⟩ := h
    cases hmove with
    | fail => exact ⟨hreq, trivial⟩
    | wait => exact ⟨hreq, hpos⟩
    | pushBegin msg hpc => simp [hpc] at hpos
    | pushSpace msg wptr hpc => simp [hpc] at hpos
    | pushWord msg wptr i hpc => simp [hpc] at hpos
    | pushDone msg wptr i hpc => simp [hpc] at hpos
    | popBegin hpc => exact ⟨hreq, by simpa [ArcState.goto, hpc] using hpos⟩
    | popSome rptr hpc => exact ⟨hreq, by simpa [ArcState.goto, hpc] using hpos⟩
    | popWord rptr i msg hpc => exact ⟨hreq, by simpa [ArcState.goto, hpc] using hpos⟩
    | popDone rptr i msg hpc =>
      simp only [hpc] at hpos
      refine ⟨hreq, by simp [hpos], ?_⟩
      rw [← hpos, List.getElem?_concat_length]

section Step

variable {q : ArcQueue} {s t : SendState}

/-- The answered calls of a state with the same histories. -/
theorem SendInv.log_of_same (hinv : SendInv q s) {arc : ArcState}
    (hpushed : arc.pushed = s.arc.pushed) (hwritten : arc.written = s.arc.written) :
    ∀ r ∈ s.log, Correlated arc r :=
  fun r hr => (hinv.log r hr).mono (by rw [hpushed]) (by rw [hwritten])

/-- A CSM access of the driver keeps the invariant. -/
theorem SendInv.driverStep (hq : q.InCsm) (hinv : SendInv q s) {timeout : Bool}
    (h : sendNext q s (.driver timeout) = some t) : SendInv q t := by
  simp only [sendNext, Option.map_eq_some_iff] at h
  obtain ⟨arc, harc, rfl⟩ := h
  have hmove := driverStep_move hq harc
  obtain ⟨htaken, hwritten, hwriter, hpushed⟩ := hmove.frame
  refine ⟨hinv.arc.driverMove hq (hinv.sound hq) hmove, ?_, ?_, hinv.phase.driverMove hmove, ?_⟩
  · rw [htaken, hwritten]
    exact hinv.order
  · rw [htaken, hwritten, hwriter]
    exact hinv.answering
  · exact fun r hr => (hinv.log r hr).mono hpushed (by rw [hwritten])

/-- A read of the firmware keeps the invariant. -/
theorem SendInv.fwRead (hq : q.InCsm) (hinv : SendInv q s)
    (h : sendNext q s .fwRead = some t) : SendInv q t := by
  simp only [sendNext, Option.map_eq_some_iff] at h
  obtain ⟨arc, harc, rfl⟩ := h
  obtain ⟨hdriver, hpushed, hwritten, hpopped, hwriter, htaken⟩ := fwReadStep_frame harc
  refine ⟨hinv.arc.fwReadStep hq harc, ?_, ?_, hinv.phase.congr hdriver hpushed hpopped, ?_⟩
  · rw [hwritten]
    exact hinv.order.trans htaken
  · rw [hwritten, hwriter]
    exact fun hne => (hinv.answering hne).trans_le htaken
  · exact hinv.log_of_same hpushed hwritten

/-- A write of the firmware keeps the invariant. -/
theorem SendInv.fwWrite (hq : q.InCsm) (hinv : SendInv q s)
    (h : sendNext q s .fwWrite = some t) : SendInv q t := by
  simp only [sendNext, Option.map_eq_some_iff] at h
  obtain ⟨arc, harc, rfl⟩ := h
  obtain ⟨hdriver, hpushed, htaken, hpopped, hne, hcases⟩ := fwWriteStep_frame harc
  have hlt := hinv.answering hne
  refine ⟨hinv.arc.fwWriteStep hq harc, ?_, ?_, hinv.phase.congr hdriver hpushed hpopped, ?_⟩
  · rcases hcases with ⟨_, hw⟩ | ⟨_, m, hw⟩ <;> simp only [hw, htaken, List.length_append,
      List.length_singleton] <;> omega
  · rcases hcases with ⟨_, hw⟩ | ⟨hnone, _⟩
    · rw [hw, htaken]
      exact fun _ => hlt
    · exact fun h' => absurd hnone h'
  · intro r hr
    refine (hinv.log r hr).mono (by rw [hpushed]) ?_
    rcases hcases with ⟨_, hw⟩ | ⟨_, m, hw⟩
    · rw [hw]
    · rw [hw]
      exact List.prefix_append _ _

/-- The start of a response keeps the invariant. -/
theorem SendInv.fwRespond (hq : q.InCsm) (hinv : SendInv q s) {msg : ArcMsg}
    (h : sendNext q s (.fwRespond msg) = some t) : SendInv q t := by
  simp only [sendNext] at h
  split at h
  · rename_i hlt
    obtain ⟨arc, harc, rfl⟩ := Option.map_eq_some_iff.mp h
    have harcInv := hinv.arc.step hq (hinv.sound hq) harc
    simp only [arcNext] at harc
    split at harc <;> cases harc
    exact ⟨harcInv, hinv.order, fun _ => hlt, hinv.phase, hinv.log_of_same rfl rfl⟩
  · cases h

/-- The start of a call keeps the invariant when no request is outstanding. -/
theorem SendInv.call (hq : q.InCsm) (hinv : SendInv q s) {msg : ArcMsg} {bootStatus : ℕ}
    (hcond : NoneOutstanding s (.call msg bootStatus))
    (h : sendNext q s (.call msg bootStatus) = some t) : SendInv q t := by
  simp only [sendNext] at h
  split at h
  · cases h
  · split at h
    · rename_i hready
      obtain ⟨arc, harc, rfl⟩ := Option.map_eq_some_iff.mp h
      have harcInv := hinv.arc.step hq (hinv.sound hq) harc
      simp only [arcNext] at harc
      split at harc <;> cases harc
      exact ⟨harcInv, hinv.order, hinv.answering, ⟨rfl, hcond hready⟩, hinv.log_of_same rfl rfl⟩
    · cases h
      exact hinv

/-- The return of `TtBhArcMsgPush` or `TtBhArcMsgPop` keeps the invariant; an
answered call received its own response. -/
theorem SendInv.proceed (hq : q.InCsm) (hinv : SendInv q s)
    (h : sendNext q s .proceed = some t) : SendInv q t := by
  simp only [sendNext, TtKmd.proceed] at h
  have hphase := hinv.phase
  split at h
  · rename_i msg hcall hpc
    obtain ⟨arc, harc, rfl⟩ := Option.map_eq_some_iff.mp h
    have harcInv := hinv.arc.step hq (hinv.sound hq) harc
    simp only [arcNext, hpc] at harc
    cases harc
    simp only [hcall, PhaseOk, hpc] at hphase
    refine ⟨harcInv, hinv.order, hinv.answering, ?_, hinv.log_of_same rfl rfl⟩
    have hk : s.arc.pushed.length - 1 = s.arc.popped.length := by omega
    rw [hk]
    exact ⟨hphase.2, rfl⟩
  · rename_i msg request got hcall hpc
    cases h
    simp only [hcall, PhaseOk, hpc] at hphase
    obtain ⟨hreq, hlen, hgot⟩ := hphase
    refine ⟨hinv.arc, hinv.order, hinv.answering, ⟨_, hpc⟩, ?_⟩
    intro r hr
    rcases List.mem_append.mp hr with hr | hr
    · exact hinv.log r hr
    · obtain rfl := List.mem_singleton.mp hr
      have hk : s.arc.popped.length - 1 = request := by omega
      refine ⟨hreq, hk, ?_⟩
      simp only [hk]
      exact getElem?_of_isPrefix (RingsInv.res hinv.arc).taken hgot
  · rename_i hpc
    cases h
    exact ⟨hinv.arc, hinv.order, hinv.answering, ⟨_, hpc⟩, hinv.log⟩
  · cases h

/-- Every step that meets the condition keeps the invariant. -/
theorem SendInv.step (hq : q.InCsm) (hinv : SendInv q s) {e : SendEvent}
    (hcond : NoneOutstanding s e) (h : SendStep q s e t) : SendInv q t := by
  unfold SendStep partialGraph at h
  cases e with
  | call msg bootStatus => exact hinv.call hq hcond h
  | driver timeout => exact hinv.driverStep hq h
  | proceed => exact hinv.proceed hq h
  | fwRead => exact hinv.fwRead hq h
  | fwRespond msg => exact hinv.fwRespond hq h
  | fwWrite => exact hinv.fwWrite hq h

end Step

/-- A fresh queue satisfies the invariant. -/
theorem ArcQueue.Fresh.inv {q : ArcQueue} {s : SendState} (hs : q.Fresh s) : SendInv q s := by
  refine ⟨hs.start.inv, ?_, ?_, ?_, ?_⟩
  · simp [hs.written]
  · simp [hs.start.writer]
  · rw [hs.call]
    exact hs.start.driver
  · simp [hs.log]

/-- In every run from a fresh queue in which each call begins with no request
outstanding, every message a call pops is the response to its own request. -/
theorem answered_calls_correlated {q : ArcQueue} (hq : q.InCsm) {s t : SendState}
    (hs : q.Fresh s) {es : List SendEvent}
    (hrun : Run (restrict (SendStep q) NoneOutstanding) s es t) :
    ∀ r ∈ t.log, Correlated t.arc r := by
  have hinv : SendInv q t := by
    refine hrun.invariant ?_ hs.inv
    rintro s e t hinv ⟨hcond, hstep⟩
    exact hinv.step hq hcond hstep
  exact hinv.log

/-- A queue of four entries before the first call. -/
def quietSend : SendState where
  arc := ⟨fun _ => 0, .returned .failed, none, none, [], [], [], []⟩
  call := none
  log := []

/-- It is fresh. -/
theorem quietSend_fresh : (⟨csmBase, 4⟩ : ArcQueue).Fresh quietSend := by
  have hring : ∀ L : RingLayout, L.size = 4 →
      (L.view (fun _ => 0) [] []).Start 4 := by
    intro L hL
    exact ⟨Nat.zero_lt_succ 7, Nat.zero_lt_succ 7, by simp [RingLayout.view],
      by simp [RingLayout.view], rfl⟩
  exact ⟨⟨⟨_, rfl⟩, rfl, rfl, hring _ rfl, hring _ rfl⟩, rfl, rfl, rfl, rfl⟩

/-- A call up to the return of its push. -/
def pushEvents (msg : ArcMsg) : List SendEvent := .call msg 1 :: List.replicate 11 (.driver false)

/-- The rest of a call that finds a response. -/
def popEvents : List SendEvent := .proceed :: (List.replicate 11 (.driver false)).concat .proceed

/-- The firmware reads a request and answers it. -/
def answerEvents (msg : ArcMsg) : List SendEvent :=
  List.replicate 10 .fwRead ++ .fwRespond msg :: List.replicate 9 .fwWrite

/-- A call whose pop times out, the firmware's late response to it, and a second
call. -/
def lateResponse : List SendEvent :=
  [pushEvents fun _ => 1, [.proceed, .driver false, .driver true, .proceed],
    answerEvents fun _ => 0,
    pushEvents fun _ => 2, popEvents].flatten

/-- The places of the requests and responses that run records. -/
theorem lateResponse_log : (runList (sendNext ⟨csmBase, 4⟩) quietSend lateResponse).map
    (fun t => t.log.map fun r => (r.request, r.response)) = some [(1, 0)] := by
  decide +kernel

/-- The second call pops the response to the request of the first. -/
theorem lateResponse_miscorrelates :
    (⟨csmBase, 4⟩ : ArcQueue).InCsm ∧ (⟨csmBase, 4⟩ : ArcQueue).Fresh quietSend ∧
      ∃ t, Run (SendStep ⟨csmBase, 4⟩) quietSend lateResponse t ∧
        ∃ r ∈ t.log, ¬Correlated t.arc r := by
  refine ⟨⟨le_rfl, by decide, by decide⟩, quietSend_fresh, ?_⟩
  obtain ⟨t, hrun, hlog⟩ := Option.map_eq_some_iff.mp lateResponse_log
  obtain ⟨r, hr, hplace⟩ : ∃ r ∈ t.log, (r.request, r.response) = (1, 0) :=
    List.mem_map.mp (by rw [hlog]; exact List.mem_singleton.mpr rfl)
  refine ⟨t, run_of_runList hrun, r, hr, ?_⟩
  intro hc
  have hne := hc.place
  simp only [Prod.mk.injEq] at hplace
  omega

/-- A call that is answered in time. -/
def promptResponse : List SendEvent :=
  [pushEvents fun _ => 1, answerEvents fun _ => 5, popEvents].flatten

/-- The condition of the theorem above as a test. -/
def noneOutstanding (s : SendState) (e : SendEvent) : Bool :=
  match e with
  | .call _ bootStatus => !readyForMsg bootStatus || s.arc.pushed.length == s.arc.popped.length
  | _ => true

/-- The test decides the condition. -/
theorem noneOutstanding_sound {s : SendState} {e : SendEvent} (h : noneOutstanding s e = true) :
    NoneOutstanding s e := by
  cases e with
  | call msg bootStatus =>
    intro hready
    simpa [noneOutstanding, hready] using h
  | _ => trivial

/-- The theorem above at a run with one call that is answered in time. -/
theorem answered_calls_correlated_prompt :
    ∃ t, Run (restrict (SendStep ⟨csmBase, 4⟩) NoneOutstanding) quietSend promptResponse t ∧
      t.log.length = 1 ∧ ∀ r ∈ t.log, Correlated t.arc r := by
  have h : (runList (guarded noneOutstanding (sendNext ⟨csmBase, 4⟩)) quietSend promptResponse).map
      (fun t => t.log.length) = some 1 := by
    decide +kernel
  obtain ⟨t, hrun, hlog⟩ := Option.map_eq_some_iff.mp h
  have hrun' := run_of_guarded (fun _ _ => noneOutstanding_sound) hrun
  exact ⟨t, hrun', hlog,
    answered_calls_correlated ⟨le_rfl, by decide, by decide⟩ quietSend_fresh hrun'⟩

end TtKmd
