import TtKmd.Device.ControlCodes
import TtKmd.Device.Generation

/-!
# Requests under the reset resource

A request reads the words of the gates one after another, then its handler runs for as long as it
likes, and `RESET_DEVICE` changes these words one by one. What holds this together is
`ResetResource`: requests and the callbacks for closed handles and ended processes hold it shared,
`RESET_DEVICE` and the surprise removal hold it exclusively. Handles are created and hardware is
prepared without it, and `TtEvtFileCleanup` clears the creator of its handle behind it, when no
request is on the handle any more.

The model of the device takes the gates, the handler and the reset as one step. This file takes
every read and every write of the words as a step of its thread, and shows that the two agree:
each request has its verdict at one moment, each reset happens at one moment, both between
acquisition and release, and the verdict stays true while the handler runs.
-/

namespace TtKmd

open Lib

/-! ## The words of the gates -/

/-- What the gates and the resets read and write. -/
@[ext] structure Gates where
  /-- `Detached`. -/
  detached : Bool
  /-- `NeedsHwInit`. -/
  needsHwInit : Bool
  /-- `ResetGen`. -/
  resetGen : ℕ
  /-- `OpenResetGen` of each file object. -/
  openResetGen : Handle → ℕ
  /-- `CreatorProcess` of each file object. -/
  creatorProcess : Handle → Process
  /-- The number of the next file object. -/
  nextFile : ℕ
  /-- `SubsysVendorId` and `SubsysId`. -/
  subsystem : ℕ × ℕ
  /-- `TtEvtFileCleanup` of the file object is over. -/
  closed : Handle → Bool

/-- The words of a device. -/
def DeviceContext.gates (d : DeviceContext) : Gates :=
  ⟨d.detached, d.needsHwInit, d.resetGen, d.openResetGen, d.creatorProcess, d.nextFile,
    (d.subsysVendorId, d.subsysId), d.closed⟩

/-- A request as `TtEvtIoInCallerContext` gets it; the last two are what a `RESET_DEVICE` reads. -/
structure IoRequest where
  /-- `IoControlCode`. -/
  code : UInt32
  /-- `WdfRequestGetFileObject`. -/
  file : Option Handle
  /-- `PsGetCurrentProcess`. -/
  caller : Process
  /-- The lengths of the buffers. -/
  io : Io
  /-- The input of `RESET_DEVICE`. -/
  reset : ResetIn

/-- A write of `RESET_DEVICE`. -/
inductive GateWrite
  /-- `InterlockedIncrement64` of `ResetGen`. -/
  | increment
  /-- `OpenResetGen` of the file object becomes what the increment returned. -/
  | adopt (F : Handle)
  /-- `NeedsHwInit` is set. -/
  | raise
  /-- `NeedsHwInit` is cleared if it is set. -/
  | clear

/-- A write, with the variable `gen` of `TtBumpResetGen`. -/
def GateWrite.apply (s : Gates × ℕ) : GateWrite → Gates × ℕ
  | .increment => ({ s.1 with resetGen := s.1.resetGen + 1 }, s.1.resetGen + 1)
  | .adopt F => ({ s.1 with openResetGen := Function.update s.1.openResetGen F s.2 }, s.2)
  | .raise => ({ s.1 with needsHwInit := true }, s.2)
  | .clear => ({ s.1 with needsHwInit := false }, s.2)

/-- Writes in a row. -/
def applyWrites (writes : List GateWrite) (s : Gates × ℕ) : Gates × ℕ :=
  writes.foldl GateWrite.apply s

namespace Gates

/-- The file object is of another generation. -/
def stale (g : Gates) (file : Option Handle) : Bool :=
  file.any fun F => g.openResetGen F != g.resetGen

/-- The number is refused in the window after a reset. -/
def refuses (g : Gates) (nr : ℕ) : Bool :=
  g.needsHwInit && decide (nr ≠ maxUlong ∧ nr ≠ 0 ∧ nr ≠ 5 ∧ nr ≠ 6)

/-- The refusal of a number. -/
def refusal (nr : ℕ) : NtStatus := if nr = 0x102 then .deviceNotReady else .deviceRemoved

/-- `TtCheckIoGates`. -/
def check (g : Gates) (file : Option Handle) (nr : ℕ) : NtStatus :=
  if g.detached then .deviceRemoved
  else if g.stale file then .deviceRemoved
  else if g.refuses nr then refusal nr
  else .success

/-- `TtResetLegacyFlagPermitted`. -/
def legacyFlagPermitted (g : Gates) (flags : ℕ) : Bool :=
  if flags ≠ 2 ∧ flags ≠ 4 then true else decide (g.subsystem = (0, 0))

/-- `TtBumpResetGen`. -/
def bumpWrites (file : Option Handle) : List GateWrite :=
  .increment :: file.toList.map .adopt

/-- The writes of `TtIoctlResetDevice`. -/
def resetWrites (g : Gates) (file : Option Handle) (io : Io) (i : ResetIn) : List GateWrite :=
  if ttCopyInBuffer io 8 ≠ .success then []
  else match i.flags with
    | 2 => if g.legacyFlagPermitted 2 then bumpWrites file else []
    | 3 => bumpWrites file ++ [.raise]
    | 4 => if g.legacyFlagPermitted 4 then bumpWrites file ++ [.raise] else []
    | 5 => if g.legacyFlagPermitted 5 then bumpWrites file ++ [.raise] else []
    | 6 => [.clear]
    | _ => []

/-- `TtIoctlResetDevice`. -/
def reset (g : Gates) (file : Option Handle) (io : Io) (i : ResetIn) : Gates :=
  (applyWrites (g.resetWrites file io i) (g, 0)).1

/-- `TtEvtDeviceFileCreate`. -/
def create (g : Gates) (opener : Process) : Gates :=
  { g with
    openResetGen := Function.update g.openResetGen g.nextFile g.resetGen
    creatorProcess := Function.update g.creatorProcess g.nextFile opener
    nextFile := g.nextFile + 1 }

/-- The last write of `TtEvtFileCleanup`: `CreatorProcess` becomes `NULL`. -/
def close (g : Gates) (F : Handle) : Gates :=
  { g with
    creatorProcess := Function.update g.creatorProcess F 0
    closed := Function.update g.closed F true }

end Gates

/-! ## The model of the device -/

section Device

variable {d : DeviceContext} {F : Handle}

/-- The gates are those of the device. -/
theorem check_gates (nr : ℕ) : d.gates.check (some F) nr = ttCheckIoGates d F nr := by
  unfold Gates.check ttCheckIoGates
  simp only [Gates.stale, Gates.refuses, DeviceContext.gates, Option.any_some, bne_iff_ne,
    Bool.and_eq_true, decide_eq_true_eq]
  congr

/-- `RESET_DEVICE` does to the words what its writes do. -/
theorem reset_gates (io : Io) (i : ResetIn) (env : ResetEnv) :
    (ttIoctlResetDevice d F io i env).device.gates = d.gates.reset (some F) io i := by
  have hpermit : ∀ flags,
      ttResetLegacyFlagPermitted d flags = d.gates.legacyFlagPermitted flags := by
    intro flags
    simp [ttResetLegacyFlagPermitted, Gates.legacyFlagPermitted, DeviceContext.gates]
  have hbump : ∀ flags ok needsHwInit,
      (bumpingReset d F flags ok needsHwInit).2.gates =
        if d.gates.legacyFlagPermitted flags then
          { (applyWrites (Gates.bumpWrites (some F)) (d.gates, 0)).1 with needsHwInit }
        else d.gates := by
    intro flags ok needsHwInit
    rw [← hpermit]
    unfold bumpingReset
    cases ttResetLegacyFlagPermitted d flags <;> rfl
  unfold ttIoctlResetDevice Gates.reset Gates.resetWrites
  by_cases hin : ttCopyInBuffer io 8 ≠ .success
  · rw [if_pos hin, if_pos hin]
    rfl
  rw [if_neg hin, if_neg hin]
  obtain ⟨size, flags⟩ := i
  rcases flags with _ | _ | _ | _ | _ | _ | _ | flags
  · rfl
  · rfl
  · refine (hbump 2 env.pcieTimerInterrupt d.needsHwInit).trans ?_
    show _ = (applyWrites (if d.gates.legacyFlagPermitted 2 then _ else _) (d.gates, 0)).1
    split <;> rfl
  · exact hbump 3 true true
  · refine (hbump 4 (d.config.isBlackhole && env.bhReset) true).trans ?_
    show _ = (applyWrites (if d.gates.legacyFlagPermitted 4 then _ else _) (d.gates, 0)).1
    split <;> rfl
  · exact hbump 5 (d.config.isBlackhole && env.bhReset) true
  · cases hwindow : d.needsHwInit
    · simp [resetFlavor, applyWrites, GateWrite.apply, DeviceContext.gates, hwindow]
    · simp [resetFlavor, applyWrites, GateWrite.apply, DeviceContext.gates, hwindow]
  · rfl

end Device

/-! ## Requests one at a time -/

/-- How a request is served. -/
def IoRequest.dispatch (debugInterfaces : Bool) (r : IoRequest) : Dispatch :=
  ttEvtIoInCallerContext debugInterfaces r.file.isSome r.code.toNat

/-- What happens to the words of the gates. -/
inductive GateEvent
  /-- A handle is opened. -/
  | create (opener : Process)
  /-- The creator of a handle that was closed is cleared. -/
  | close (F : Handle)
  /-- The hardware is prepared. -/
  | prepare (needsHwInit : Bool)
  /-- The device is gone. -/
  | removal
  /-- A request has its verdict, and is no reset that has passed. -/
  | request (r : IoRequest) (status : NtStatus)
  /-- A reset passes, and changes the words. -/
  | reset (r : IoRequest)

section Atomic

variable (debugInterfaces : Bool)

/-- The handle was opened by another process, and the request needs its opener. -/
def Gates.wrongProcess (g : Gates) (r : IoRequest) : Bool :=
  (r.dispatch debugInterfaces).inCallerContext &&
    r.file.any fun F => g.creatorProcess F != r.caller

/-- The gates and the test of the process. -/
def Gates.verdict (g : Gates) (r : IoRequest) : NtStatus :=
  if g.check r.file (r.dispatch debugInterfaces).gateNr ≠ .success then
    g.check r.file (r.dispatch debugInterfaces).gateNr
  else if g.wrongProcess debugInterfaces r then .accessDenied
  else .success

/-- One event. -/
def Gates.next (g : Gates) : GateEvent → Option Gates
  | .create opener => some (g.create opener)
  | .close F => some (g.close F)
  | .prepare needsHwInit => some { g with needsHwInit }
  | .removal => some { g with detached := true }
  | .request r status =>
      if g.verdict debugInterfaces r = status ∧
          (status = .success → (r.dispatch debugInterfaces).exclusive = false) then some g
      else none
  | .reset r =>
      if g.verdict debugInterfaces r = .success ∧ (r.dispatch debugInterfaces).exclusive = true then
        some (g.reset r.file r.io r.reset)
      else none

end Atomic

/-! ## Requests step by step -/

/-- Where a request stands that has the reset resource. -/
inductive RequestStage
  /-- Before the read of `Detached`. -/
  | detached
  /-- Before the read of `OpenResetGen`. -/
  | openResetGen
  /-- Before the read of `ResetGen`. -/
  | resetGen (openGen : Option ℕ)
  /-- Before the read of `NeedsHwInit`, and the test of the process. -/
  | needsHwInit
  /-- In its handler. -/
  | serving
  /-- In `TtIoctlResetDevice`, with the writes to come; `begun` after the first one. -/
  | resetting (begun : Bool) (gen : ℕ) (rest : List GateWrite)
  /-- Before `TtResetRelease`. -/
  | leaving

/-- What takes the reset resource. -/
inductive DispatchEntry
  /-- A request. -/
  | request (r : IoRequest)
  /-- `TtEvtDeviceSurpriseRemoval`, or `TtEvtFileCleanup` or `TtProcessNotify`. -/
  | callback (removal : Bool)

/-- Where a thread stands. -/
inductive DispatchPhase
  /-- Outside. -/
  | idle
  /-- In `TtResetAcquireShared` or `TtResetAcquireExclusive`. -/
  | waiting (e : DispatchEntry)
  /-- In a request. -/
  | inside (r : IoRequest) (stage : RequestStage)
  /-- In a callback. -/
  | callback (removal : Bool)

/-- The steps of the threads, and what happens without the resource. -/
inductive DispatchEvent (τ : Type*)
  /-- A thread comes to the reset resource. -/
  | call (t : τ) (e : DispatchEntry)
  /-- The reset resource is acquired. -/
  | acquire (t : τ)
  /-- A read that does not decide. -/
  | read (t : τ)
  /-- A read that decides. -/
  | decide (t : τ) (r : IoRequest) (status : NtStatus)
  /-- The first write of a reset, or the last read of one without writes. -/
  | reset (t : τ) (r : IoRequest)
  /-- Another write of a reset. -/
  | write (t : τ)
  /-- `Detached` is set. -/
  | detach (t : τ)
  /-- Anything else that a handler or a callback does to the device. -/
  | work (t : τ)
  /-- A handler returns. -/
  | done (t : τ)
  /-- `TtResetRelease`. -/
  | release (t : τ)
  /-- `TtEvtDeviceFileCreate`. -/
  | create (opener : Process)
  /-- `TtEvtFileCleanup` clears `CreatorProcess`, behind `TtResetRelease`. -/
  | close (F : Handle)
  /-- `TtEvtDevicePrepareHardware`. -/
  | prepare (needsHwInit : Bool)

/-- What the threads see of one another. -/
structure DispatchWorld (τ : Type*) where
  /-- The device. -/
  device : DeviceContext
  /-- The threads. -/
  phase : τ → DispatchPhase

/-- What an event is for the words of the gates. -/
def DispatchEvent.seen {τ : Type*} : DispatchEvent τ → Option GateEvent
  | .decide _ r status => some (.request r status)
  | .reset _ r => some (.reset r)
  | .detach _ => some .removal
  | .create opener => some (.create opener)
  | .close F => some (.close F)
  | .prepare needsHwInit => some (.prepare needsHwInit)
  | _ => none

/-- The words of the gates. -/
def DispatchWorld.gates {τ : Type*} (w : DispatchWorld τ) : Gates := w.device.gates

/-- The device before the first request. -/
def DispatchWorld.start (τ : Type*) (d : DeviceContext) : DispatchWorld τ := ⟨d, fun _ => .idle⟩

/-- The stage behind the gates. -/
def Route.stage : Route → RequestStage
  | .handler _ => .serving
  | .completed _ => .leaving

section Steps

variable {τ : Type*} [DecidableEq τ]

/-- A thread goes on, with a device that may have changed. -/
def DispatchWorld.move (w : DispatchWorld τ) (t : τ) (p : DispatchPhase) (d : DeviceContext) :
    DispatchWorld τ :=
  ⟨d, Function.update w.phase t p⟩

variable (debugInterfaces : Bool)

/-- The resource is taken exclusively. -/
def DispatchEntry.exclusive : DispatchEntry → Bool
  | .request r => (r.dispatch debugInterfaces).exclusive
  | .callback removal => removal

/-- The thread inside. -/
def DispatchEntry.entered : DispatchEntry → DispatchPhase
  | .request r => .inside r .detached
  | .callback removal => .callback removal

/-- The thread has the resource. -/
def DispatchPhase.holds : DispatchPhase → Bool
  | .inside _ _ => true
  | .callback _ => true
  | _ => false

/-- The thread has the resource exclusively. -/
def DispatchPhase.excludes : DispatchPhase → Bool
  | .inside r _ => (r.dispatch debugInterfaces).exclusive
  | .callback removal => removal
  | _ => false

/-- The thread serves a request of the queue. -/
def DispatchPhase.queued : DispatchPhase → Bool
  | .inside r _ => !(r.dispatch debugInterfaces).inCallerContext
  | _ => false

/-- The thread has a request on the file object. -/
def DispatchPhase.on (F : Handle) : DispatchPhase → Bool
  | .waiting (.request r) => decide (r.file = some F)
  | .inside r _ => decide (r.file = some F)
  | _ => false

/-- One step. The framework prepares the hardware when no request of the queue is being served, and
there is no request on a file object whose cleanup is over. -/
inductive DispatchStep : DispatchWorld τ → DispatchEvent τ → DispatchWorld τ → Prop
  /-- A request comes on a file object that was created and is not closed. -/
  | call {w : DispatchWorld τ} {t : τ} {e : DispatchEntry} (hidle : w.phase t = .idle)
      (hfile : ∀ r F, e = .request r → r.file = some F →
        F < w.gates.nextFile ∧ w.gates.closed F = false) :
      DispatchStep w (.call t e) (w.move t (.waiting e) w.device)
  /-- The resource is granted. -/
  | acquire {w : DispatchWorld τ} {t : τ} {e : DispatchEntry} (hwaiting : w.phase t = .waiting e)
      (hshared : ∀ u, (w.phase u).excludes debugInterfaces = false)
      (hexclusive : e.exclusive debugInterfaces = true → ∀ u, (w.phase u).holds = false) :
      DispatchStep w (.acquire t) (w.move t e.entered w.device)
  /-- The device is there. -/
  | present {w : DispatchWorld τ} {t : τ} {r : IoRequest}
      (hphase : w.phase t = .inside r .detached) (hdetached : w.gates.detached = false) :
      DispatchStep w (.read t) (w.move t (.inside r .openResetGen) w.device)
  /-- The device is gone. -/
  | gone {w : DispatchWorld τ} {t : τ} {r : IoRequest}
      (hphase : w.phase t = .inside r .detached) (hdetached : w.gates.detached = true) :
      DispatchStep w (.decide t r .deviceRemoved) (w.move t (.inside r .leaving) w.device)
  /-- `OpenResetGen`, of a file object. -/
  | openResetGen {w : DispatchWorld τ} {t : τ} {r : IoRequest}
      (hphase : w.phase t = .inside r .openResetGen) :
      DispatchStep w (.read t)
        (w.move t (.inside r (.resetGen (r.file.map w.gates.openResetGen))) w.device)
  /-- The generation is that of the device. -/
  | current {w : DispatchWorld τ} {t : τ} {r : IoRequest} {openGen : Option ℕ}
      (hphase : w.phase t = .inside r (.resetGen openGen))
      (hgen : ∀ gen, openGen = some gen → gen = w.gates.resetGen) :
      DispatchStep w (.read t) (w.move t (.inside r .needsHwInit) w.device)
  /-- The generation is another one. -/
  | stale {w : DispatchWorld τ} {t : τ} {r : IoRequest} {gen : ℕ}
      (hphase : w.phase t = .inside r (.resetGen (some gen))) (hgen : gen ≠ w.gates.resetGen) :
      DispatchStep w (.decide t r .deviceRemoved) (w.move t (.inside r .leaving) w.device)
  /-- The request is refused in the window. -/
  | refused {w : DispatchWorld τ} {t : τ} {r : IoRequest}
      (hphase : w.phase t = .inside r .needsHwInit)
      (hwindow : w.gates.refuses (r.dispatch debugInterfaces).gateNr = true) :
      DispatchStep w (.decide t r (Gates.refusal (r.dispatch debugInterfaces).gateNr))
        (w.move t (.inside r .leaving) w.device)
  /-- The test of the process fails. -/
  | wrongProcess {w : DispatchWorld τ} {t : τ} {r : IoRequest}
      (hphase : w.phase t = .inside r .needsHwInit)
      (hwindow : w.gates.refuses (r.dispatch debugInterfaces).gateNr = false)
      (hprocess : w.gates.wrongProcess debugInterfaces r = true) :
      DispatchStep w (.decide t r .accessDenied) (w.move t (.inside r .leaving) w.device)
  /-- The request has passed. -/
  | passed {w : DispatchWorld τ} {t : τ} {r : IoRequest}
      (hphase : w.phase t = .inside r .needsHwInit)
      (hwindow : w.gates.refuses (r.dispatch debugInterfaces).gateNr = false)
      (hprocess : w.gates.wrongProcess debugInterfaces r = false)
      (hshared : (r.dispatch debugInterfaces).exclusive = false) :
      DispatchStep w (.decide t r .success)
        (w.move t (.inside r (r.dispatch debugInterfaces).route.stage) w.device)
  /-- A reset that writes nothing. -/
  | resetNothing {w : DispatchWorld τ} {t : τ} {r : IoRequest}
      (hphase : w.phase t = .inside r .needsHwInit)
      (hexclusive : (r.dispatch debugInterfaces).exclusive = true)
      (hwrites : w.gates.resetWrites r.file r.io r.reset = []) :
      DispatchStep w (.reset t r) (w.move t (.inside r .leaving) w.device)
  /-- A reset that writes. -/
  | resetPassed {w : DispatchWorld τ} {t : τ} {r : IoRequest}
      (hphase : w.phase t = .inside r .needsHwInit)
      (hexclusive : (r.dispatch debugInterfaces).exclusive = true)
      (hwrites : w.gates.resetWrites r.file r.io r.reset ≠ []) :
      DispatchStep w (.read t)
        (w.move t (.inside r (.resetting false 0 (w.gates.resetWrites r.file r.io r.reset)))
          w.device)
  /-- The first write. -/
  | resetFirst {w : DispatchWorld τ} {t : τ} {r : IoRequest} {gen : ℕ} {x : GateWrite}
      {rest : List GateWrite} {d : DeviceContext}
      (hphase : w.phase t = .inside r (.resetting false gen (x :: rest)))
      (hd : d.gates = (x.apply (w.gates, gen)).1) :
      DispatchStep w (.reset t r)
        (w.move t (.inside r (.resetting true (x.apply (w.gates, gen)).2 rest)) d)
  /-- Another write. -/
  | resetMore {w : DispatchWorld τ} {t : τ} {r : IoRequest} {gen : ℕ} {x : GateWrite}
      {rest : List GateWrite} {d : DeviceContext}
      (hphase : w.phase t = .inside r (.resetting true gen (x :: rest)))
      (hd : d.gates = (x.apply (w.gates, gen)).1) :
      DispatchStep w (.write t)
        (w.move t (.inside r (.resetting true (x.apply (w.gates, gen)).2 rest)) d)
  /-- The reset returns. -/
  | resetDone {w : DispatchWorld τ} {t : τ} {r : IoRequest} {gen : ℕ}
      (hphase : w.phase t = .inside r (.resetting true gen [])) :
      DispatchStep w (.done t) (w.move t (.inside r .leaving) w.device)
  /-- A handler returns. -/
  | served {w : DispatchWorld τ} {t : τ} {r : IoRequest}
      (hphase : w.phase t = .inside r .serving) :
      DispatchStep w (.done t) (w.move t (.inside r .leaving) w.device)
  /-- A handler or a callback changes the rest of the device. -/
  | work {w : DispatchWorld τ} {t : τ} {d : DeviceContext} (hholds : (w.phase t).holds = true)
      (hd : d.gates = w.gates) : DispatchStep w (.work t) (w.move t (w.phase t) d)
  /-- The surprise removal. -/
  | detach {w : DispatchWorld τ} {t : τ} {d : DeviceContext} (hphase : w.phase t = .callback true)
      (hd : d.gates = { w.gates with detached := true }) :
      DispatchStep w (.detach t) (w.move t (.callback true) d)
  /-- A request leaves. -/
  | leave {w : DispatchWorld τ} {t : τ} {r : IoRequest}
      (hphase : w.phase t = .inside r .leaving) :
      DispatchStep w (.release t) (w.move t .idle w.device)
  /-- A callback leaves. -/
  | callbackLeaves {w : DispatchWorld τ} {t : τ} {removal : Bool}
      (hphase : w.phase t = .callback removal) :
      DispatchStep w (.release t) (w.move t .idle w.device)
  /-- A handle is created. -/
  | create {w : DispatchWorld τ} {opener : Process} {d : DeviceContext}
      (hd : d.gates = w.gates.create opener) :
      DispatchStep w (.create opener) { w with device := d }
  /-- A handle is closed. -/
  | close {w : DispatchWorld τ} {F : Handle} {d : DeviceContext} (hfile : F < w.gates.nextFile)
      (hunused : ∀ u, (w.phase u).on F = false) (hd : d.gates = w.gates.close F) :
      DispatchStep w (.close F) { w with device := d }
  /-- The hardware is prepared. -/
  | prepare {w : DispatchWorld τ} {needsHwInit : Bool} {d : DeviceContext}
      (hqueue : ∀ u, (w.phase u).queued debugInterfaces = false)
      (hd : d.gates = { w.gates with needsHwInit }) :
      DispatchStep w (.prepare needsHwInit) { w with device := d }

end Steps

/-! ## What each thread knows -/

section Knowledge

variable {debugInterfaces : Bool} {g : Gates} {r : IoRequest} {p : DispatchPhase}

/-- The file object was created. -/
def Gates.Created (g : Gates) (r : IoRequest) : Prop := ∀ F, r.file = some F → F < g.nextFile

/-- The file object is of the generation of the device. -/
def Gates.Fresh (g : Gates) (r : IoRequest) : Prop :=
  ∀ F, r.file = some F → g.openResetGen F = g.resetGen

/-- A write that can follow the first one of a reset. -/
def GateWrite.Later (file : Option Handle) : GateWrite → Prop
  | .increment => False
  | .adopt F => file = some F
  | _ => True

/-- What a request knows of the gates from the words it has read. -/
def RequestStage.Knows (debugInterfaces : Bool) (g : Gates) (r : IoRequest) : RequestStage → Prop
  | .detached => True
  | .openResetGen => g.detached = false
  | .resetGen openGen => g.detached = false ∧ openGen = r.file.map g.openResetGen
  | .needsHwInit => g.detached = false ∧ g.Fresh r
  | .serving =>
      g.detached = false ∧ g.Fresh r ∧ g.wrongProcess debugInterfaces r = false ∧
        ((r.dispatch debugInterfaces).inCallerContext = false →
          g.refuses (r.dispatch debugInterfaces).gateNr = false)
  | .resetting false gen rest =>
      g.detached = false ∧ g.Fresh r ∧ (r.dispatch debugInterfaces).exclusive = true ∧
        gen = 0 ∧ rest = g.resetWrites r.file r.io r.reset
  | .resetting true _ rest =>
      (r.dispatch debugInterfaces).exclusive = true ∧ ∀ x ∈ rest, x.Later r.file
  | .leaving => True

/-- What a thread knows of the gates. -/
def DispatchPhase.Knows (debugInterfaces : Bool) (g : Gates) : DispatchPhase → Prop
  | .waiting (.request r) => g.Created r
  | .inside r stage => g.Created r ∧ stage.Knows debugInterfaces g r
  | _ => True

/-- The writes of a reset that has begun. -/
def DispatchPhase.pending : DispatchPhase → Option (ℕ × List GateWrite)
  | .inside _ (.resetting true gen rest) => some (gen, rest)
  | _ => none

/-- A request that takes the resource exclusively is a reset on the queue. -/
theorem dispatch_of_exclusive (h : (r.dispatch debugInterfaces).exclusive = true) :
    (r.dispatch debugInterfaces).gateNr = 6 ∧
      (r.dispatch debugInterfaces).inCallerContext = false := by
  have hcode : r.code.toNat < 2 ^ 32 := r.code.toNat_lt
  have hroute := (exclusive_iff hcode).mp h
  exact dispatch_of_handler hroute hcode

/-- The writes behind the first one. -/
theorem later_of_resetWrites {io : Io} {i : ResetIn} {file : Option Handle} {x : GateWrite}
    {rest : List GateWrite} (h : g.resetWrites file io i = x :: rest) :
    ∀ y ∈ rest, y.Later file := by
  have hbump : ∀ y ∈ file.toList.map GateWrite.adopt, y.Later file := by
    intro y hy
    obtain ⟨F, hF, rfl⟩ := List.mem_map.mp hy
    exact Option.mem_toList.mp hF
  have hraise : ∀ y ∈ file.toList.map GateWrite.adopt ++ [.raise], y.Later file := by
    intro y hy
    rcases List.mem_append.mp hy with hy | hy
    · exact hbump y hy
    · obtain rfl := List.mem_singleton.mp hy
      trivial
  unfold Gates.resetWrites Gates.bumpWrites at h
  split at h
  · cases h
  split at h
  · split at h
    · cases h
      exact hbump
    · cases h
  · cases h
    exact hraise
  · split at h
    · cases h
      exact hraise
    · cases h
  · split at h
    · cases h
      exact hraise
    · cases h
  · cases h
    simp
  · cases h

/-- A thread without the resource knows nothing that can change. -/
theorem DispatchPhase.Knows.outside {g' : Gates} (h : p.Knows debugInterfaces g)
    (hp : p.holds = false) (hfile : g.nextFile ≤ g'.nextFile) : p.Knows debugInterfaces g' := by
  cases p with
  | idle => trivial
  | waiting e =>
    cases e with
    | request r => exact fun F hF => Nat.lt_of_lt_of_le (h F hF) hfile
    | callback removal => trivial
  | inside r stage => cases hp
  | callback removal => cases hp

/-- What is known about a request stays true when a handle is created. -/
theorem DispatchPhase.Knows.create (h : p.Knows debugInterfaces g) (opener : Process) :
    p.Knows debugInterfaces (g.create opener) := by
  cases hp : p.holds with
  | false => exact h.outside hp (Nat.le_succ _)
  | true =>
    cases p with
    | idle => cases hp
    | waiting e => cases hp
    | callback removal => trivial
    | inside r stage =>
      obtain ⟨hcreated, hknows⟩ := h
      have hgen : ∀ F, r.file = some F →
          (g.create opener).openResetGen F = g.openResetGen F := by
        intro F hF
        have hlt := hcreated F hF
        exact Function.update_of_ne (Nat.ne_of_lt hlt) _ _
      have hfresh : g.Fresh r → (g.create opener).Fresh r := by
        intro hfresh F hF
        rw [hgen F hF]
        exact hfresh F hF
      refine ⟨fun F hF => Nat.lt_succ_of_lt (hcreated F hF), ?_⟩
      cases stage with
      | detached => trivial
      | openResetGen => exact hknows
      | resetGen openGen =>
        refine ⟨hknows.1, ?_⟩
        rw [hknows.2]
        cases hfile : r.file with
        | none => rfl
        | some F => exact congrArg some (hgen F hfile).symm
      | needsHwInit => exact ⟨hknows.1, hfresh hknows.2⟩
      | serving =>
        have hprocess : (g.create opener).wrongProcess debugInterfaces r =
            g.wrongProcess debugInterfaces r := by
          unfold Gates.wrongProcess
          cases hfile : r.file with
          | none => rfl
          | some F =>
            have hsame : (g.create opener).creatorProcess F = g.creatorProcess F :=
              Function.update_of_ne (Nat.ne_of_lt (hcreated F hfile)) _ _
            simp only [Option.any_some, hsame]
        exact ⟨hknows.1, hfresh hknows.2.1, hprocess.trans hknows.2.2.1, hknows.2.2.2⟩
      | resetting begun gen rest =>
        cases begun with
        | false => exact ⟨hknows.1, hfresh hknows.2.1, hknows.2.2⟩
        | true => exact hknows
      | leaving => trivial

/-- What is known about a request stays true when another handle is closed. -/
theorem DispatchPhase.Knows.close {F : Handle} (h : p.Knows debugInterfaces g)
    (hunused : p.on F = false) : p.Knows debugInterfaces (g.close F) := by
  cases p with
  | idle => trivial
  | waiting e =>
    cases e with
    | request r => exact h
    | callback removal => trivial
  | callback removal => trivial
  | inside r stage =>
    obtain ⟨hcreated, hknows⟩ := h
    refine ⟨hcreated, ?_⟩
    cases stage with
    | serving =>
      have hother : r.file ≠ some F := by simpa [DispatchPhase.on] using hunused
      have hprocess : (g.close F).wrongProcess debugInterfaces r =
          g.wrongProcess debugInterfaces r := by
        unfold Gates.wrongProcess
        cases hfile : r.file with
        | none => rfl
        | some G =>
          have hne : G ≠ F := by
            rintro rfl
            exact hother hfile
          have hsame : (g.close F).creatorProcess G = g.creatorProcess G :=
            Function.update_of_ne hne _ _
          simp only [Option.any_some, hsame]
      exact ⟨hknows.1, hknows.2.1, hprocess.trans hknows.2.2.1, hknows.2.2.2⟩
    | resetting begun gen rest =>
      cases begun with
      | false => exact hknows
      | true => exact hknows
    | detached => trivial
    | openResetGen => exact hknows
    | resetGen openGen => exact hknows
    | needsHwInit => exact hknows
    | leaving => trivial

/-- What is known about a request that is not on the queue stays true when the hardware is
prepared. -/
theorem DispatchPhase.Knows.prepare (h : p.Knows debugInterfaces g)
    (hqueue : p.queued debugInterfaces = false) (needsHwInit : Bool) :
    p.Knows debugInterfaces { g with needsHwInit } := by
  cases p with
  | idle => trivial
  | waiting e =>
    cases e with
    | request r => exact h
    | callback removal => trivial
  | callback removal => trivial
  | inside r stage =>
    have hcaller : (r.dispatch debugInterfaces).inCallerContext = true := by
      simpa [DispatchPhase.queued] using hqueue
    obtain ⟨hcreated, hknows⟩ := h
    refine ⟨hcreated, ?_⟩
    cases stage with
    | serving =>
      refine ⟨hknows.1, hknows.2.1, hknows.2.2.1, fun hnot => ?_⟩
      rw [hcaller] at hnot
      cases hnot
    | resetting begun gen rest =>
      cases begun with
      | false => exact hknows
      | true => exact hknows
    | detached => trivial
    | openResetGen => exact hknows
    | resetGen openGen => exact hknows
    | needsHwInit => exact hknows
    | leaving => trivial

/-- A file object of the generation of the device is not stale. -/
theorem Gates.stale_of_fresh (hfresh : g.Fresh r) : g.stale r.file = false := by
  unfold Gates.stale
  cases hfile : r.file with
  | none => rfl
  | some F => simp [hfresh F hfile]

/-- The verdict on a request that has read every word but the last. -/
theorem Gates.check_of_fresh (hdetached : g.detached = false) (hfresh : g.Fresh r) (nr : ℕ) :
    g.check r.file nr = if g.refuses nr then refusal nr else .success := by
  simp [Gates.check, hdetached, Gates.stale_of_fresh hfresh]

/-- A request that finds the device gone. -/
theorem Gates.verdict_of_gone (h : g.detached = true) :
    g.verdict debugInterfaces r = .deviceRemoved := by
  simp [Gates.verdict, Gates.check, h]

/-- A request that finds another generation. -/
theorem Gates.verdict_of_stale (hdetached : g.detached = false) (hstale : g.stale r.file = true) :
    g.verdict debugInterfaces r = .deviceRemoved := by
  simp [Gates.verdict, Gates.check, hdetached, hstale]

/-- A request that is refused in the window. -/
theorem Gates.verdict_of_refused (hdetached : g.detached = false) (hfresh : g.Fresh r)
    (hwindow : g.refuses (r.dispatch debugInterfaces).gateNr = true) :
    g.verdict debugInterfaces r = refusal (r.dispatch debugInterfaces).gateNr := by
  have hne : refusal (r.dispatch debugInterfaces).gateNr ≠ .success := by
    unfold refusal
    split <;> decide
  simp [Gates.verdict, Gates.check_of_fresh hdetached hfresh, hwindow, hne]

/-- A request that the gates let pass. -/
theorem Gates.verdict_of_open (hdetached : g.detached = false) (hfresh : g.Fresh r)
    (hwindow : g.refuses (r.dispatch debugInterfaces).gateNr = false) :
    g.verdict debugInterfaces r =
      if g.wrongProcess debugInterfaces r then .accessDenied else .success := by
  simp [Gates.verdict, Gates.check_of_fresh hdetached hfresh, hwindow]

/-- A reset passes a device that is there, on a handle of its generation. -/
theorem Gates.verdict_of_exclusive (hdetached : g.detached = false) (hfresh : g.Fresh r)
    (hexclusive : (r.dispatch debugInterfaces).exclusive = true) :
    g.verdict debugInterfaces r = .success := by
  obtain ⟨hnr, hcaller⟩ := dispatch_of_exclusive hexclusive
  have hwindow : g.refuses (r.dispatch debugInterfaces).gateNr = false := by
    rw [hnr]
    simp [Gates.refuses]
  rw [Gates.verdict_of_open hdetached hfresh hwindow]
  simp [Gates.wrongProcess, hcaller]

/-- The writes do not create handles. -/
theorem GateWrite.nextFile_apply (x : GateWrite) (s : Gates × ℕ) :
    (x.apply s).1.nextFile = s.1.nextFile := by
  cases x <;> rfl

/-- A handle is created in the midst of a reset as it is behind it. -/
theorem applyWrites_create {file : Option Handle} {writes : List GateWrite} {gen : ℕ}
    (hlater : ∀ x ∈ writes, x.Later file) (hfile : ∀ F, file = some F → F < g.nextFile)
    (opener : Process) :
    (applyWrites writes (g.create opener, gen)).1 =
      (applyWrites writes (g, gen)).1.create opener := by
  induction writes generalizing g with
  | nil => rfl
  | cons x writes ih =>
    have hrest : ∀ y ∈ writes, y.Later file := fun y hy => hlater y (List.mem_cons_of_mem x hy)
    have hx := hlater x List.mem_cons_self
    cases x with
    | increment => exact hx.elim
    | adopt F =>
      have hlt := hfile F hx
      have hcomm : GateWrite.apply (g.create opener, gen) (.adopt F) =
          ((GateWrite.apply (g, gen) (.adopt F)).1.create opener, gen) := by
        simp only [GateWrite.apply, Gates.create]
        rw [Function.update_comm (Nat.ne_of_lt hlt).symm]
      show (applyWrites writes (GateWrite.apply (g.create opener, gen) (.adopt F))).1 = _
      rw [hcomm]
      exact ih hrest hfile
    | raise => exact ih (g := { g with needsHwInit := true }) hrest hfile
    | clear => exact ih (g := { g with needsHwInit := false }) hrest hfile

/-- A handle is closed in the midst of a reset as it is behind it. -/
theorem applyWrites_close (writes : List GateWrite) (gen : ℕ) (F : Handle) :
    (applyWrites writes (g.close F, gen)).1 = (applyWrites writes (g, gen)).1.close F := by
  induction writes generalizing g gen with
  | nil => rfl
  | cons x writes ih =>
    cases x with
    | increment => exact @ih { g with resetGen := g.resetGen + 1 } (g.resetGen + 1)
    | adopt G => exact @ih { g with openResetGen := Function.update g.openResetGen G gen } gen
    | raise => exact @ih { g with needsHwInit := true } gen
    | clear => exact @ih { g with needsHwInit := false } gen

end Knowledge

/-! ## One moment for each request -/

section Agreement

variable {τ : Type*} {debugInterfaces : Bool} {w : DispatchWorld τ} {g : Gates} {t : τ}
  {p : DispatchPhase} {d : DeviceContext}

/-- The threads agree with the requests taken one at a time: a reset that has begun counts as
done. -/
structure DispatchWorld.Agrees (debugInterfaces : Bool) (w : DispatchWorld τ) (g : Gates) :
    Prop where
  /-- Who has the resource exclusively is alone. -/
  alone : ∀ t u, (w.phase t).excludes debugInterfaces = true → (w.phase u).holds = true → u = t
  /-- What the threads know is true. -/
  knows : ∀ t, (w.phase t).Knows debugInterfaces w.gates
  /-- A reset has begun. -/
  begun : ∀ t s, (w.phase t).pending = some s → g = (applyWrites s.2 (w.gates, s.1)).1
  /-- No reset has begun. -/
  settled : (∀ t, (w.phase t).pending = none) → g = w.gates

/-- A reset that has begun. -/
theorem DispatchPhase.of_pending {s : ℕ × List GateWrite} (hknows : p.Knows debugInterfaces g)
    (h : p.pending = some s) :
    ∃ r, p = .inside r (.resetting true s.1 s.2) ∧ g.Created r ∧
      (r.dispatch debugInterfaces).exclusive = true ∧ ∀ x ∈ s.2, x.Later r.file := by
  cases p with
  | idle => cases h
  | waiting e => cases h
  | callback removal => cases h
  | inside r stage =>
    cases stage with
    | resetting begun gen rest =>
      cases begun with
      | false => cases h
      | true =>
        obtain rfl := Option.some.inj h
        exact ⟨r, rfl, hknows⟩
    | _ => cases h

/-- A reset that has begun has the resource exclusively. -/
theorem DispatchPhase.excludes_of_pending {s : ℕ × List GateWrite}
    (hknows : p.Knows debugInterfaces g) (h : p.pending = some s) :
    p.excludes debugInterfaces = true := by
  obtain ⟨r, rfl, -, hexclusive, -⟩ := DispatchPhase.of_pending hknows h
  exact hexclusive

/-- A phase that excludes the others holds the resource. -/
theorem DispatchPhase.holds_of_excludes (h : p.excludes debugInterfaces = true) :
    p.holds = true := by
  cases p <;> first | rfl | cases h

/-- While a thread has the resource and no reset of its own has begun, none has. -/
theorem DispatchWorld.Agrees.eq_gates (h : w.Agrees debugInterfaces g) (hphase : w.phase t = p)
    (hholds : p.holds = true) (hpending : p.pending = none) : g = w.gates := by
  apply h.settled
  intro u
  cases hu : (w.phase u).pending with
  | none => rfl
  | some s =>
    have hexcludes := DispatchPhase.excludes_of_pending (h.knows u) hu
    obtain rfl := h.alone u t hexcludes (by rw [hphase, hholds])
    rw [hphase, hpending] at hu
    cases hu

/-- What a thread inside knows of the words. -/
theorem DispatchWorld.Agrees.stageKnows {r : IoRequest} {stage : RequestStage}
    (h : w.Agrees debugInterfaces g) (hphase : w.phase t = .inside r stage) :
    w.gates.Created r ∧ stage.Knows debugInterfaces w.gates r := by
  have hold := h.knows t
  rwa [hphase] at hold

/-- A request decides on the words of the device. -/
theorem DispatchWorld.Agrees.decides {r : IoRequest} {stage : RequestStage} {status : NtStatus}
    (h : w.Agrees debugInterfaces g) (hphase : w.phase t = .inside r stage)
    (hpending : (DispatchPhase.inside r stage).pending = none)
    (hverdict : w.gates.verdict debugInterfaces r = status)
    (hshared : status = .success → (r.dispatch debugInterfaces).exclusive = false) :
    partialGraph (Gates.next debugInterfaces) g (.request r status) g := by
  rw [← h.eq_gates hphase rfl hpending] at hverdict
  exact if_pos ⟨hverdict, hshared⟩

/-- A reset passes on the words of the device. -/
theorem DispatchWorld.Agrees.resets {r : IoRequest} {stage : RequestStage}
    (h : w.Agrees debugInterfaces g) (hphase : w.phase t = .inside r stage)
    (hpending : (DispatchPhase.inside r stage).pending = none)
    (hdetached : w.gates.detached = false) (hfresh : w.gates.Fresh r)
    (hexclusive : (r.dispatch debugInterfaces).exclusive = true) :
    partialGraph (Gates.next debugInterfaces) g (.reset r)
      (w.gates.reset r.file r.io r.reset) := by
  rw [h.eq_gates hphase rfl hpending]
  exact if_pos ⟨Gates.verdict_of_exclusive hdetached hfresh hexclusive, hexclusive⟩

/-- Something happens without the resource. -/
theorem DispatchWorld.Agrees.outside {g' : Gates} (h : w.Agrees debugInterfaces g)
    (hknows : ∀ u, (w.phase u).Knows debugInterfaces d.gates)
    (hbegun : ∀ u s, (w.phase u).pending = some s → g' = (applyWrites s.2 (d.gates, s.1)).1)
    (hsettled : (∀ u, (w.phase u).pending = none) → g' = d.gates) :
    DispatchWorld.Agrees debugInterfaces { w with device := d } g' :=
  ⟨h.alone, hknows, hbegun, hsettled⟩

/-- A handle is created, also while a reset goes on. -/
theorem DispatchWorld.Agrees.create {opener : Process} (h : w.Agrees debugInterfaces g)
    (hd : d.gates = w.gates.create opener) :
    DispatchWorld.Agrees debugInterfaces { w with device := d } (g.create opener) := by
  apply h.outside
  · intro u
    rw [hd]
    exact (h.knows u).create opener
  · intro u s hs
    obtain ⟨r, -, hfile, -, hlater⟩ := DispatchPhase.of_pending (h.knows u) hs
    rw [h.begun u s hs, hd]
    exact (applyWrites_create hlater hfile opener).symm
  · intro hnone
    rw [h.settled hnone, hd]

/-- A handle is closed, also while a reset goes on. -/
theorem DispatchWorld.Agrees.close {F : Handle} (h : w.Agrees debugInterfaces g)
    (hunused : ∀ u, (w.phase u).on F = false) (hd : d.gates = w.gates.close F) :
    DispatchWorld.Agrees debugInterfaces { w with device := d } (g.close F) := by
  apply h.outside
  · intro u
    rw [hd]
    exact (h.knows u).close (hunused u)
  · intro u s hs
    rw [h.begun u s hs, hd]
    exact (applyWrites_close s.2 s.1 F).symm
  · intro hnone
    rw [h.settled hnone, hd]

/-- The hardware is prepared: no reset has begun then. -/
theorem DispatchWorld.Agrees.prepare {needsHwInit : Bool} (h : w.Agrees debugInterfaces g)
    (hqueue : ∀ u, (w.phase u).queued debugInterfaces = false)
    (hd : d.gates = { w.gates with needsHwInit }) :
    DispatchWorld.Agrees debugInterfaces { w with device := d } { g with needsHwInit } := by
  have hnone : ∀ u, (w.phase u).pending = none := by
    intro u
    cases hu : (w.phase u).pending with
    | none => rfl
    | some s =>
      obtain ⟨r, hphase, -, hexclusive, -⟩ := DispatchPhase.of_pending (h.knows u) hu
      have hqueued := hqueue u
      rw [hphase, DispatchPhase.queued, (dispatch_of_exclusive hexclusive).2] at hqueued
      cases hqueued
  apply h.outside
  · intro u
    rw [hd]
    exact (h.knows u).prepare (hqueue u) needsHwInit
  · intro u s hs
    rw [hnone u] at hs
    cases hs
  · intro _
    rw [h.settled hnone, hd]

/-- The threads before the first request. -/
theorem DispatchWorld.Agrees.start (d : DeviceContext) :
    (DispatchWorld.start τ d).Agrees debugInterfaces d.gates := by
  refine ⟨?_, fun _ => trivial, ?_, fun _ => rfl⟩
  · intro t u ht
    cases ht
  · intro t s hs
    cases hs

variable [DecidableEq τ]

/-- The phases after a step of a thread. -/
theorem DispatchWorld.phase_move (w : DispatchWorld τ) (t : τ) (p : DispatchPhase)
    (d : DeviceContext) (u : τ) :
    (w.move t p d).phase u = if u = t then p else w.phase u := by
  simp [DispatchWorld.move, Function.update_apply]

/-- What holds of the new phase of a thread and of those of the others holds after its step. -/
theorem DispatchWorld.forall_move {P : DispatchPhase → Prop} (hp : P p)
    (hothers : ∀ u, u ≠ t → P (w.phase u)) (u : τ) : P ((w.move t p d).phase u) := by
  rw [DispatchWorld.phase_move]
  by_cases hu : u = t
  · rw [if_pos hu]
    exact hp
  · rw [if_neg hu]
    exact hothers u hu

/-- A step of a thread that leaves what is pending. -/
theorem DispatchWorld.pending_move (hpending : p.pending = (w.phase t).pending) (u : τ) :
    ((w.move t p d).phase u).pending = (w.phase u).pending := by
  rw [DispatchWorld.phase_move]
  by_cases hu : u = t
  · rw [if_pos hu, hu, hpending]
  · rw [if_neg hu]

/-- A thread moves on and the gates stay as they are. -/
theorem DispatchWorld.Agrees.move (h : w.Agrees debugInterfaces g) (hd : d.gates = w.gates)
    (hholds : p.holds = true → (w.phase t).holds = true)
    (hexcludes : p.excludes debugInterfaces = true →
      (w.phase t).excludes debugInterfaces = true)
    (hpending : p.pending = (w.phase t).pending) (hknows : p.Knows debugInterfaces w.gates) :
    (w.move t p d).Agrees debugInterfaces g := by
  have hgates : (w.move t p d).gates = w.gates := hd
  have hsame := DispatchWorld.pending_move (d := d) hpending
  refine ⟨?_, ?_, ?_, ?_⟩
  · intro a b ha hb
    apply h.alone a b
    · rw [DispatchWorld.phase_move] at ha
      by_cases hat : a = t
      · rw [if_pos hat] at ha
        rw [hat]
        exact hexcludes ha
      · rwa [if_neg hat] at ha
    · rw [DispatchWorld.phase_move] at hb
      by_cases hbt : b = t
      · rw [if_pos hbt] at hb
        rw [hbt]
        exact hholds hb
      · rwa [if_neg hbt] at hb
  · rw [hgates]
    exact DispatchWorld.forall_move hknows fun u _ => h.knows u
  · intro u s hs
    rw [hgates]
    rw [hsame] at hs
    exact h.begun u s hs
  · intro hnone
    rw [hgates]
    exact h.settled fun u => (hsame u).symm.trans (hnone u)

/-- The resource is granted. -/
theorem DispatchWorld.Agrees.acquire {e : DispatchEntry} (h : w.Agrees debugInterfaces g)
    (hwaiting : w.phase t = .waiting e)
    (hshared : ∀ u, (w.phase u).excludes debugInterfaces = false)
    (hexclusive : e.exclusive debugInterfaces = true → ∀ u, (w.phase u).holds = false) :
    (w.move t e.entered w.device).Agrees debugInterfaces g := by
  have hentered : e.entered.excludes debugInterfaces = e.exclusive debugInterfaces ∧
      e.entered.pending = none ∧ e.entered.Knows debugInterfaces w.gates := by
    have hknows := h.knows t
    rw [hwaiting] at hknows
    cases e with
    | request r => exact ⟨rfl, rfl, hknows, trivial⟩
    | callback removal => exact ⟨rfl, rfl, trivial⟩
  have hpending : e.entered.pending = (w.phase t).pending := by
    rw [hwaiting, hentered.2.1]
    rfl
  have hsame := DispatchWorld.pending_move (d := w.device) hpending
  refine ⟨?_, ?_, ?_, ?_⟩
  · intro a b ha hb
    rw [DispatchWorld.phase_move] at ha hb
    by_cases hat : a = t
    · rw [if_pos hat, hentered.1] at ha
      by_contra hne
      rw [if_neg (fun hbt => hne (hbt.trans hat.symm))] at hb
      rw [hexclusive ha b] at hb
      cases hb
    · rw [if_neg hat, hshared a] at ha
      cases ha
  · exact DispatchWorld.forall_move hentered.2.2 fun u _ => h.knows u
  · intro u s hs
    rw [hsame] at hs
    exact h.begun u s hs
  · intro hnone
    exact h.settled fun u => (hsame u).symm.trans (hnone u)

/-- A thread that has the resource exclusively changes the gates. -/
theorem DispatchWorld.Agrees.change {g' : Gates} (h : w.Agrees debugInterfaces g)
    (hexcludes : (w.phase t).excludes debugInterfaces = true)
    (hfile : w.gates.nextFile ≤ d.gates.nextFile) (hknows : p.Knows debugInterfaces d.gates)
    (hbegun : ∀ s, p.pending = some s → g' = (applyWrites s.2 (d.gates, s.1)).1)
    (hsettled : p.pending = none → g' = d.gates) :
    (w.move t p d).Agrees debugInterfaces g' := by
  have hothers : ∀ u, u ≠ t → (w.phase u).holds = false := by
    intro u hu
    cases hheld : (w.phase u).holds with
    | false => rfl
    | true => exact absurd (h.alone t u hexcludes hheld) hu
  have hnone : ∀ u, u ≠ t → (w.phase u).pending = none := by
    intro u hu
    cases hpending : (w.phase u).pending with
    | none => rfl
    | some s =>
      have hex := DispatchPhase.excludes_of_pending (h.knows u) hpending
      have hheld := DispatchPhase.holds_of_excludes hex
      rw [hothers u hu] at hheld
      cases hheld
  refine ⟨?_, ?_, ?_, ?_⟩
  · intro a b ha hb
    rw [DispatchWorld.phase_move] at ha hb
    have hbt : b = t := by
      by_contra hne
      rw [if_neg hne, hothers b hne] at hb
      cases hb
    have hat : a = t := by
      by_contra hne
      rw [if_neg hne] at ha
      have hheld := DispatchPhase.holds_of_excludes ha
      rw [hothers a hne] at hheld
      cases hheld
    rw [hbt, hat]
  · exact DispatchWorld.forall_move hknows fun u hu => (h.knows u).outside (hothers u hu) hfile
  · have hother : ∀ u, u ≠ t → ∀ s, (w.phase u).pending = some s →
        g' = (applyWrites s.2 (d.gates, s.1)).1 := by
      intro u hu s hs
      rw [hnone u hu] at hs
      cases hs
    exact DispatchWorld.forall_move
      (P := fun p => ∀ s, p.pending = some s → g' = (applyWrites s.2 (d.gates, s.1)).1)
      hbegun hother
  · intro hall
    apply hsettled
    have ht := hall t
    rwa [DispatchWorld.phase_move, if_pos rfl] at ht

/-- A request goes on with what it has read. -/
theorem DispatchWorld.Agrees.stage {r : IoRequest} {stage stage' : RequestStage}
    (h : w.Agrees debugInterfaces g) (hphase : w.phase t = .inside r stage)
    (hpending : (DispatchPhase.inside r stage').pending = (DispatchPhase.inside r stage).pending)
    (hknows : stage.Knows debugInterfaces w.gates r → stage'.Knows debugInterfaces w.gates r) :
    (w.move t (.inside r stage') w.device).Agrees debugInterfaces g := by
  have hold := h.knows t
  rw [hphase] at hold
  apply h.move rfl
  · intro _
    rw [hphase]
    rfl
  · intro hex
    rw [hphase]
    exact hex
  · rw [hphase]
    exact hpending
  · exact ⟨hold.1, hknows hold.2⟩

/-- A reset makes its next write. -/
theorem DispatchWorld.Agrees.write {g' : Gates} {r : IoRequest} {begun : Bool} {gen : ℕ}
    {x : GateWrite} {rest : List GateWrite} (h : w.Agrees debugInterfaces g)
    (hphase : w.phase t = .inside r (.resetting begun gen (x :: rest)))
    (hexclusive : (r.dispatch debugInterfaces).exclusive = true)
    (hlater : ∀ y ∈ rest, y.Later r.file) (hd : d.gates = (x.apply (w.gates, gen)).1)
    (hg : g' = (applyWrites (x :: rest) (w.gates, gen)).1) :
    (w.move t (.inside r (.resetting true (x.apply (w.gates, gen)).2 rest)) d).Agrees
      debugInterfaces g' := by
  have hfile : w.gates.nextFile = d.gates.nextFile := by
    rw [hd, x.nextFile_apply]
  apply h.change (by rw [hphase]; exact hexclusive) (Nat.le_of_eq hfile)
  · refine ⟨?_, hexclusive, hlater⟩
    intro F hF
    rw [← hfile]
    exact (h.stageKnows hphase).1 F hF
  · intro s hs
    obtain rfl := Option.some.inj hs
    rw [hd, hg]
    rfl
  · intro hnone
    cases hnone

/-- A thread leaves. -/
theorem DispatchWorld.Agrees.leave (h : w.Agrees debugInterfaces g)
    (hpending : (w.phase t).pending = none) :
    (w.move t .idle w.device).Agrees debugInterfaces g := by
  apply h.move rfl
  · intro hheld
    cases hheld
  · intro hex
    cases hex
  · rw [hpending]
    rfl
  · trivial

/-- Each step of the threads is a step of the requests taken one at a time, or is not seen there. -/
theorem dispatch_simulates :
    SimulatesBy (DispatchStep (τ := τ) debugInterfaces)
      (partialGraph (Gates.next debugInterfaces)) DispatchEvent.seen
      (DispatchWorld.Agrees debugInterfaces) := by
  intro w e w' g h hstep
  cases hstep with
  | call hidle hfile =>
    rename_i t e
    refine ⟨g, h.move rfl (by intro hheld; cases hheld) (by intro hex; cases hex) ?_ ?_, rfl⟩
    · rw [hidle]
      rfl
    · cases e with
      | request r => exact fun F hF => (hfile r F rfl hF).1
      | callback removal => trivial
  | acquire hwaiting hshared hexclusive =>
    exact ⟨g, h.acquire hwaiting hshared hexclusive, rfl⟩
  | present hphase hdetached => exact ⟨g, h.stage hphase rfl fun _ => hdetached, rfl⟩
  | gone hphase hdetached =>
    refine ⟨g, h.stage hphase rfl fun _ => trivial, h.decides hphase rfl ?_ ?_⟩
    · exact Gates.verdict_of_gone hdetached
    · intro hsuccess
      cases hsuccess
  | openResetGen hphase => exact ⟨g, h.stage hphase rfl fun hdetached => ⟨hdetached, rfl⟩, rfl⟩
  | current hphase hgen =>
    refine ⟨g, h.stage hphase rfl fun hknows => ⟨hknows.1, ?_⟩, rfl⟩
    intro F hF
    apply hgen
    rw [hknows.2, hF]
    rfl
  | stale hphase hgen =>
    rename_i t r gen
    obtain ⟨-, hdetached, hopen⟩ := h.stageKnows hphase
    refine ⟨g, h.stage hphase rfl fun _ => trivial, h.decides hphase rfl ?_ ?_⟩
    · apply Gates.verdict_of_stale hdetached
      obtain ⟨F, hF, rfl⟩ := Option.map_eq_some_iff.mp hopen.symm
      rw [Gates.stale, hF]
      exact bne_iff_ne.mpr hgen
    · intro hsuccess
      cases hsuccess
  | refused hphase hwindow =>
    obtain ⟨-, hdetached, hfresh⟩ := h.stageKnows hphase
    refine ⟨g, h.stage hphase rfl fun _ => trivial, h.decides hphase rfl ?_ ?_⟩
    · exact Gates.verdict_of_refused hdetached hfresh hwindow
    · intro hsuccess
      unfold Gates.refusal at hsuccess
      split at hsuccess <;> cases hsuccess
  | wrongProcess hphase hwindow hprocess =>
    obtain ⟨-, hdetached, hfresh⟩ := h.stageKnows hphase
    refine ⟨g, h.stage hphase rfl fun _ => trivial, h.decides hphase rfl ?_ ?_⟩
    · rw [Gates.verdict_of_open hdetached hfresh hwindow, if_pos hprocess]
    · intro hsuccess
      cases hsuccess
  | passed hphase hwindow hprocess hshared =>
    obtain ⟨-, hdetached, hfresh⟩ := h.stageKnows hphase
    refine ⟨g, h.stage hphase ?_ fun _ => ?_, h.decides hphase rfl ?_ fun _ => hshared⟩
    · cases (IoRequest.dispatch debugInterfaces _).route <;> rfl
    · cases (IoRequest.dispatch debugInterfaces _).route with
      | handler handler => exact ⟨hdetached, hfresh, hprocess, fun _ => hwindow⟩
      | completed status => trivial
    · rw [Gates.verdict_of_open hdetached hfresh hwindow, hprocess]
      rfl
  | resetNothing hphase hexclusive hwrites =>
    obtain ⟨-, hdetached, hfresh⟩ := h.stageKnows hphase
    refine ⟨_, ?_, h.resets hphase rfl hdetached hfresh hexclusive⟩
    have hsame : w.gates.reset _ _ _ = w.gates :=
      congrArg (fun writes => (applyWrites writes (w.gates, 0)).1) hwrites
    rw [hsame, ← h.eq_gates hphase rfl rfl]
    exact h.stage hphase rfl fun _ => trivial
  | resetPassed hphase hexclusive hwrites =>
    refine ⟨g, h.stage hphase rfl fun hknows => ?_, rfl⟩
    exact ⟨hknows.1, hknows.2, hexclusive, rfl, rfl⟩
  | resetFirst hphase hd =>
    obtain ⟨-, hdetached, hfresh, hexclusive, rfl, hwrites⟩ := h.stageKnows hphase
    refine ⟨_, ?_, h.resets hphase rfl hdetached hfresh hexclusive⟩
    apply h.write hphase hexclusive (later_of_resetWrites hwrites.symm) hd
    rw [hwrites]
    rfl
  | resetMore hphase hd =>
    rename_i t r gen x rest d
    obtain ⟨-, hexclusive, hlater⟩ := h.stageKnows hphase
    have hg := h.begun t (gen, x :: rest) (by rw [hphase]; rfl)
    have hrest : ∀ y ∈ rest, y.Later r.file := fun y hy => hlater y (List.mem_cons_of_mem x hy)
    exact ⟨g, h.write hphase hexclusive hrest hd hg, rfl⟩
  | resetDone hphase =>
    rename_i t r gen
    obtain ⟨hcreated, hexclusive, -⟩ := h.stageKnows hphase
    have hg := h.begun t (gen, []) (by rw [hphase]; rfl)
    refine ⟨g, ?_, rfl⟩
    apply h.change (by rw [hphase]; exact hexclusive) (Nat.le_refl _)
    · exact ⟨hcreated, trivial⟩
    · intro s hs
      cases hs
    · exact fun _ => hg
  | served hphase => exact ⟨g, h.stage hphase rfl fun _ => trivial, rfl⟩
  | work hholds hd =>
    rename_i t d
    exact ⟨g, h.move hd (fun hheld => hheld) (fun hex => hex) rfl (h.knows t), rfl⟩
  | detach hphase hd =>
    rename_i t d
    refine ⟨{ g with detached := true }, ?_, rfl⟩
    rw [h.eq_gates hphase rfl rfl, ← hd]
    apply h.change (by rw [hphase]; rfl) (by rw [hd])
    · trivial
    · intro s hs
      cases hs
    · exact fun _ => rfl
  | leave hphase =>
    refine ⟨g, h.leave ?_, rfl⟩
    rw [hphase]
    rfl
  | callbackLeaves hphase =>
    refine ⟨g, h.leave ?_, rfl⟩
    rw [hphase]
    rfl
  | create hd => exact ⟨_, h.create hd, rfl⟩
  | close hfile hunused hd => exact ⟨_, h.close hunused hd, rfl⟩
  | prepare hqueue hd => exact ⟨_, h.prepare hqueue hd, rfl⟩

end Agreement

/-! ## The request of the model -/

section Model

variable {debugInterfaces : Bool} {d : DeviceContext} {r : IoRequest} {F : Handle} {h : Handler}
  {q : Request}

/-- The event of a request that is one step. -/
def GateEvent.of (debugInterfaces : Bool) (g : Gates) (r : IoRequest) : GateEvent :=
  if g.verdict debugInterfaces r = .success ∧ (r.dispatch debugInterfaces).exclusive = true then
    .reset r
  else .request r (g.verdict debugInterfaces r)

/-- The request of the model has the verdict of the code. -/
theorem dispatch_of_verdict (hfile : r.file = some F)
    (hroute : (r.dispatch debugInterfaces).route = .handler h) (hq : q.handler = some h) :
    dispatch d F r.caller q =
      if d.gates.verdict debugInterfaces r = .success then handle d F r.caller q
      else ⟨d.gates.verdict debugInterfaces r, false, d⟩ := by
  obtain ⟨hgate, hcaller⟩ : (r.dispatch debugInterfaces).gateNr = h.nr ∧
      (r.dispatch debugInterfaces).inCallerContext = h.inCallerContext :=
    dispatch_of_handler hroute r.code.toNat_lt
  obtain ⟨hnr, hcaller'⟩ := Request.nr_of_handler hq
  have hcheck : d.gates.check r.file (r.dispatch debugInterfaces).gateNr =
      ttCheckIoGates d F q.nr := by
    rw [hfile, check_gates, hnr, hgate]
  have hprocess : d.gates.wrongProcess debugInterfaces r = true ↔
      q.inCallerContext = true ∧ d.creatorProcess F ≠ r.caller := by
    rw [hcaller', ← hcaller, Gates.wrongProcess, hfile, Bool.and_eq_true, Option.any_some,
      bne_iff_ne]
    rfl
  unfold dispatch Gates.verdict
  rw [hcheck]
  by_cases hpass : ttCheckIoGates d F q.nr = .success
  · rw [if_neg (not_not.mpr hpass), if_neg (not_not.mpr hpass)]
    by_cases hwrong : d.gates.wrongProcess debugInterfaces r = true
    · rw [if_pos hwrong, if_pos (hprocess.mp hwrong), if_neg (by decide)]
    · rw [if_neg hwrong, if_neg fun hboth => hwrong (hprocess.mpr hboth), if_pos rfl]
  · rw [if_pos hpass, if_pos hpass, if_neg hpass]

/-- The request of the model is one event of the gates. -/
theorem next_of_dispatch (hfile : r.file = some F)
    (hroute : (r.dispatch debugInterfaces).route = .handler h) (hq : q.handler = some h)
    (hreset : ∀ io i env, q = .resetDevice io i env → io = r.io ∧ i = r.reset) :
    d.gates.next debugInterfaces (.of debugInterfaces d.gates r) =
      some (dispatch d F r.caller q).device.gates := by
  rw [dispatch_of_verdict hfile hroute hq, GateEvent.of]
  have hexclusive : (r.dispatch debugInterfaces).exclusive = true ↔
      (r.dispatch debugInterfaces).route = .handler .resetDevice :=
    exclusive_iff r.code.toNat_lt
  by_cases hpass : d.gates.verdict debugInterfaces r = .success
  swap
  · rw [if_neg hpass, if_neg fun hboth => hpass hboth.1]
    exact if_pos ⟨rfl, fun hsuccess => absurd hsuccess hpass⟩
  rw [if_pos hpass]
  by_cases hex : (r.dispatch debugInterfaces).exclusive = true
  · -- the handler is that of `RESET_DEVICE`
    have hsame := hroute.symm.trans (hexclusive.mp hex)
    obtain rfl := Route.handler.inj hsame
    obtain ⟨io, i, env, rfl⟩ : ∃ io i env, q = .resetDevice io i env := by
      cases q with
      | resetDevice io i env => exact ⟨io, i, env, rfl⟩
      | _ => cases hq
    obtain ⟨rfl, rfl⟩ := hreset io i env rfl
    rw [if_pos ⟨hpass, hex⟩, handle, reset_gates, ← hfile]
    exact if_pos ⟨hpass, hex⟩
  · rw [if_neg fun hboth => hex hboth.2, hpass]
    have hkept : (handle d F r.caller q).device.gates = d.gates := by
      cases q with
      | resetDevice io i env =>
        obtain rfl := Option.some.inj hq
        exact absurd (hexclusive.mpr hroute) hex
      | _ => rfl
    rw [hkept]
    exact if_pos ⟨hpass, fun _ => Bool.not_eq_true _ ▸ hex⟩

end Model

/-! ## Runs -/

section Runs

variable {τ : Type*} [DecidableEq τ] {debugInterfaces : Bool} {d : DeviceContext}
  {es : List (DispatchEvent τ)} {w : DispatchWorld τ}

/-- In every run of any number of threads with any control codes, on both paths, with closed
handles, processes that end, a surprise removal, and with handles and hardware that come and
creators that are cleared without the reset resource: the verdicts and the resets are those of a
run that takes one request at a time, at a moment between acquisition and release, and where no
reset is halfway the words are those of that run; a reset or a removal is alone in the resource;
and as long as a handler runs the device is there, its handle is of the generation of the device,
the process is the right one, and for a request of the queue every gate would still open. The step
of a request in the model of the device is the event of that run, with its verdict. -/
theorem dispatch_atomic (hrun : Run (DispatchStep debugInterfaces) (.start τ d) es w) :
    (∃ g, Run (partialGraph (Gates.next debugInterfaces)) d.gates
        (es.filterMap DispatchEvent.seen) g ∧
          ((∀ t, (w.phase t).pending = none) → g = w.gates)) ∧
      (∀ t u, (w.phase t).excludes debugInterfaces = true → (w.phase u).holds = true → u = t) ∧
      (∀ t r, w.phase t = .inside r .serving →
        w.gates.detached = false ∧ w.gates.stale r.file = false ∧
          w.gates.wrongProcess debugInterfaces r = false ∧
          ((r.dispatch debugInterfaces).inCallerContext = false →
            w.gates.verdict debugInterfaces r = .success)) ∧
      ∀ (d : DeviceContext) r F h q, r.file = some F →
        (r.dispatch debugInterfaces).route = .handler h → q.handler = some h →
        (∀ io i env, q = .resetDevice io i env → io = r.io ∧ i = r.reset) →
          d.gates.next debugInterfaces (.of debugInterfaces d.gates r) =
            some (dispatch d F r.caller q).device.gates ∧
          (d.gates.verdict debugInterfaces r ≠ .success →
            dispatch d F r.caller q = ⟨d.gates.verdict debugInterfaces r, false, d⟩) := by
  obtain ⟨g, hagrees, hrun'⟩ := dispatch_simulates.run (.start d) hrun
  refine ⟨⟨g, hrun', hagrees.settled⟩, hagrees.alone, ?_, ?_⟩
  · intro t r hphase
    obtain ⟨-, hdetached, hfresh, hprocess, hwindow⟩ := hagrees.stageKnows hphase
    refine ⟨hdetached, Gates.stale_of_fresh hfresh, hprocess, fun hqueue => ?_⟩
    rw [Gates.verdict_of_open hdetached hfresh (hwindow hqueue), hprocess]
    rfl
  · intro d r F h q hfile hroute hq hreset
    refine ⟨next_of_dispatch hfile hroute hq hreset, fun hrefused => ?_⟩
    rw [dispatch_of_verdict hfile hroute hq, if_neg hrefused]

/-- A device with two handles. -/
def deviceOfTwoHandles : DeviceContext :=
  ttEvtDeviceFileCreate
    (ttEvtDeviceFileCreate (.started blackholeConfig 0 0 false fun _ _ => 0) 5) 6

/-- `ALLOCATE_TLB` on the second handle. -/
def tlbRequest : IoRequest := ⟨0x80FA202C, some 1, 6, ⟨16, 48⟩, ⟨0, 0⟩⟩

/-- `USER_RESET` on the first handle. -/
def resetOfUser : IoRequest := ⟨0x80FA2018, some 0, 5, ⟨8, 16⟩, ⟨8, 3⟩⟩

/-- The reset waits for the other request, and for the cleanup of its handle; a third handle is
created between two of its writes, and the cleanup ends there. -/
def createdInReset : List (DispatchEvent Bool) :=
  [.call true (.request tlbRequest), .acquire true, .read true, .read true, .read true,
    .call false (.request resetOfUser), .decide true tlbRequest .success, .done true, .release true,
    .call true (.callback false), .acquire true, .work true, .release true,
    .acquire false, .read false, .read false, .read false, .read false, .reset false resetOfUser,
    .create 7, .close 1, .write false, .write false, .done false, .release false]

/-- The third handle is created behind the reset, and the second one is closed behind it. -/
theorem dispatch_atomic_createdInReset :
    ∃ g, Run (partialGraph (Gates.next false)) deviceOfTwoHandles.gates
        [.request tlbRequest .success, .reset resetOfUser, .create 7, .close 1] g ∧
      g.resetGen = 1 ∧ g.openResetGen 0 = 1 ∧ g.openResetGen 1 = 0 ∧ g.openResetGen 2 = 1 ∧
        g.needsHwInit = true ∧ g.creatorProcess 1 = 0 := by
  let bumped : DeviceContext := { deviceOfTwoHandles with resetGen := 1 }
  let created : DeviceContext := ttEvtDeviceFileCreate bumped 7
  let cleared : DeviceContext :=
    { created with
      creatorProcess := Function.update created.creatorProcess 1 0
      closed := Function.update created.closed 1 true }
  let adopted : DeviceContext :=
    { cleared with openResetGen := Function.update cleared.openResetGen 0 1 }
  let raised : DeviceContext := { adopted with needsHwInit := true }
  have hshared : tlbRequest.dispatch false = ⟨false, false, 11, .handler .allocateTlb⟩ := by rfl
  have hreset : resetOfUser.dispatch false = ⟨false, true, 6, .handler .resetDevice⟩ := by rfl
  obtain ⟨w, hrun, hphase, hdevice⟩ : ∃ w : DispatchWorld Bool,
      Run (DispatchStep false) (.start Bool deviceOfTwoHandles) createdInReset w ∧
        (∀ t, (w.phase t).pending = none) ∧ w.device = raised := by
    refine ⟨_, .cons (.call rfl ?_) (.cons (.acquire rfl ?_ ?_) (.cons (.present rfl rfl)
      (.cons (.openResetGen rfl) (.cons (.current rfl ?_) (.cons (.call rfl ?_)
      (.cons (.passed rfl rfl rfl ?_) (.cons (.served rfl) (.cons (.leave rfl)
      (.cons (.call rfl ?_) (.cons (.acquire rfl ?_ ?_) (.cons (.work (d := deviceOfTwoHandles)
      rfl rfl) (.cons (.callbackLeaves rfl)
      (.cons (.acquire rfl ?_ ?_) (.cons (.present rfl rfl) (.cons (.openResetGen rfl)
      (.cons (.current rfl ?_) (.cons (.resetPassed rfl ?_ ?_)
      (.cons (.resetFirst (d := bumped) rfl rfl) (.cons (.create (d := created) rfl)
      (.cons (.close (d := cleared) ?_ ?_ rfl)
      (.cons (.resetMore (d := adopted) rfl rfl) (.cons (.resetMore (d := raised) rfl rfl)
      (.cons (.resetDone rfl) (.cons (.leave rfl) (.nil _))))))))))))))))))))))))), ?_, rfl⟩
    · intro r F he hF
      cases he
      cases hF
      decide
    · intro u
      cases u <;> rfl
    · intro hexclusive
      rw [DispatchEntry.exclusive, hshared] at hexclusive
      cases hexclusive
    · intro gen hgen
      exact (Option.some.inj hgen).symm
    · intro r F he hF
      cases he
      cases hF
      decide
    · rw [hshared]
    · intro r F he
      cases he
    · intro u
      cases u <;> rfl
    · intro hexclusive
      cases hexclusive
    · intro u
      cases u <;> rfl
    · intro _ u
      cases u <;> rfl
    · intro gen hgen
      exact (Option.some.inj hgen).symm
    · rw [hreset]
    · intro hnone
      cases hnone
    · decide
    · intro u
      cases u <;> rfl
    · intro t
      cases t <;> rfl
  obtain ⟨⟨g, hatomic, hg⟩, -⟩ := dispatch_atomic hrun
  refine ⟨g, hatomic, ?_⟩
  rw [hg hphase, DispatchWorld.gates, hdevice]
  decide

end Runs

end TtKmd
