import TtKmd.Device.Generation
import TtKmd.Device.Resources
import TtKmd.Locks.Wakeups

/-!
# Waiters of a device

The steps that run `TtLocksWakeWaiters`, and what they leave. A pass serves the
first 64 waiters only, so a lock that is free can have a waiter further back. And a
pass does not ask whether the handle of a waiter is still open: the one that
`TtEvtFileCleanup` runs can give a lock to the handle that is being closed. In a run
where no pass finds a waiter of a closed handle, no closed handle holds a lock.
-/

namespace TtKmd

open Lib

/-- The steps that run `TtLocksWakeWaiters`. -/
def runsWake (d : DeviceContext) : Event → Bool
  | .request F _ (.lockCtl io i _) =>
      decide (ttCheckIoGates d F 8 = .success) && decide (ttCopyInBuffer io 12 = .success) &&
        decide (i.index < resourceLockCount) && decide (i.flags = 1) &&
        decide (d.locks.locksHeld F &&& lockBit i.index ≠ 0)
  | .request F _ (.resetDevice io i _) =>
      decide (ttCheckIoGates d F 6 = .success) && resetBumps d io i
  | .cleanup _ => true
  | .surpriseRemoval => true
  | _ => false

section Steps

variable {d d' : DeviceContext} {e : Event} {F : Handle}

/-- A step that runs a pass: the locks before the pass have the same waiters, and
those of the other handles are as they were. -/
structure Pass (d d' : DeviceContext) (s : LockState) : Prop where
  /-- The waiters before the pass. -/
  queue : s.lockWaitQueue = d.locks.lockWaitQueue
  /-- The locks of a closed handle before the pass. -/
  closed : ∀ G, d'.closed G = true → s.locksHeld G = 0 ∨
    (d.closed G = true ∧ s.locksHeld G = d.locks.locksHeld G)
  /-- The locks after it. -/
  locks : d'.locks = ttLocksWakeWaiters d'.removed s

/-- `LOCK_CTL` outside `RELEASE` of a held lock runs no pass and changes the locks of
its own handle only. -/
theorem ttIoctlLockCtl_cases (removed : Handle → Bool) (s : LockState) (F : Handle) (io : Io)
    (i : LockCtlIn) (env : LockEnv) :
    let s' := (ttIoctlLockCtl removed s F io i env).locks
    (∀ G, G ≠ F → s'.locksHeld G = s.locksHeld G) ∨
      (ttCopyInBuffer io 12 = .success ∧ i.index < resourceLockCount ∧ i.flags = 1 ∧
        s.locksHeld F &&& lockBit i.index ≠ 0) := by
  have hacquire : ∀ index s', ttLockTryAcquire s F index = some s' →
      ∀ G, G ≠ F → s'.locksHeld G = s.locksHeld G := by
    intro index s' hs' G hG
    unfold ttLockTryAcquire at hs'
    split at hs'
    · cases hs'
    · cases hs'
      exact Function.update_of_ne hG _ _
  simp only [ttIoctlLockCtl]
  split
  · exact .inl fun _ _ => rfl
  rename_i hin
  split
  · exact .inl fun _ _ => rfl
  rename_i hindex
  split
  · left
    unfold lockCtlAcquire
    split
    · exact hacquire _ _ ‹_›
    · exact fun _ _ => rfl
  · rename_i hflags
    unfold lockCtlRelease
    split
    · exact .inr ⟨not_not.mp hin, by omega, hflags, ‹_›⟩
    · exact .inl fun _ _ => rfl
  · exact .inl fun _ _ => rfl
  · left
    unfold lockCtlAcquireBlocking
    split
    · exact hacquire _ _ ‹_›
    · split
      · exact fun _ _ => rfl
      split
      · exact fun _ _ => rfl
      · exact fun _ _ => rfl
  · exact .inl fun _ _ => rfl

/-- `RELEASE` of a held lock runs a pass. -/
theorem pass_release {io : Io} {i : LockCtlIn} {env : LockEnv} {caller : Process}
    (hopen : d.isOpen F = true) (hgate : ttCheckIoGates d F 8 = .success)
    (hin : ttCopyInBuffer io 12 = .success) (hindex : i.index < resourceLockCount)
    (hflags : i.flags = 1) (hheld : d.locks.locksHeld F &&& lockBit i.index ≠ 0) :
    ∃ s, Pass d (dispatch d F caller (.lockCtl io i env)).device s := by
  rw [dispatch_of_gate hgate rfl]
  have hreply : ttIoctlLockCtl d.removed d.locks F io i env =
      lockCtlRelease d.removed d.locks F io i.index := by
    simp [ttIoctlLockCtl, hin, hflags, not_le.mpr hindex]
  simp only [handle, hreply, lockCtlRelease, if_pos hheld]
  refine ⟨{ d.locks with
    locksHeld := Function.update d.locks.locksHeld F (d.locks.locksHeld F &&& ~~~(lockBit i.index))
    resourceLockHeld := d.locks.resourceLockHeld &&& ~~~(lockBit i.index) }, rfl, ?_, rfl⟩
  intro G hG
  exact .inr ⟨hG, Function.update_of_ne (DeviceContext.ne_of_closed hopen hG) _ _⟩

/-- A reset that bumps the generation runs a pass. -/
theorem pass_reset {io : Io} {i : ResetIn} {env : ResetEnv} {caller : Process}
    (hgate : ttCheckIoGates d F 6 = .success) (hbumps : resetBumps d io i = true) :
    ∃ s, Pass d (dispatch d F caller (.resetDevice io i env)).device s := by
  rw [dispatch_of_gate hgate rfl]
  rcases ttIoctlResetDevice_cases d F io i env with ⟨hno, _⟩ | ⟨_, hw, hd'⟩
  · rw [hbumps] at hno
    cases hno
  · rw [handle, hd']
    exact ⟨d.locks, rfl, fun G hG => .inr ⟨hG, rfl⟩, rfl⟩

/-- A step that runs `TtLocksWakeWaiters` is a pass. -/
theorem pass_of_runsWake (hstep : d.next e = some d') (hwake : runsWake d e = true) :
    ∃ s, Pass d d' s := by
  cases e with
  | create opener => cases hwake
  | request F caller r =>
    obtain ⟨hopen, rfl⟩ := DeviceContext.next_request hstep
    cases r with
    | lockCtl io i env =>
      simp only [runsWake, Bool.and_eq_true, decide_eq_true_eq] at hwake
      obtain ⟨⟨⟨⟨hgate, hin⟩, hindex⟩, hflags⟩, hheld⟩ := hwake
      exact pass_release hopen hgate hin hindex hflags hheld
    | resetDevice io i env =>
      simp only [runsWake, Bool.and_eq_true, decide_eq_true_eq] at hwake
      exact pass_reset hwake.1 hwake.2
    | _ => cases hwake
  | cleanup F =>
    obtain ⟨hopen, rfl⟩ := DeviceContext.next_cleanup hstep
    refine ⟨{ d.locks with
      resourceLockHeld := d.locks.resourceLockHeld &&& ~~~(d.locks.locksHeld F)
      locksHeld := Function.update d.locks.locksHeld F 0 }, rfl, ?_, rfl⟩
    intro G hG
    rcases closed_cleanup hG with rfl | hcl
    · exact .inl (Function.update_self _ _ _)
    · exact .inr ⟨hcl, Function.update_of_ne (DeviceContext.ne_of_closed hopen hcl) _ _⟩
  | processExit process => cases hwake
  | surpriseRemoval =>
    cases hstep
    exact ⟨d.locks, rfl, fun G hG => .inr ⟨hG, rfl⟩, rfl⟩
  | cancel k => cases hwake

/-- A request that runs no pass gives no lock to another handle. -/
theorem dispatch_locksHeld {caller : Process} {r : Request} {G : Handle} (hG : G ≠ F)
    (hwake : runsWake d (.request F caller r) = false) :
    (dispatch d F caller r).device.locks.locksHeld G = d.locks.locksHeld G := by
  unfold dispatch
  split
  · rfl
  rename_i hgate
  have hgate' := not_not.mp hgate
  split
  · rfl
  cases r with
  | lockCtl io i env =>
    rcases ttIoctlLockCtl_cases d.removed d.locks F io i env with
      hkept | ⟨hin, hindex, hflags, hheld⟩
    · exact hkept G hG
    · have hgate8 : ttCheckIoGates d F 8 = .success := hgate'
      simp only [runsWake, hgate8, hin, hindex, hflags, decide_true, Bool.true_and,
        decide_eq_false_iff_not] at hwake
      exact absurd hheld hwake
  | resetDevice io i env =>
    rcases ttIoctlResetDevice_cases d F io i env with ⟨_, hd' | hd' | hd'⟩ | ⟨hbumps, _⟩
    · rw [handle, hd']
    · rw [handle, hd']
      rfl
    · rw [handle, hd']
    · have hgate6 : ttCheckIoGates d F 6 = .success := hgate'
      simp [runsWake, hgate6, hbumps] at hwake
  | _ => rfl

/-- A step that runs no pass gives no lock to a closed handle. -/
theorem locksHeld_of_no_wake (hstep : d.next e = some d') (hwake : runsWake d e = false)
    {G : Handle} (hG : d'.closed G = true) :
    d.closed G = true ∧ d'.locks.locksHeld G = d.locks.locksHeld G := by
  cases e with
  | create opener =>
    cases hstep
    exact ⟨hG, rfl⟩
  | request F caller r =>
    obtain ⟨hopen, rfl⟩ := DeviceContext.next_request hstep
    rw [dispatch_closed] at hG
    exact ⟨hG, dispatch_locksHeld (DeviceContext.ne_of_closed hopen hG) hwake⟩
  | cleanup F => cases hwake
  | processExit process =>
    cases hstep
    exact ⟨hG, rfl⟩
  | surpriseRemoval => cases hwake
  | cancel k =>
    cases hstep
    exact ⟨hG, rfl⟩

end Steps

/-- A queued request that has to wait: its lock is held, its handle has the current
generation and the device is not detached. -/
structure Waits (d : DeviceContext) (q : LockRequest) : Prop where
  /-- The lock is held. -/
  held : d.locks.Held q.index
  /-- The handle has the current generation. -/
  current : d.openResetGen q.file = d.resetGen
  /-- The device is attached. -/
  attached : d.detached = false

/-- After a step that ran `TtLocksWakeWaiters` the queue has the requests behind the
first 64, followed by those of the first 64 that were put back, and each of the
latter has to wait. With at most 64 requests queued, every request left has to wait. -/
theorem wake_leaves_waiting {d d' : DeviceContext} {e : Event} (hstep : d.next e = some d')
    (hwake : runsWake d e = true) :
    (∃ losers, losers.Sublist (d.locks.lockWaitQueue.take lockWakeBatch) ∧
        d'.locks.lockWaitQueue = d.locks.lockWaitQueue.drop lockWakeBatch ++ losers ∧
        ∀ q ∈ losers, Waits d' q) ∧
      (d.locks.lockWaitQueue.length ≤ lockWakeBatch →
        ∀ q ∈ d'.locks.lockWaitQueue, Waits d' q) := by
  obtain ⟨s, hpass⟩ := pass_of_runsWake hstep hwake
  obtain ⟨losers, hsub, hqueue, hlosers⟩ := ttLocksWakeWaiters_queue d'.removed s
  rw [← hpass.locks] at hqueue hlosers
  rw [hpass.queue] at hsub hqueue
  have hwaits : ∀ q ∈ losers, Waits d' q := by
    intro q hq
    obtain ⟨hrem, hheld⟩ := hlosers q hq
    obtain ⟨hdet, hgen⟩ := DeviceContext.removed_eq_false.mp hrem
    exact ⟨hheld, hgen, hdet⟩
  refine ⟨⟨losers, hsub, hqueue, hwaits⟩, ?_⟩
  intro hlen q hq
  rw [hqueue, List.drop_eq_nil_of_le hlen, List.nil_append] at hq
  exact hwaits q hq

/-- A started Blackhole of the simulator. -/
def startedBlackhole : DeviceContext := .started blackholeConfig 0 0 false fun _ _ => 0

/-- A `LOCK_CTL` request with buffers of the right length. -/
def lockCtl (F : Handle) (flags index : ℕ) : Event :=
  .request F 0 (.lockCtl ⟨12, 16⟩ ⟨flags, index⟩ ⟨.success, .success⟩)

/-- Handle 0 holds locks 0 and 1; 65 requests wait for lock 1 and the last one for lock 0. -/
def crowdedLosers : List Event :=
  [.create 0, .create 0, lockCtl 0 0 0, lockCtl 0 0 1] ++
    List.replicate 65 (lockCtl 1 3 1) ++ [lockCtl 1 3 0]

/-- When handle 0 releases lock 1, one of the first 64 requests wins it, and the 63 that are put
back behind the last two have to wait. -/
theorem wake_leaves_waiting_crowdedLosers :
    ∃ d d' losers, runList DeviceContext.next startedBlackhole crowdedLosers = some d ∧
      d.next (lockCtl 0 1 1) = some d' ∧ runsWake d (lockCtl 0 1 1) = true ∧
      d.locks.lockWaitQueue.length = 66 ∧ losers.length = 63 ∧
      d'.locks.lockWaitQueue = d.locks.lockWaitQueue.drop lockWakeBatch ++ losers ∧
      ∀ q ∈ losers, Waits d' q := by
  have heval : ((runList DeviceContext.next startedBlackhole crowdedLosers).bind fun d =>
      (d.next (lockCtl 0 1 1)).map fun d' => runsWake d (lockCtl 0 1 1) &&
        decide (d.locks.lockWaitQueue.length = 66) &&
          decide (d'.locks.lockWaitQueue.length = 65)) = some true := by decide +kernel
  obtain ⟨d, hd, hmap⟩ := Option.bind_eq_some_iff.mp heval
  obtain ⟨d', hd', htest⟩ := Option.map_eq_some_iff.mp hmap
  simp only [Bool.and_eq_true, decide_eq_true_eq] at htest
  obtain ⟨⟨hwake, hbefore⟩, hafter⟩ := htest
  obtain ⟨losers, -, hqueue, hwaits⟩ := (wake_leaves_waiting hd' hwake).1
  refine ⟨d, d', losers, hd, hd', hwake, hbefore, ?_, hqueue, hwaits⟩
  rw [hqueue, List.length_append, List.length_drop, hbefore, lockWakeBatch] at hafter
  omega

/-- Two handles; handle 0 holds locks 0 and 1, and behind 64 waiters for lock 1 there
is one for lock 0. -/
def crowdedQueue : List Event :=
  [.create 0, .create 0, lockCtl 0 0 0, lockCtl 0 0 1] ++
    List.replicate 64 (lockCtl 1 3 1) ++ [lockCtl 1 3 0]

/-- A reachable state where lock 0 was just released, the pass is over, and a request
of a current handle on an attached device still waits for it. -/
theorem crowdedQueue_strands :
    ∃ d d' q, Reachable (partialGraph DeviceContext.next) startedBlackhole d ∧
      d.next (lockCtl 0 1 0) = some d' ∧ runsWake d (lockCtl 0 1 0) = true ∧
      q ∈ d'.locks.lockWaitQueue ∧ ¬d'.locks.Held q.index ∧
      d'.openResetGen q.file = d'.resetGen ∧ d'.detached = false := by
  have heval : ((runList DeviceContext.next startedBlackhole crowdedQueue).bind fun d =>
      (d.next (lockCtl 0 1 0)).map fun d' =>
        runsWake d (lockCtl 0 1 0) && decide (⟨1, 0, 16⟩ ∈ d'.locks.lockWaitQueue) &&
          decide (¬d'.locks.Held 0) && decide (d'.openResetGen 1 = d'.resetGen) &&
          !d'.detached) = some true := by decide +kernel
  obtain ⟨d, hd, hmap⟩ := Option.bind_eq_some_iff.mp heval
  obtain ⟨d', hd', htest⟩ := Option.map_eq_some_iff.mp hmap
  simp only [Bool.and_eq_true, decide_eq_true_eq, Bool.not_eq_true'] at htest
  obtain ⟨⟨⟨⟨hwake, hmem⟩, hfree⟩, hgen⟩, hdet⟩ := htest
  exact ⟨d, d', ⟨1, 0, 16⟩, ⟨_, run_of_runList hd⟩, hd', hwake, hmem, hfree, hgen, hdet⟩

/-- The passes of `LOCK_CTL` and of a cleanup find, among the first 64 waiters, none
of a handle that is closed or being closed, unless that handle is stale or the device
is detached. -/
def SparesClosed (d : DeviceContext) : Event → Prop
  | .request F caller (.lockCtl io i env) =>
      runsWake d (.request F caller (.lockCtl io i env)) = true →
        ∀ q ∈ d.locks.lockWaitQueue.take lockWakeBatch,
          d.closed q.file = true → d.removed q.file = true
  | .cleanup F =>
      ∀ q ∈ d.locks.lockWaitQueue.take lockWakeBatch,
        d.closed q.file = true ∨ q.file = F → d.removed q.file = true
  | _ => True

/-- No closed handle holds a lock. -/
structure ClosedHoldNothing (d : DeviceContext) : Prop where
  /-- The bit maps of the closed handles are empty. -/
  empty : ∀ F, d.closed F = true → d.locks.locksHeld F = 0
  /-- No handle is ahead of the device. -/
  noneAhead : NoneAhead d

/-- A pass that finds no waiter of a closed handle gives it no lock. -/
theorem ClosedHoldNothing.spared {d d' : DeviceContext} {e : Event} (h : ClosedHoldNothing d)
    (hstep : d.next e = some d') (hwake : runsWake d e = true) (hspares : SparesClosed d e)
    {G : Handle} (hG : d'.closed G = true) :
    ∀ q ∈ d.locks.lockWaitQueue.take lockWakeBatch, q.file = G → d'.removed G = true := by
  rintro q hq rfl
  cases e with
  | create opener => cases hwake
  | request F caller r =>
    obtain ⟨hopen, rfl⟩ := DeviceContext.next_request hstep
    have hcl : d.closed q.file = true := by rwa [dispatch_closed] at hG
    rcases dispatch_generation d F caller r with ⟨hno, hkept⟩ | ⟨_, hbumped⟩
    · cases r with
      | lockCtl io i env =>
        have hrem := hspares hwake q hq hcl
        rw [← hrem, DeviceContext.removed, DeviceContext.removed, hkept.detached,
          hkept.openResetGen, hkept.resetGen]
      | resetDevice io i env => exact absurd (hwake.symm.trans hno) (by decide)
      | _ => cases hwake
    · have hstale := hbumped.stale h.noneAhead (DeviceContext.ne_of_closed hopen hcl)
      simp [DeviceContext.removed, ne_of_lt hstale]
  | cleanup F =>
    obtain ⟨-, rfl⟩ := DeviceContext.next_cleanup hstep
    rcases closed_cleanup hG with hF | hcl
    · exact hspares q hq (.inr hF)
    · exact hspares q hq (.inl hcl)
  | processExit process => cases hwake
  | surpriseRemoval =>
    cases hstep
    rfl
  | cancel k => cases hwake

/-- A step whose pass spares the closed handles gives no lock to one of them. -/
theorem ClosedHoldNothing.next {d d' : DeviceContext} {e : Event} (h : ClosedHoldNothing d)
    (hspares : SparesClosed d e) (hstep : d.next e = some d') : ClosedHoldNothing d' := by
  refine ⟨?_, h.noneAhead.next hstep⟩
  intro G hG
  cases hwake : runsWake d e with
  | false =>
    obtain ⟨hcl, hlocks⟩ := locksHeld_of_no_wake hstep hwake hG
    rw [hlocks]
    exact h.empty G hcl
  | true =>
    obtain ⟨s, hpass⟩ := pass_of_runsWake hstep hwake
    have hspared := h.spared hstep hwake hspares hG
    rw [← hpass.queue] at hspared
    rw [hpass.locks, ttLocksWakeWaiters_locksHeld hspared]
    rcases hpass.closed G hG with hzero | ⟨hcl, hsame⟩
    · exact hzero
    · rw [hsame]
      exact h.empty G hcl

/-- In a run whose passes spare the closed handles, no closed handle holds a lock, in
any state reached. -/
theorem closed_hold_nothing {config : MemoryConfig} {subsysVendorId subsysId : ℕ}
    {needsHwInit : Bool} {regs : Fin 16 → AtuRegs} {es : List Event} {d : DeviceContext}
    (hrun : Run (restrict (partialGraph DeviceContext.next) SparesClosed)
      (.started config subsysVendorId subsysId needsHwInit regs) es d)
    {F : Handle} (hF : d.closed F = true) : d.locks.locksHeld F = 0 := by
  have hinv : ClosedHoldNothing d := by
    refine hrun.invariant (fun _ _ _ h hstep => h.next hstep.1 hstep.2) ⟨?_, ?_⟩
    · intro G hG
      cases hG
    · intro G
      exact le_rfl
  exact hinv.empty F hF

/-- Handle 0 holds a lock another handle waits for, and is closed. -/
def closedWithWaiter : List Event :=
  [.create 0, .create 0, lockCtl 0 0 5, lockCtl 1 3 5, .cleanup 0]

/-- The closed handle holds nothing. -/
theorem closed_hold_nothing_closedWithWaiter :
    ∃ d, Run (restrict (partialGraph DeviceContext.next) SparesClosed) startedBlackhole
      closedWithWaiter d ∧ d.closed 0 = true ∧ d.locks.locksHeld 0 = 0 := by
  obtain ⟨d, hrun, hcl⟩ : ∃ d, Run (restrict (partialGraph DeviceContext.next) SparesClosed)
      startedBlackhole closedWithWaiter d ∧ d.closed 0 = true := by
    refine ⟨_, .cons ⟨trivial, rfl⟩ (.cons ⟨trivial, rfl⟩ (.cons ⟨?_, rfl⟩
      (.cons ⟨?_, rfl⟩ (.cons ⟨?_, rfl⟩ (.nil _))))), rfl⟩
    · intro hwake
      exact absurd hwake (by decide +kernel)
    · intro hwake
      exact absurd hwake (by decide +kernel)
    · unfold SparesClosed
      decide +kernel
  exact ⟨d, hrun, hcl, closed_hold_nothing hrun hcl⟩

/-- Handle 0 waits for a lock it holds, and is closed. -/
def closedWhileWaiting : List Event := [.create 0, lockCtl 0 0 5, lockCtl 0 3 5, .cleanup 0]

/-- The cleanup gives the lock back to the handle it closes. -/
theorem closedWhileWaiting_holds :
    ∃ d, Run (partialGraph DeviceContext.next) startedBlackhole closedWhileWaiting d ∧
      d.closed 0 = true ∧ d.locks.locksHeld 0 ≠ 0 ∧ d.locks.Held 5 := by
  have heval : ((runList DeviceContext.next startedBlackhole closedWhileWaiting).map fun d =>
      d.closed 0 && decide (d.locks.locksHeld 0 ≠ 0) && decide (d.locks.Held 5)) = some true := by
    decide +kernel
  obtain ⟨d, hd, htest⟩ := Option.map_eq_some_iff.mp heval
  simp only [Bool.and_eq_true, decide_eq_true_eq] at htest
  exact ⟨d, run_of_runList hd, htest.1.1, htest.1.2, htest.2⟩

end TtKmd
