import TtKmd.Memory.State

/-!
# Resource locks

The device has 64 resource locks: a map of the held ones, and for each handle a map
of those it holds. An `ACQUIRE_BLOCKING` request that cannot win is put into a FIFO
queue, and whoever changes the table or the state of the device retries the waiters
in one pass over at most 64 of them. A queue of a started device accepts every
request that is forwarded to it.

A pass completes requests of other handles; `completed` is the trace of these
completions.
-/

namespace TtKmd

open Lib

/-- `TT_LOCK_WAKE_BATCH`. -/
def lockWakeBatch : ℕ := 64

/-- `TENSTORRENT_RESOURCE_LOCK_COUNT`. -/
def resourceLockCount : ℕ := 64

/-- A pended `ACQUIRE_BLOCKING` request. -/
structure LockRequest where
  /-- The file object of the request. -/
  file : Handle
  /-- `Index` of its `TT_LOCK_REQUEST_CONTEXT`. -/
  index : ℕ
  /-- The length of its output buffer. -/
  output : ℕ
  deriving DecidableEq

/-- The lock state of a device and of its handles, guarded by `LockLock`. -/
structure LockState where
  /-- `ResourceLockHeld`. -/
  resourceLockHeld : BitVec 64
  /-- `LocksHeld` of each file object. -/
  locksHeld : Handle → BitVec 64
  /-- `LockWaitQueue`, head first. -/
  lockWaitQueue : List LockRequest
  /-- The pended requests completed so far, with their status. -/
  completed : List (LockRequest × NtStatus)

/-- `TtLocksInit`. -/
def LockState.init : LockState := ⟨0, fun _ => 0, [], []⟩

/-- The bit of a lock. -/
def lockBit (index : ℕ) : BitVec 64 := 1#64 <<< index

/-- `TtLockTryAcquire`; `none` is a lock that is held. -/
def ttLockTryAcquire (s : LockState) (F : Handle) (index : ℕ) : Option LockState :=
  if s.resourceLockHeld &&& lockBit index ≠ 0 then none
  else
    some { s with
      resourceLockHeld := s.resourceLockHeld ||| lockBit index,
      locksHeld := Function.update s.locksHeld F (s.locksHeld F ||| lockBit index) }

/-- `TtLockCompleteAcquired`. -/
def ttLockCompleteAcquired (s : LockState) (q : LockRequest) : LockState :=
  { s with completed := s.completed ++
      [(q, if q.output < 16 then .accessViolation else .success)] }

/-- One round of the loop of `TtLocksWakeWaiters`. `removed` says of a handle that
the device is detached or that its generation is stale. -/
def wakeWaiter (removed : Handle → Bool) (s : LockState) (q : LockRequest) : LockState :=
  if removed q.file then { s with completed := s.completed ++ [(q, .deviceRemoved)] }
  else
    match ttLockTryAcquire s q.file q.index with
    | some s => ttLockCompleteAcquired s q
    | none => { s with lockWaitQueue := s.lockWaitQueue ++ [q] }

/-- `TtLocksWakeWaiters`: a batch is taken off the head, and the losers of it go to
the tail. -/
def ttLocksWakeWaiters (removed : Handle → Bool) (s : LockState) : LockState :=
  (s.lockWaitQueue.take lockWakeBatch).foldl (wakeWaiter removed)
    { s with lockWaitQueue := s.lockWaitQueue.drop lockWakeBatch }

/-- `TtLocksReleaseAll`. -/
def ttLocksReleaseAll (removed : Handle → Bool) (s : LockState) (F : Handle) : LockState :=
  ttLocksWakeWaiters removed { s with
    resourceLockHeld := s.resourceLockHeld &&& ~~~(s.locksHeld F),
    locksHeld := Function.update s.locksHeld F 0 }

/-- `tenstorrent_lock_ctl_in`. -/
structure LockCtlIn where
  /-- `flags`. -/
  flags : ℕ
  /-- `index`. -/
  index : ℕ

/-- What the framework answers to `TtIoctlLockCtl`. -/
structure LockEnv where
  /-- The status of `WdfObjectAllocateContext`. -/
  context : NtStatus
  /-- The status of `WdfRequestForwardToIoQueue`. -/
  forward : NtStatus

/-- What `TtIoctlLockCtl` returns and leaves. -/
structure LockReply where
  /-- The status; meaningless when the request is pended. -/
  status : NtStatus
  /-- `*Pended`. -/
  pended : Bool
  /-- `out.value`. -/
  value : ℕ
  /-- The locks afterwards. -/
  locks : LockState

/-- The reply of `TtIoctlLockCtl` after the switch. -/
def LockReply.complete (io : Io) (s : LockState) (value : ℕ) : LockReply :=
  ⟨ttCompleteSizedOutBuffer io 12 4, false, value, s⟩

/-- `TENSTORRENT_LOCK_CTL_RELEASE`. -/
def lockCtlRelease (removed : Handle → Bool) (s : LockState) (F : Handle) (io : Io) (index : ℕ) :
    LockReply :=
  if s.locksHeld F &&& lockBit index ≠ 0 then
    .complete io (ttLocksWakeWaiters removed { s with
      locksHeld := Function.update s.locksHeld F (s.locksHeld F &&& ~~~(lockBit index)),
      resourceLockHeld := s.resourceLockHeld &&& ~~~(lockBit index) }) 1
  else .complete io s 0

/-- `TENSTORRENT_LOCK_CTL_ACQUIRE_BLOCKING`. -/
def lockCtlAcquireBlocking (s : LockState) (F : Handle) (io : Io) (index : ℕ) (env : LockEnv) :
    LockReply :=
  match ttLockTryAcquire s F index with
  | some s => .complete io s 1
  | none =>
      if env.context ≠ .success then ⟨env.context, false, 0, s⟩
      else if env.forward ≠ .success then ⟨env.forward, false, 0, s⟩
      else ⟨.success, true, 0, { s with
        lockWaitQueue := s.lockWaitQueue ++ [⟨F, index, io.output⟩] }⟩

/-- `TENSTORRENT_LOCK_CTL_ACQUIRE`. -/
def lockCtlAcquire (s : LockState) (F : Handle) (io : Io) (index : ℕ) : LockReply :=
  match ttLockTryAcquire s F index with
  | some s => .complete io s 1
  | none => .complete io s 0

/-- `TENSTORRENT_LOCK_CTL_TEST`. -/
def lockCtlTest (s : LockState) (F : Handle) (io : Io) (index : ℕ) : LockReply :=
  .complete io s ((if s.resourceLockHeld &&& lockBit index ≠ 0 then 2 else 0) +
    if s.locksHeld F &&& lockBit index ≠ 0 then 1 else 0)

/-- `TtIoctlLockCtl`. -/
def ttIoctlLockCtl (removed : Handle → Bool) (s : LockState) (F : Handle) (io : Io)
    (i : LockCtlIn) (env : LockEnv) : LockReply :=
  if ttCopyInBuffer io 12 ≠ .success then ⟨.accessViolation, false, 0, s⟩
  else if i.index ≥ resourceLockCount then ⟨.invalidParameter, false, 0, s⟩
  else
    match i.flags with
    | 0 => lockCtlAcquire s F io i.index
    | 1 => lockCtlRelease removed s F io i.index
    | 2 => lockCtlTest s F io i.index
    | 3 => lockCtlAcquireBlocking s F io i.index env
    | _ => ⟨.invalidParameter, false, 0, s⟩

/-- A queued request is cancelled by the framework, which completes it itself. -/
def cancelWaiter (s : LockState) (k : ℕ) : LockState :=
  { s with
    lockWaitQueue := s.lockWaitQueue.eraseIdx k,
    completed := s.completed ++ (s.lockWaitQueue.drop k).head?.toList.map (·, .cancelled) }

end TtKmd
