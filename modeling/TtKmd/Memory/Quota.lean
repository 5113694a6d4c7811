import TtKmd.Memory.Requests
import TtKmd.Lib.Runs
import TtKmd.Lib.Tally

/-!
# The DMA quota

`DmaBufBytes` is changed by interlocked additions only, and no lock covers it: an
allocation adds its bytes first and compares the sum with the limit, and a refused one
takes them back later. Here a step is one such addition, or one section of a request
between two of them, so that the additions of all threads interleave.

Every byte in the counter belongs to a buffer, to an accepted reservation or to an
addition that is still to be taken back. The last kind may push the counter above the
limit, and it is the only kind that can.
-/

namespace TtKmd

open Lib

/-- `TtReadDmaBufLimitBytes`: the limit from `DmaBufferLimitMiB`, if the value is there. -/
def ttReadDmaBufLimitBytes (value : Option (BitVec 32)) : BitVec 64 :=
  (value.getD 4096).setWidth 64 <<< 20

/-- A thread in the driver. Windows numbers threads with 32 bits. -/
abbrev Thread := Fin (2 ^ 32)

/-- What a thread is doing to the DMA buffers of a handle. Every task but the first holds
the file lock. -/
inductive QuotaTask
  /-- Nothing. -/
  | idle
  /-- `ALLOCATE_DMA_BUF` has found its slot empty and is about to reserve. -/
  | reserve (F : Handle) (index bytes : ℕ)
  /-- The check has failed, and the request will fail with `STATUS_QUOTA_EXCEEDED`; the
  bytes are to be taken back. -/
  | refused (F : Handle) (bytes : ℕ)
  /-- The reservation is accepted, and the buffer is being made. -/
  | allocate (F : Handle) (index bytes : ℕ)
  /-- The loop of `TtMemoryFileCleanup` is at a slot. -/
  | close (F : Handle) (index : ℕ)
  /-- `TtDmaBufDestroy` has a buffer that is out of its slot; `rest` is where the loop of
  `TtMemoryFileCleanup` goes on. -/
  | destroy (F : Handle) (bytes : ℕ) (rest : Option ℕ)
  /-- The memory of the buffer is gone; the accounting is to follow. -/
  | release (F : Handle) (bytes : ℕ) (rest : Option ℕ)
  deriving DecidableEq

namespace QuotaTask

/-- The handle whose lock the task holds. -/
def file : QuotaTask → Option Handle
  | idle => none
  | reserve F _ _ => some F
  | refused F _ => some F
  | allocate F _ _ => some F
  | close F _ => some F
  | destroy F _ _ => some F
  | release F _ _ => some F

/-- The slot a new buffer is for. -/
def target : QuotaTask → Option (Handle × ℕ)
  | reserve F index _ => some (F, index)
  | allocate F index _ => some (F, index)
  | _ => none

/-- The bytes of the request. -/
def bytes : QuotaTask → ℕ
  | idle => 0
  | reserve _ _ bytes => bytes
  | refused _ bytes => bytes
  | allocate _ _ bytes => bytes
  | close _ _ => 0
  | destroy _ bytes _ => bytes
  | release _ bytes _ => bytes

/-- The bytes of an accepted reservation. -/
def accepted : QuotaTask → ℕ
  | allocate _ _ bytes => bytes
  | _ => 0

/-- The bytes that are counted and still to be taken back. -/
def unrolled : QuotaTask → ℕ
  | refused _ bytes => bytes
  | release _ bytes _ => bytes
  | _ => 0

/-- The bytes of a buffer that is out of its slot. -/
def destroyed : QuotaTask → ℕ
  | destroy _ bytes _ => bytes
  | _ => 0

/-- An allocation or a release is in progress. -/
def InProgress : QuotaTask → Prop
  | idle => False
  | close _ _ => False
  | _ => True

/-- Between allocations and releases a thread has no bytes of its own. -/
theorem accounts_of_not_inProgress {task : QuotaTask} (h : ¬ task.InProgress) :
    task.accepted = 0 ∧ task.unrolled = 0 ∧ task.destroyed = 0 := by
  cases task with
  | idle => exact ⟨rfl, rfl, rfl⟩
  | close F index => exact ⟨rfl, rfl, rfl⟩
  | reserve | refused | allocate | destroy | release => exact absurd trivial h

end QuotaTask

/-- The accounting, the slots it is about and the threads at work. -/
structure QuotaState where
  /-- `DmaBufBytes`. -/
  dmaBufBytes : BitVec 64
  /-- The number of the next file object. -/
  nextFile : ℕ
  /-- `DmaBufs`: the size of the buffer in a slot of a handle. -/
  dmaBufs : Handle × ℕ → Option ℕ
  /-- The thread that holds the lock of a handle. -/
  lock : Handle → Option Thread
  /-- What each thread is doing. -/
  task : Thread → QuotaTask

/-- A device nothing is open on. -/
def QuotaState.started : QuotaState where
  dmaBufBytes := 0
  nextFile := 0
  dmaBufs := fun _ => none
  lock := fun _ => none
  task := fun _ => .idle

/-- The steps. -/
inductive QuotaEvent
  /-- A handle is opened. -/
  | create
  /-- `ALLOCATE_DMA_BUF` takes the lock and finds its slot empty. -/
  | allocate (t : Thread) (F : Handle) (index bytes : ℕ)
  /-- The first addition of `TtDmaAccountReserve`, and the check. -/
  | reserve (t : Thread)
  /-- The second addition of `TtDmaAccountReserve`. -/
  | undo (t : Thread)
  /-- The buffer is in its slot. -/
  | store (t : Thread)
  /-- The failure path of `ALLOCATE_DMA_BUF`: `TtDmaAccountRelease`. -/
  | fail (t : Thread)
  /-- `FREE_DMA_BUF_EX` takes the lock and takes a buffer out of its slot. -/
  | free (t : Thread) (F : Handle) (index : ℕ)
  /-- `TtMemoryFileCleanup` takes the lock. -/
  | close (t : Thread) (F : Handle)
  /-- The loop of `TtMemoryFileCleanup` looks at a slot. -/
  | slot (t : Thread)
  /-- `WdfObjectDelete`. -/
  | delete (t : Thread)
  /-- `TtDmaAccountRelease` at the end of `TtDmaBufDestroy`. -/
  | release (t : Thread)

namespace QuotaState

/-- A thread goes on with another task. -/
def setTask (s : QuotaState) (t : Thread) (task : QuotaTask) : QuotaState :=
  { s with task := Function.update s.task t task }

/-- A thread takes the lock of a handle for a task. -/
def enter (s : QuotaState) (t : Thread) (F : Handle) (task : QuotaTask) : QuotaState :=
  { s.setTask t task with lock := Function.update s.lock F (some t) }

/-- A thread is done and gives the lock of a handle back. -/
def leave (s : QuotaState) (t : Thread) (F : Handle) : QuotaState :=
  { s.setTask t .idle with lock := Function.update s.lock F none }

/-- A slot of a handle gets another content. -/
def setSlot (s : QuotaState) (F : Handle) (index : ℕ) (content : Option ℕ) : QuotaState :=
  { s with dmaBufs := Function.update s.dmaBufs (F, index) content }

/-- `InterlockedAdd64(&DmaBufBytes, bytes)`. -/
def add (s : QuotaState) (bytes : ℕ) : QuotaState :=
  { s with dmaBufBytes := s.dmaBufBytes + BitVec.ofNat 64 bytes }

/-- `InterlockedAdd64(&DmaBufBytes, -bytes)`. -/
def sub (s : QuotaState) (bytes : ℕ) : QuotaState :=
  { s with dmaBufBytes := s.dmaBufBytes - BitVec.ofNat 64 bytes }

/-- The comparison of `TtDmaAccountReserve` with the value its addition returns. -/
def exceeds (limit total : BitVec 64) : Bool := limit != 0 && limit.toNat < total.toNat

/-- One step; `none` is a step that cannot be taken. -/
def next (limit : BitVec 64) (s : QuotaState) : QuotaEvent → Option QuotaState
  | .create => some { s with nextFile := s.nextFile + 1 }
  | .allocate t F index bytes =>
      match s.task t with
      | .idle =>
          if F < s.nextFile ∧ index < maxDmaBufs ∧ bytes ≤ maxDmaBufSize ∧ s.lock F = none ∧
              s.dmaBufs (F, index) = none then
            some (s.enter t F (.reserve F index bytes))
          else none
      | _ => none
  | .reserve t =>
      match s.task t with
      | .reserve F index bytes =>
          if exceeds limit (s.add bytes).dmaBufBytes then
            some ((s.add bytes).setTask t (.refused F bytes))
          else some ((s.add bytes).setTask t (.allocate F index bytes))
      | _ => none
  | .undo t =>
      match s.task t with
      | .refused F bytes => some ((s.sub bytes).leave t F)
      | _ => none
  | .store t =>
      match s.task t with
      | .allocate F index bytes => some ((s.setSlot F index (some bytes)).leave t F)
      | _ => none
  | .fail t =>
      match s.task t with
      | .allocate F _ bytes => some ((s.sub bytes).leave t F)
      | _ => none
  | .free t F index =>
      match s.task t, s.dmaBufs (F, index) with
      | .idle, some bytes =>
          if s.lock F = none then
            some ((s.setSlot F index none).enter t F (.destroy F bytes none))
          else none
      | _, _ => none
  | .close t F =>
      match s.task t with
      | .idle => if s.lock F = none then some (s.enter t F (.close F 0)) else none
      | _ => none
  | .slot t =>
      match s.task t with
      | .close F index =>
          if index < maxDmaBufs then
            match s.dmaBufs (F, index) with
            | some bytes =>
                some ((s.setSlot F index none).setTask t (.destroy F bytes (some (index + 1))))
            | none => some (s.setTask t (.close F (index + 1)))
          else some (s.leave t F)
      | _ => none
  | .delete t =>
      match s.task t with
      | .destroy F bytes rest => some (s.setTask t (.release F bytes rest))
      | _ => none
  | .release t =>
      match s.task t with
      | .release F bytes none => some ((s.sub bytes).leave t F)
      | .release F bytes (some index) => some ((s.sub bytes).setTask t (.close F index))
      | _ => none

/-- The slots of the handles there have been. -/
def slots (s : QuotaState) : Finset (Handle × ℕ) :=
  Finset.range s.nextFile ×ˢ Finset.range maxDmaBufs

/-- The bytes of the buffers in the slots. -/
def slotBytes (s : QuotaState) : ℕ := tally s.slots (·.getD 0) s.dmaBufs

/-- The bytes of the buffers that are out of their slot and have their memory still. -/
def destroyedBytes (s : QuotaState) : ℕ := tally Finset.univ QuotaTask.destroyed s.task

/-- The bytes of the live buffers. -/
def liveBytes (s : QuotaState) : ℕ := s.slotBytes + s.destroyedBytes

/-- The bytes of the reservations that have passed their check. -/
def acceptedBytes (s : QuotaState) : ℕ := tally Finset.univ QuotaTask.accepted s.task

/-- The bytes that are counted and still to be taken back. -/
def unrolledBytes (s : QuotaState) : ℕ := tally Finset.univ QuotaTask.unrolled s.task

end QuotaState


/-- The slot that got another content. -/
theorem setSlot_self (s : QuotaState) (F : Handle) (index : ℕ) (content : Option ℕ) :
    (s.setSlot F index content).dmaBufs (F, index) = content := Function.update_self ..

/-- The other slots. -/
theorem setSlot_of_ne (s : QuotaState) {F : Handle} {index : ℕ} (content : Option ℕ)
    {p : Handle × ℕ} (hne : p ≠ (F, index)) :
    (s.setSlot F index content).dmaBufs p = s.dmaBufs p := Function.update_of_ne hne _ _

/-- Who holds which lock, and what the slots hold. -/
structure QuotaShape (s : QuotaState) : Prop where
  /-- A task has the lock of its handle. -/
  held : ∀ t F, (s.task t).file = some F → s.lock F = some t
  /-- A buffer is in a slot of a handle there has been, and it is not too large. -/
  inSlots : ∀ p bytes, s.dmaBufs p = some bytes → p ∈ s.slots ∧ bytes ≤ maxDmaBufSize
  /-- The slot of a new buffer is there and stays empty. -/
  target : ∀ t p, (s.task t).target = some p → s.dmaBufs p = none ∧ p ∈ s.slots
  /-- No request is larger than a buffer can be. -/
  small : ∀ t, (s.task t).bytes ≤ maxDmaBufSize

/-- The counter is what it is made of, and the limit holds for all but the bytes that are
still to be taken back. -/
structure QuotaInv (limit : BitVec 64) (s : QuotaState) : Prop extends QuotaShape s where
  /-- Every byte of the counter is accounted for. -/
  counted : s.dmaBufBytes.toNat = s.liveBytes + s.acceptedBytes + s.unrolledBytes
  /-- The buffers and the accepted reservations fit. -/
  fits : s.liveBytes + s.acceptedBytes ≤ limit.toNat

section Shape

variable {s s' : QuotaState} {t : Thread} {F : Handle} {task : QuotaTask}

/-- A step of one thread on the handle it has the lock of, or takes the lock of. -/
theorem QuotaShape.step (h : QuotaShape s) (hfree : s.lock F = none ∨ s.lock F = some t)
    (htask : s'.task = Function.update s.task t task) (hslots : s'.slots = s.slots)
    (hfile : ∀ G, task.file = some G → G = F ∧ s'.lock F = some t)
    (hlock : ∀ G, G ≠ F → s'.lock G = s.lock G)
    (hbufs : ∀ p : Handle × ℕ, p.1 ≠ F → s'.dmaBufs p = s.dmaBufs p)
    (hin : ∀ p bytes, s'.dmaBufs p = some bytes → p ∈ s.slots ∧ bytes ≤ maxDmaBufSize)
    (htarget : ∀ p, task.target = some p → s'.dmaBufs p = none ∧ p ∈ s.slots)
    (hsmall : task.bytes ≤ maxDmaBufSize) : QuotaShape s' := by
  have hothers : ∀ t', t' ≠ t → ∀ G, (s.task t').file = some G → G ≠ F := by
    rintro t' hne G hG rfl
    have hlocked := h.held t' G hG
    rcases hfree with hnone | hsome
    · simp [hnone] at hlocked
    · rw [hsome] at hlocked
      exact hne (Option.some.inj hlocked).symm
  constructor
  · intro t' G hG
    rw [htask] at hG
    by_cases ht : t' = t
    · subst ht
      rw [Function.update_self] at hG
      obtain ⟨rfl, hlocked⟩ := hfile G hG
      exact hlocked
    · rw [Function.update_of_ne ht] at hG
      rw [hlock G (hothers t' ht G hG)]
      exact h.held t' G hG
  · intro p bytes hp
    rw [hslots]
    exact hin p bytes hp
  · intro t' p hp
    rw [hslots]
    rw [htask] at hp
    by_cases ht : t' = t
    · subst ht
      rw [Function.update_self] at hp
      exact htarget p hp
    · rw [Function.update_of_ne ht] at hp
      have hfile' : (s.task t').file = some p.1 := by
        revert hp
        cases s.task t' <;> simp [QuotaTask.target, QuotaTask.file] <;> rintro rfl <;> rfl
      rw [hbufs p (hothers t' ht _ hfile')]
      exact h.target t' p hp
  · intro t'
    rw [htask]
    by_cases ht : t' = t
    · subst ht
      rwa [Function.update_self]
    · rw [Function.update_of_ne ht]
      exact h.small t'

/-- The accounting is not part of the shape. -/
theorem QuotaShape.counter (h : QuotaShape s) (dmaBufBytes : BitVec 64) :
    QuotaShape { s with dmaBufBytes } :=
  ⟨h.held, h.inSlots, h.target, h.small⟩

/-- A buffer leaves its slot. -/
theorem QuotaShape.clearSlot (h : QuotaShape s) (F : Handle) (index : ℕ) :
    QuotaShape (s.setSlot F index none) := by
  refine ⟨h.held, fun p bytes hp => ?_, fun t p hp => ?_, h.small⟩
  · have hne : p ≠ (F, index) := by
      rintro rfl
      simp [setSlot_self] at hp
    rw [setSlot_of_ne _ _ hne] at hp
    exact h.inSlots p bytes hp
  · obtain ⟨hempty, hmem⟩ := h.target t p hp
    refine ⟨?_, hmem⟩
    by_cases heq : p = (F, index)
    · subst heq
      exact setSlot_self ..
    · rwa [setSlot_of_ne _ _ heq]

/-- A thread takes a lock. -/
theorem QuotaShape.enter (h : QuotaShape s) (hfree : s.lock F = none) (hfile : task.file = some F)
    (htarget : ∀ p, task.target = some p → s.dmaBufs p = none ∧ p ∈ s.slots)
    (hsmall : task.bytes ≤ maxDmaBufSize) : QuotaShape (s.enter t F task) := by
  refine h.step (.inl hfree) rfl rfl (fun G hG => ?_) (fun G hG => Function.update_of_ne hG _ _)
    (fun _ _ => rfl) h.inSlots htarget hsmall
  rw [hfile] at hG
  exact ⟨(Option.some.inj hG).symm, Function.update_self ..⟩

/-- A thread goes on with the lock it has. -/
theorem QuotaShape.setTask (h : QuotaShape s) (hheld : (s.task t).file = some F)
    (hfile : task.file = some F)
    (htarget : ∀ p, task.target = some p → s.dmaBufs p = none ∧ p ∈ s.slots)
    (hsmall : task.bytes ≤ maxDmaBufSize) : QuotaShape (s.setTask t task) := by
  have hlock := h.held t F hheld
  refine h.step (.inr hlock) rfl rfl (fun G hG => ?_) (fun _ _ => rfl) (fun _ _ => rfl) h.inSlots
    htarget hsmall
  rw [hfile] at hG
  exact ⟨(Option.some.inj hG).symm, hlock⟩

/-- A thread is done. -/
theorem QuotaShape.leave (h : QuotaShape s) (hheld : (s.task t).file = some F) :
    QuotaShape (s.leave t F) :=
  h.step (.inr (h.held t F hheld)) rfl rfl (by simp [QuotaTask.file])
    (fun G hG => Function.update_of_ne hG _ _) (fun _ _ => rfl) h.inSlots
    (by simp [QuotaTask.target]) (Nat.zero_le _)

end Shape

section Accounting

variable {limit : BitVec 64} {value : Option (BitVec 32)} {s s' : QuotaState} {t : Thread}
  {F : Handle} {task : QuotaTask} {index bytes : ℕ}

/-- What the task of one thread contributes. -/
theorem bytes_of_task (htask : s'.task = Function.update s.task t task) :
    s'.acceptedBytes + (s.task t).accepted = s.acceptedBytes + task.accepted ∧
      s'.unrolledBytes + (s.task t).unrolled = s.unrolledBytes + task.unrolled ∧
      s'.destroyedBytes + (s.task t).destroyed = s.destroyedBytes + task.destroyed := by
  unfold QuotaState.acceptedBytes QuotaState.unrolledBytes QuotaState.destroyedBytes
  rw [htask]
  exact ⟨tally_update (Finset.mem_univ t) task, tally_update (Finset.mem_univ t) task,
    tally_update (Finset.mem_univ t) task⟩

/-- What the request of one thread contributes when only that changes. -/
theorem bytes_setTask (s : QuotaState) (t : Thread) (task : QuotaTask) :
    (s.setTask t task).acceptedBytes + (s.task t).accepted = s.acceptedBytes + task.accepted ∧
      (s.setTask t task).unrolledBytes + (s.task t).unrolled = s.unrolledBytes + task.unrolled ∧
      (s.setTask t task).destroyedBytes + (s.task t).destroyed =
        s.destroyedBytes + task.destroyed :=
  bytes_of_task rfl

/-- What the buffer of one slot contributes. -/
theorem slotBytes_setSlot (hmem : (F, index) ∈ s.slots) (content : Option ℕ) :
    (s.setSlot F index content).slotBytes + (s.dmaBufs (F, index)).getD 0 =
      s.slotBytes + content.getD 0 :=
  tally_update hmem content

/-- The limit is far below the range of the counter. -/
theorem ttReadDmaBufLimitBytes_lt (value : Option (BitVec 32)) :
    (ttReadDmaBufLimitBytes value).toNat < 2 ^ 52 := by
  unfold ttReadDmaBufLimitBytes
  have hmib := (value.getD 4096).isLt
  rw [BitVec.toNat_shiftLeft, BitVec.toNat_setWidth, Nat.shiftLeft_eq]
  omega

/-- What is still to be taken back is far below the range of the counter. -/
theorem QuotaShape.unrolledBytes_le (h : QuotaShape s) : s.unrolledBytes ≤ 2 ^ 60 := by
  have hbound : ∀ t ∈ Finset.univ, (s.task t).unrolled ≤ maxDmaBufSize := by
    intro t _
    have hsmall := h.small t
    revert hsmall
    cases s.task t <;> simp [QuotaTask.unrolled, QuotaTask.bytes]
  calc s.unrolledBytes ≤ (Finset.univ : Finset Thread).card * maxDmaBufSize := tally_le hbound
    _ = 2 ^ 32 * 2 ^ 28 := by rw [Finset.card_univ, Fintype.card_fin, maxDmaBufSize]
    _ = 2 ^ 60 := by norm_num

/-- Bytes that are in the counter can be taken back. -/
theorem toNat_sub (hle : bytes ≤ s.dmaBufBytes.toNat) :
    (s.sub bytes).dmaBufBytes.toNat = s.dmaBufBytes.toNat - bytes := by
  have hlt := s.dmaBufBytes.isLt
  unfold QuotaState.sub
  rw [BitVec.toNat_sub, BitVec.toNat_ofNat]
  omega

/-- An addition does not overflow. -/
theorem QuotaInv.toNat_add (h : QuotaInv (ttReadDmaBufLimitBytes value) s)
    (hsmall : bytes ≤ maxDmaBufSize) :
    (s.add bytes).dmaBufBytes.toNat = s.dmaBufBytes.toNat + bytes := by
  have hlimit := ttReadDmaBufLimitBytes_lt value
  have hfits := h.fits
  have hcounted := h.counted
  have hunrolled := h.unrolledBytes_le
  unfold maxDmaBufSize at hsmall
  unfold QuotaState.add
  rw [BitVec.toNat_add, BitVec.toNat_ofNat]
  omega

/-- A step of one thread that moves bytes from one account to another, and changes the
counter by what enters or leaves the accounts. -/
theorem QuotaInv.move (h : QuotaInv limit s) (hshape : QuotaShape s')
    (htask : s'.task = Function.update s.task t task)
    (hcounter : s'.dmaBufBytes.toNat + s.slotBytes + (s.task t).destroyed + (s.task t).accepted +
        (s.task t).unrolled =
      s.dmaBufBytes.toNat + s'.slotBytes + task.destroyed + task.accepted + task.unrolled)
    (hfits : s.liveBytes + s.acceptedBytes + s'.slotBytes + task.destroyed + task.accepted ≤
      limit.toNat + s.slotBytes + (s.task t).destroyed + (s.task t).accepted) :
    QuotaInv limit s' := by
  obtain ⟨haccepted, hunrolled, hdestroyed⟩ := bytes_of_task htask
  have hcounted := h.counted
  unfold QuotaState.liveBytes at hcounted hfits
  refine { hshape with counted := ?_, fits := ?_ }
  · unfold QuotaState.liveBytes
    omega
  · unfold QuotaState.liveBytes
    omega

/-- The bytes of a task are in the counter. -/
theorem QuotaInv.le_counter (h : QuotaInv limit s) (t : Thread) :
    (s.task t).accepted + (s.task t).unrolled ≤ s.dmaBufBytes.toNat := by
  obtain ⟨haccepted, hunrolled, -⟩ := bytes_setTask s t .idle
  have hcounted := h.counted
  have hidle : QuotaTask.idle.accepted = 0 ∧ QuotaTask.idle.unrolled = 0 := ⟨rfl, rfl⟩
  omega

/-- What the check after the first addition of `TtDmaAccountReserve` decides. -/
theorem QuotaInv.exceeds_iff (h : QuotaInv (ttReadDmaBufLimitBytes value) s)
    (hsmall : bytes ≤ maxDmaBufSize) :
    QuotaState.exceeds (ttReadDmaBufLimitBytes value) (s.add bytes).dmaBufBytes = true ↔
      ttReadDmaBufLimitBytes value ≠ 0 ∧ (ttReadDmaBufLimitBytes value).toNat <
        s.liveBytes + s.acceptedBytes + s.unrolledBytes + bytes := by
  unfold QuotaState.exceeds
  rw [h.toNat_add hsmall, h.counted]
  simp

/-- A reservation is refused, and then it is still to be taken back, or it is accepted,
and then it fits. -/
theorem QuotaInv.reserve (h : QuotaInv (ttReadDmaBufLimitBytes value) s)
    (hlimit : ttReadDmaBufLimitBytes value ≠ 0)
    (hnext : s.next (ttReadDmaBufLimitBytes value) (.reserve t) = some s') :
    QuotaInv (ttReadDmaBufLimitBytes value) s' := by
  simp only [QuotaState.next] at hnext
  split at hnext
  swap
  · cases hnext
  rename_i F index bytes ht
  have hsmall : bytes ≤ maxDmaBufSize := by
    have hbytes := h.small t
    rwa [ht] at hbytes
  have hheld : (s.task t).file = some F := by rw [ht]; rfl
  have hadd := h.toNat_add hsmall
  have hadded : QuotaShape (s.add bytes) := h.toQuotaShape.counter _
  have hfits := h.fits
  split at hnext
  · cases hnext
    have hshape : QuotaShape ((s.add bytes).setTask t (.refused F bytes)) :=
      hadded.setTask hheld rfl (by simp [QuotaTask.target]) hsmall
    refine h.move hshape rfl ?_ ?_
    · rw [ht]
      show (s.add bytes).dmaBufBytes.toNat + s.slotBytes + 0 + 0 + 0 =
        s.dmaBufBytes.toNat + s.slotBytes + 0 + 0 + bytes
      omega
    · rw [ht]
      show _ + s.slotBytes + 0 + 0 ≤ _ + s.slotBytes + 0 + 0
      omega
  · rename_i hcheck
    cases hnext
    have hroom : s.liveBytes + s.acceptedBytes + s.unrolledBytes + bytes ≤
        (ttReadDmaBufLimitBytes value).toNat := by
      by_contra hover
      exact hcheck ((h.exceeds_iff hsmall).mpr ⟨hlimit, not_le.mp hover⟩)
    have hshape : QuotaShape ((s.add bytes).setTask t (.allocate F index bytes)) := by
      refine hadded.setTask hheld rfl (fun p hp => h.target t p ?_) hsmall
      rw [ht]
      exact hp
    refine h.move hshape rfl ?_ ?_
    · rw [ht]
      show (s.add bytes).dmaBufBytes.toNat + s.slotBytes + 0 + 0 + 0 =
        s.dmaBufBytes.toNat + s.slotBytes + 0 + bytes + 0
      omega
    · rw [ht]
      show _ + s.slotBytes + 0 + bytes ≤ _ + s.slotBytes + 0 + 0
      omega

/-- The bytes of a task are taken back. -/
theorem QuotaInv.takeBack (h : QuotaInv limit s)
    (hbytes : (s.task t).accepted + (s.task t).unrolled = bytes) :
    (s.sub bytes).dmaBufBytes.toNat + (s.task t).accepted + (s.task t).unrolled =
      s.dmaBufBytes.toNat := by
  have hle := h.le_counter t
  rw [toNat_sub (by omega)]
  omega

/-- A step that takes the bytes of a task back, after which the thread has none. -/
theorem QuotaInv.takeBack_move (h : QuotaInv limit s) (hshape : QuotaShape s')
    (htask : s'.task = Function.update s.task t task) (hslots : s'.slotBytes = s.slotBytes)
    (hcounter : s'.dmaBufBytes = (s.sub bytes).dmaBufBytes)
    (hbytes : (s.task t).accepted + (s.task t).unrolled = bytes)
    (hdestroyed : (s.task t).destroyed = 0) (hnew : ¬ task.InProgress) : QuotaInv limit s' := by
  have hback := h.takeBack hbytes
  have hfits := h.fits
  have hzero := QuotaTask.accounts_of_not_inProgress hnew
  refine h.move hshape htask ?_ ?_
  · rw [hcounter, hslots]
    omega
  · rw [hslots]
    omega

/-- A request ends by taking its bytes back. -/
theorem QuotaInv.takeBack_leave (h : QuotaInv limit s) (hheld : (s.task t).file = some F)
    (hbytes : (s.task t).accepted + (s.task t).unrolled = bytes)
    (hdestroyed : (s.task t).destroyed = 0) : QuotaInv limit ((s.sub bytes).leave t F) :=
  h.takeBack_move (QuotaShape.leave (h.toQuotaShape.counter _) hheld) rfl rfl rfl hbytes
    hdestroyed id

/-- A buffer is put into its slot. -/
theorem QuotaInv.store (h : QuotaInv limit s) (ht : s.task t = .allocate F index bytes) :
    QuotaInv limit ((s.setSlot F index (some bytes)).leave t F) := by
  have hheld : (s.task t).file = some F := by rw [ht]; rfl
  obtain ⟨hempty, hmem⟩ := h.target t (F, index) (by rw [ht]; rfl)
  have hslot := slotBytes_setSlot hmem (some bytes)
  rw [hempty] at hslot
  have hfits := h.fits
  have hshape : QuotaShape ((s.setSlot F index (some bytes)).leave t F) := by
    refine h.toQuotaShape.step (.inr (h.held t F hheld)) rfl rfl (by simp [QuotaTask.file])
      (fun G hG => Function.update_of_ne hG _ _) (fun p hp => ?_) (fun p content hp => ?_)
      (by simp [QuotaTask.target]) (Nat.zero_le _)
    · have hne : p ≠ (F, index) := by
        rintro rfl
        exact hp rfl
      exact setSlot_of_ne s _ hne
    · have hslotp : (s.setSlot F index (some bytes)).dmaBufs p = some content := hp
      by_cases heq : p = (F, index)
      · subst heq
        rw [setSlot_self] at hslotp
        have hsmall := h.small t
        rw [ht] at hsmall
        exact ⟨hmem, Option.some.inj hslotp ▸ hsmall⟩
      · rw [setSlot_of_ne _ _ heq] at hslotp
        exact h.inSlots p content hslotp
  refine h.move hshape rfl ?_ ?_
  · rw [ht]
    show s.dmaBufBytes.toNat + s.slotBytes + 0 + bytes + 0 =
      s.dmaBufBytes.toNat + (s.setSlot F index (some bytes)).slotBytes + 0 + 0 + 0
    simp only [Option.getD_none, Option.getD_some] at hslot
    omega
  · rw [ht]
    show _ + (s.setSlot F index (some bytes)).slotBytes + 0 + 0 ≤ _ + s.slotBytes + 0 + bytes
    simp only [Option.getD_none, Option.getD_some] at hslot
    omega

/-- A thread that has no bytes of its own takes a buffer out of its slot. -/
theorem QuotaInv.unlink {rest : Option ℕ} (h : QuotaInv limit s) (hshape : QuotaShape s')
    (hbuf : s.dmaBufs (F, index) = some bytes)
    (htask : s'.task = Function.update s.task t (.destroy F bytes rest))
    (hslots : s'.slotBytes = (s.setSlot F index none).slotBytes)
    (hcounter : s'.dmaBufBytes = s.dmaBufBytes) (hnone : ¬ (s.task t).InProgress) :
    QuotaInv limit s' := by
  have hslot := slotBytes_setSlot (h.inSlots _ _ hbuf).1 none
  rw [hbuf, ← hslots] at hslot
  simp only [Option.getD_none, Option.getD_some] at hslot
  have hfits := h.fits
  have hzero := QuotaTask.accounts_of_not_inProgress hnone
  have hnew : (QuotaTask.destroy F bytes rest).accepted = 0 ∧
      (QuotaTask.destroy F bytes rest).unrolled = 0 ∧
      (QuotaTask.destroy F bytes rest).destroyed = bytes := ⟨rfl, rfl, rfl⟩
  refine h.move hshape htask ?_ ?_
  · rw [hcounter]
    omega
  · omega

/-- A step that moves no bytes. -/
theorem QuotaInv.moveNothing (h : QuotaInv limit s) (hshape : QuotaShape s')
    (htask : s'.task = Function.update s.task t task)
    (hslots : s'.slotBytes = s.slotBytes) (hcounter : s'.dmaBufBytes = s.dmaBufBytes)
    (hold : (s.task t).accepted + (s.task t).unrolled + (s.task t).destroyed = 0)
    (hnew : task.accepted + task.unrolled + task.destroyed = 0) : QuotaInv limit s' := by
  have hfits := h.fits
  refine h.move hshape htask ?_ ?_
  · rw [hcounter, hslots]
    omega
  · rw [hslots]
    omega

/-- A new handle has no buffers. -/
theorem QuotaInv.create (h : QuotaInv limit s) :
    QuotaInv limit { s with nextFile := s.nextFile + 1 } := by
  have hsub : s.slots ⊆ ({ s with nextFile := s.nextFile + 1 } : QuotaState).slots := by
    unfold QuotaState.slots
    exact Finset.product_subset_product_left (Finset.range_mono (Nat.le_succ _))
  have hsame : ({ s with nextFile := s.nextFile + 1 } : QuotaState).slotBytes = s.slotBytes := by
    refine tally_subset hsub fun p _ hout => ?_
    cases hbuf : s.dmaBufs p with
    | none => rfl
    | some bytes => exact absurd (h.inSlots p bytes hbuf).1 hout
  refine { held := h.held, inSlots := fun p bytes hp => ?_, target := fun t p hp => ?_,
           small := h.small, counted := ?_, fits := ?_ }
  · exact ⟨hsub (h.inSlots p bytes hp).1, (h.inSlots p bytes hp).2⟩
  · exact ⟨(h.target t p hp).1, hsub (h.target t p hp).2⟩
  · have hcounted := h.counted
    unfold QuotaState.liveBytes at hcounted ⊢
    rw [hsame]
    exact hcounted
  · have hfits := h.fits
    unfold QuotaState.liveBytes at hfits ⊢
    rw [hsame]
    exact hfits

/-- The loop of `TtMemoryFileCleanup` takes out a buffer, goes on or ends. -/
theorem QuotaInv.slot (h : QuotaInv limit s) (ht : s.task t = .close F index)
    (hnext : s.next limit (.slot t) = some s') : QuotaInv limit s' := by
  have hheld : (s.task t).file = some F := by rw [ht]; rfl
  have hnone : (s.task t).accepted + (s.task t).unrolled + (s.task t).destroyed = 0 := by
    rw [ht]
    rfl
  simp only [QuotaState.next, ht] at hnext
  split at hnext
  · split at hnext
    · rename_i bytes hbuf
      cases hnext
      have hshape : QuotaShape ((s.setSlot F index none).setTask t
          (.destroy F bytes (some (index + 1)))) :=
        (h.toQuotaShape.clearSlot F index).setTask hheld rfl (by simp [QuotaTask.target])
          (h.inSlots _ _ hbuf).2
      exact h.unlink hshape hbuf rfl rfl rfl (by rw [ht]; exact id)
    · cases hnext
      exact h.moveNothing (h.toQuotaShape.setTask hheld rfl (by simp [QuotaTask.target])
        (Nat.zero_le _)) rfl rfl rfl hnone rfl
  · cases hnext
    exact h.moveNothing (h.toQuotaShape.leave hheld) rfl rfl rfl hnone rfl

/-- The memory of a buffer goes: its bytes are still to be taken back. -/
theorem QuotaInv.delete {rest : Option ℕ} (h : QuotaInv limit s)
    (ht : s.task t = .destroy F bytes rest) :
    QuotaInv limit (s.setTask t (.release F bytes rest)) := by
  have hheld : (s.task t).file = some F := by rw [ht]; rfl
  have hsmall := h.small t
  rw [ht] at hsmall
  have hfits := h.fits
  refine h.move (h.toQuotaShape.setTask hheld rfl (by simp [QuotaTask.target]) hsmall) rfl ?_ ?_
  · rw [ht]
    show s.dmaBufBytes.toNat + s.slotBytes + bytes + 0 + 0 =
      s.dmaBufBytes.toNat + s.slotBytes + 0 + 0 + bytes
    omega
  · rw [ht]
    show _ + s.slotBytes + 0 + 0 ≤ _ + s.slotBytes + bytes + 0
    omega

/-- Every step keeps the accounting. -/
theorem QuotaInv.next (hlimit : ttReadDmaBufLimitBytes value ≠ 0) (s : QuotaState) (e : QuotaEvent)
    (s' : QuotaState) (h : QuotaInv (ttReadDmaBufLimitBytes value) s)
    (hnext : s.next (ttReadDmaBufLimitBytes value) e = some s') :
    QuotaInv (ttReadDmaBufLimitBytes value) s' := by
  cases e with
  | create =>
    cases hnext
    exact h.create
  | allocate t F index bytes =>
    simp only [QuotaState.next] at hnext
    split at hnext
    · rename_i ht
      obtain ⟨⟨hF, hindex, hsmall, hfree, hempty⟩, rfl⟩ := guard_of_eq_some hnext
      refine h.moveNothing (h.toQuotaShape.enter hfree rfl (fun p hp => ?_) hsmall) rfl rfl rfl
        (by rw [ht]; rfl) rfl
      cases hp
      exact ⟨hempty, Finset.mem_product.mpr ⟨Finset.mem_range.mpr hF, Finset.mem_range.mpr hindex⟩⟩
    · cases hnext
  | reserve t => exact h.reserve hlimit hnext
  | undo t =>
    simp only [QuotaState.next] at hnext
    split at hnext
    · rename_i F bytes ht
      cases hnext
      exact h.takeBack_leave (by rw [ht]; rfl) (by rw [ht]; exact Nat.zero_add _) (by rw [ht]; rfl)
    · cases hnext
  | store t =>
    simp only [QuotaState.next] at hnext
    split at hnext
    · rename_i F index bytes ht
      cases hnext
      exact h.store ht
    · cases hnext
  | fail t =>
    simp only [QuotaState.next] at hnext
    split at hnext
    · rename_i F index bytes ht
      cases hnext
      exact h.takeBack_leave (by rw [ht]; rfl) (by rw [ht]; rfl) (by rw [ht]; rfl)
    · cases hnext
  | free t F index =>
    simp only [QuotaState.next] at hnext
    split at hnext
    · rename_i bytes ht hbuf
      obtain ⟨hfree, rfl⟩ := guard_of_eq_some hnext
      have hshape : QuotaShape ((s.setSlot F index none).enter t F (.destroy F bytes none)) :=
        (h.toQuotaShape.clearSlot F index).enter hfree rfl (by simp [QuotaTask.target])
          (h.inSlots _ _ hbuf).2
      exact h.unlink hshape hbuf rfl rfl rfl (by rw [ht]; exact id)
    · cases hnext
  | close t F =>
    simp only [QuotaState.next] at hnext
    split at hnext
    · rename_i ht
      obtain ⟨hfree, rfl⟩ := guard_of_eq_some hnext
      exact h.moveNothing (h.toQuotaShape.enter hfree rfl (by simp [QuotaTask.target])
        (Nat.zero_le _)) rfl rfl rfl (by rw [ht]; rfl) rfl
    · cases hnext
  | slot t =>
    cases ht : s.task t with
    | close F index => exact h.slot ht hnext
    | _ => simp [QuotaState.next, ht] at hnext
  | delete t =>
    simp only [QuotaState.next] at hnext
    split at hnext
    · rename_i F bytes rest ht
      cases hnext
      exact h.delete ht
    · cases hnext
  | release t =>
    simp only [QuotaState.next] at hnext
    split at hnext
    · rename_i F bytes ht
      cases hnext
      exact h.takeBack_leave (by rw [ht]; rfl) (by rw [ht]; exact Nat.zero_add _) (by rw [ht]; rfl)
    · rename_i F bytes index ht
      cases hnext
      have hheld : (s.task t).file = some F := by rw [ht]; rfl
      have hshape : QuotaShape ((s.sub bytes).setTask t (.close F index)) :=
        QuotaShape.setTask (h.toQuotaShape.counter _) hheld rfl (by simp [QuotaTask.target])
          (Nat.zero_le _)
      exact h.takeBack_move hshape rfl rfl rfl (by rw [ht]; exact Nat.zero_add _) (by rw [ht]; rfl)
        id
    · cases hnext

/-- The live buffers are those in the slots and those on their way out. -/
theorem liveBytes_eq (s : QuotaState) : s.liveBytes = s.slotBytes + s.destroyedBytes := rfl

/-- A device nothing is open on has nothing to account for. -/
theorem QuotaInv.started (limit : BitVec 64) : QuotaInv limit .started := by
  have hslots : QuotaState.started.slotBytes = 0 := by
    unfold QuotaState.slotBytes
    exact tally_eq_zero fun _ _ => rfl
  have hdestroyed : QuotaState.started.destroyedBytes = 0 := by
    unfold QuotaState.destroyedBytes
    exact tally_eq_zero fun _ _ => rfl
  have haccepted : QuotaState.started.acceptedBytes = 0 := by
    unfold QuotaState.acceptedBytes
    exact tally_eq_zero fun _ _ => rfl
  have hunrolled : QuotaState.started.unrolledBytes = 0 := by
    unfold QuotaState.unrolledBytes
    exact tally_eq_zero fun _ _ => rfl
  have hcounter : QuotaState.started.dmaBufBytes.toNat = 0 := by decide
  refine { held := by simp [QuotaState.started, QuotaTask.file],
           inSlots := by simp [QuotaState.started],
           target := by simp [QuotaState.started, QuotaTask.target],
           small := fun _ => Nat.zero_le _, counted := ?_, fits := ?_ }
  · rw [liveBytes_eq, hslots, hdestroyed, haccepted, hunrolled, hcounter]
  · rw [liveBytes_eq, hslots, hdestroyed, haccepted]
    exact Nat.zero_le _

/-- The accounting of every state that can be reached under a limit. -/
theorem quotaInv_of_reachable (hlimit : ttReadDmaBufLimitBytes value ≠ 0)
    (hs : Reachable (partialGraph (QuotaState.next (ttReadDmaBufLimitBytes value))) .started s) :
    QuotaInv (ttReadDmaBufLimitBytes value) s :=
  hs.invariant (fun s e s' h => h.next hlimit s e s') (QuotaInv.started _)

end Accounting

/-- An addition that nothing comes between decides as the handler does that runs alone. -/
theorem exceeds_eq_isNone {c : MemoryConfig} {m : MemoryState} {limit : BitVec 64} {s : QuotaState}
    {bytes : ℕ} (hlimit : c.dmaBufLimitBytes = limit.toNat)
    (hcounter : m.dmaBufBytes = s.dmaBufBytes.toNat)
    (hroom : s.dmaBufBytes.toNat + bytes < 2 ^ 64) :
    QuotaState.exceeds limit (s.add bytes).dmaBufBytes =
      (ttDmaAccountReserve c m bytes).isNone := by
  have htotal : (s.add bytes).dmaBufBytes.toNat = s.dmaBufBytes.toNat + bytes := by
    unfold QuotaState.add
    rw [BitVec.toNat_add, BitVec.toNat_ofNat]
    omega
  have hzero : limit = 0 ↔ limit.toNat = 0 := by
    rw [← BitVec.toNat_inj]
    rfl
  have hword : QuotaState.exceeds limit (s.add bytes).dmaBufBytes = true ↔
      limit.toNat ≠ 0 ∧ limit.toNat < s.dmaBufBytes.toNat + bytes := by
    unfold QuotaState.exceeds
    rw [htotal, Bool.and_eq_true, bne_iff_ne, decide_eq_true_iff, ne_eq, hzero]
  have hnumber : (ttDmaAccountReserve c m bytes).isNone = true ↔
      limit.toNat ≠ 0 ∧ limit.toNat < s.dmaBufBytes.toNat + bytes := by
    unfold ttDmaAccountReserve
    rw [hlimit, hcounter]
    by_cases hcheck : limit.toNat ≠ 0 ∧ (s.dmaBufBytes.toNat : ℤ) + bytes > limit.toNat
    · rw [if_pos hcheck]
      exact ⟨fun _ => ⟨hcheck.1, by exact_mod_cast hcheck.2⟩, fun _ => rfl⟩
    · rw [if_neg hcheck]
      refine ⟨fun h => by simp at h, fun h => absurd ⟨h.1, ?_⟩ hcheck⟩
      exact_mod_cast h.2
  exact Bool.eq_iff_iff.mpr (hword.trans hnumber.symm)

/-- Under a limit, and however the additions interleave: the live buffers and the accepted
reservations fit, the counter is not negative and is exactly what it is made of, and while
no allocation and no release is in progress it is what the slots hold. -/
theorem quota_never_exceeded {value : Option (BitVec 32)} {s : QuotaState}
    (hlimit : ttReadDmaBufLimitBytes value ≠ 0)
    (hs : Reachable (partialGraph (QuotaState.next (ttReadDmaBufLimitBytes value))) .started s) :
    s.liveBytes + s.acceptedBytes ≤ (ttReadDmaBufLimitBytes value).toNat ∧
      0 ≤ s.dmaBufBytes.toInt ∧
      s.dmaBufBytes.toInt = s.liveBytes + s.acceptedBytes + s.unrolledBytes ∧
      ((∀ t, ¬ (s.task t).InProgress) →
        s.dmaBufBytes.toInt = s.slotBytes ∧ s.liveBytes = s.slotBytes) := by
  have h := quotaInv_of_reachable hlimit hs
  have hfits := h.fits
  have hcounted := h.counted
  have hbound := ttReadDmaBufLimitBytes_lt value
  have hunrolled := h.unrolledBytes_le
  have hint : s.dmaBufBytes.toInt = s.dmaBufBytes.toNat :=
    BitVec.toInt_eq_toNat_of_lt (by omega)
  rw [hint]
  refine ⟨hfits, Int.natCast_nonneg _, by exact_mod_cast hcounted, fun hquiet => ?_⟩
  have hzero := fun t => QuotaTask.accounts_of_not_inProgress (hquiet t)
  have haccepted : s.acceptedBytes = 0 := tally_eq_zero fun t _ => (hzero t).1
  have hback : s.unrolledBytes = 0 := tally_eq_zero fun t _ => (hzero t).2.1
  have hdestroyed : s.destroyedBytes = 0 := tally_eq_zero fun t _ => (hzero t).2.2
  have hlive : s.liveBytes = s.slotBytes := by
    unfold QuotaState.liveBytes
    omega
  exact ⟨by exact_mod_cast (by omega : s.dmaBufBytes.toNat = s.slotBytes), hlive⟩

/-- The default limit and one buffer of a page. -/
theorem quota_never_exceeded_onePage :
    ∃ s, Reachable (partialGraph (QuotaState.next (ttReadDmaBufLimitBytes none))) .started s ∧
      s.dmaBufBytes = 4096 ∧ s.liveBytes + s.acceptedBytes ≤ 2 ^ 32 := by
  have heval : ((runList (QuotaState.next (ttReadDmaBufLimitBytes none)) .started
      [.create, .allocate 0 0 7 4096, .reserve 0, .store 0]).map fun s =>
        decide (s.dmaBufBytes = 4096)) = some true := by decide +kernel
  obtain ⟨s, hrun, htest⟩ := Option.map_eq_some_iff.mp heval
  have hs : Reachable (partialGraph (QuotaState.next (ttReadDmaBufLimitBytes none))) .started s :=
    ⟨_, run_of_runList hrun⟩
  exact ⟨s, hs, of_decide_eq_true htest, (quota_never_exceeded (by decide) hs).1⟩

/-- However the additions interleave, a reservation is refused exactly when there is a limit
and the live buffers, the accepted reservations and the bytes that are still to be taken
back leave no room for it at the moment of its check. -/
theorem reserve_refused_iff {value : Option (BitVec 32)} {s s' : QuotaState} {t : Thread}
    {F : Handle} {index bytes : ℕ}
    (hs : Reachable (partialGraph (QuotaState.next (ttReadDmaBufLimitBytes value))) .started s)
    (ht : s.task t = .reserve F index bytes)
    (hnext : s.next (ttReadDmaBufLimitBytes value) (.reserve t) = some s') :
    s'.task t = .refused F bytes ↔
      ttReadDmaBufLimitBytes value ≠ 0 ∧ (ttReadDmaBufLimitBytes value).toNat <
        s.liveBytes + s.acceptedBytes + s.unrolledBytes + bytes := by
  have hrefused : s'.task t = .refused F bytes ↔
      QuotaState.exceeds (ttReadDmaBufLimitBytes value) (s.add bytes).dmaBufBytes = true := by
    simp only [QuotaState.next, ht] at hnext
    split at hnext
    · rename_i hover
      cases hnext
      exact ⟨fun _ => hover, fun _ => Function.update_self ..⟩
    · rename_i hroom
      cases hnext
      refine ⟨fun heq => ?_, fun hover => absurd hover hroom⟩
      have htask : ((s.add bytes).setTask t (.allocate F index bytes)).task t =
          .allocate F index bytes := Function.update_self ..
      rw [htask] at heq
      cases heq
  rw [hrefused]
  by_cases hlimit : ttReadDmaBufLimitBytes value = 0
  · simp [QuotaState.exceeds, hlimit]
  · have h := quotaInv_of_reachable hlimit hs
    have hsmall := h.small t
    rw [ht] at hsmall
    exact h.exceeds_iff hsmall

/-- With a limit of one megabyte, one handle asks for two and another one for a page. -/
def refusedTogether : List QuotaEvent :=
  [.create, .create, .allocate 0 0 0 (2 ^ 21), .reserve 0, .allocate 1 1 0 4096]

/-- The two megabytes are refused, and before they are taken back the page is refused, too. -/
theorem refusedTogether_refuses :
    ∃ s s', Reachable (partialGraph (QuotaState.next (ttReadDmaBufLimitBytes (some 1))))
        .started s ∧
      s.next (ttReadDmaBufLimitBytes (some 1)) (.reserve 1) = some s' ∧
      s.task 0 = .refused 0 (2 ^ 21) ∧ s.dmaBufBytes.toNat = 2 ^ 21 ∧
      s.task 1 = .reserve 1 0 4096 ∧ s'.task 1 = .refused 1 4096 := by
  have heval : ((runList (QuotaState.next (ttReadDmaBufLimitBytes (some 1))) .started
      refusedTogether).bind fun s =>
        (s.next (ttReadDmaBufLimitBytes (some 1)) (.reserve 1)).map fun s' =>
          decide (s.task 0 = .refused 0 (2 ^ 21)) && decide (s.dmaBufBytes.toNat = 2 ^ 21) &&
            decide (s.task 1 = .reserve 1 0 4096) && decide (s'.task 1 = .refused 1 4096)) =
      some true := by decide +kernel
  obtain ⟨s, hrun, heval⟩ := Option.bind_eq_some_iff.mp heval
  obtain ⟨s', hnext, htest⟩ := Option.map_eq_some_iff.mp heval
  simp only [Bool.and_eq_true, decide_eq_true_eq] at htest
  obtain ⟨⟨⟨hfirst, hcounter⟩, hsecond⟩, hrefused⟩ := htest
  exact ⟨s, s', ⟨_, run_of_runList hrun⟩, hnext, hfirst, hcounter, hsecond, hrefused⟩

/-- The page does not fit because of what is still to be taken back. -/
theorem reserve_refused_iff_page :
    ∃ s, Reachable (partialGraph (QuotaState.next (ttReadDmaBufLimitBytes (some 1))))
        .started s ∧
      (ttReadDmaBufLimitBytes (some 1)).toNat <
        s.liveBytes + s.acceptedBytes + s.unrolledBytes + 4096 := by
  obtain ⟨s, s', hs, hnext, -, -, hsecond, hrefused⟩ := refusedTogether_refuses
  exact ⟨s, hs, ((reserve_refused_iff hs hsecond hnext).mp hrefused).2⟩

/-- The page is refused on an empty device, because the two megabytes are not taken back
yet. -/
theorem reserve_refused_too_early :
    ¬ ∀ (value : Option (BitVec 32)) (s s' : QuotaState) (t : Thread) (F : Handle)
      (index bytes : ℕ),
      Reachable (partialGraph (QuotaState.next (ttReadDmaBufLimitBytes value))) .started s →
      s.task t = .reserve F index bytes →
      s.next (ttReadDmaBufLimitBytes value) (.reserve t) = some s' →
      s'.task t = .refused F bytes →
      (ttReadDmaBufLimitBytes value).toNat < s.liveBytes + s.acceptedBytes + bytes := by
  intro hall
  obtain ⟨s, s', hs, hnext, hfirst, hcounter, hsecond, hrefused⟩ := refusedTogether_refuses
  have hover := hall _ s s' 1 1 0 4096 hs hsecond hnext hrefused
  -- all that is counted is still to be taken back
  have hcounted := (quotaInv_of_reachable (by decide) hs).counted
  obtain ⟨-, hunrolled, -⟩ := bytes_setTask s 0 .idle
  rw [hfirst] at hunrolled
  rw [hcounter] at hcounted
  have hlimit : (ttReadDmaBufLimitBytes (some 1)).toNat = 2 ^ 20 := by decide
  have hback : (QuotaTask.refused 0 (2 ^ 21)).unrolled = 2 ^ 21 ∧ QuotaTask.idle.unrolled = 0 :=
    ⟨rfl, rfl⟩
  omega

end TtKmd
