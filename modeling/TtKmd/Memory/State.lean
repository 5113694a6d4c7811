import TtKmd.Iatu.Registers
import TtKmd.Lib.Lists

/-!
# Memory resources of a handle and of the device

Each file object owns user mappings, pinnings and DMA buffers; the device owns the
pool of TLB windows, the outbound regions and the count of DMA-buffer bytes. A DMA
buffer has an identity, which stands for the address of its `TT_DMABUF`: mappings
and pinnings refer to a buffer by it.

`MemoryConfig` is what `EvtDevicePrepareHardware` fixes; `MemoryState` is what the
requests change. What the operating system answers (an allocation, a lock of user
pages, a view) is an input of the request that asks for it.
-/

namespace TtKmd

open Lib

/-- `TENSTORRENT_MAX_DMA_BUFS`. -/
def maxDmaBufs : ℕ := 256

/-- `TT_MAX_DMA_BUF_SIZE`. -/
def maxDmaBufSize : ℕ := 2 ^ 28

/-- `TT_TLB_2M_COUNT`. -/
def tlb2mCount : ℕ := 202

/-- `TT_TLB_TOTAL`. -/
def tlbTotal : ℕ := tlb2mCount + 8

/-- `TENSTORRENT_MAX_INBOUND_TLBS`. -/
def maxInboundTlbs : ℕ := 256

/-- `TT_BH_KERNEL_TLB_LEN`. -/
def kernelTlbLen : ℕ := 2 ^ 21

/-- `TT_BH_KERNEL_TLB_INDEX`. -/
def kernelTlbIndex : ℕ := 201

/-- `TT_DMABUF`. -/
structure DmaBuf where
  /-- The identity of the record and of its `WDFCOMMONBUFFER`. -/
  id : ℕ
  /-- `Size`. -/
  size : ℕ
  /-- `Index`. -/
  index : ℕ
  /-- `Logical`, the bus address. -/
  logical : ℕ
  /-- The CPU physical address of the common buffer. -/
  physical : ℕ
  /-- `IatuRegion`; `none` is -1. -/
  iatuRegion : Option (Fin 16)
  deriving DecidableEq

/-- `TT_USER_MAPPING`; a record in a list has a view in its process. -/
structure UserMapping where
  /-- `UserVa`. -/
  userVa : ℕ
  /-- `Length`. -/
  length : ℕ
  /-- `Mdl`: the physical address the view begins at. -/
  physical : ℕ
  /-- `TlbId`; `none` is -1. -/
  tlbId : Option ℕ
  /-- `IsDmaBuf`. -/
  isDmaBuf : Bool
  /-- `DmaBuf`; `none` is a null pointer. -/
  dmaBuf : Option ℕ
  /-- `Process`. -/
  process : Process
  deriving DecidableEq

/-- `TT_PINNING`. -/
structure Pinning where
  /-- `VirtualAddress`. -/
  virtualAddress : ℕ
  /-- `Size`. -/
  size : ℕ
  /-- `Mdl`: the first frame of the locked pages; `none` is a null pointer. -/
  mdl : Option ℕ
  /-- `BackingDmaBuf`; `none` is a null pointer. -/
  backingDmaBuf : Option ℕ
  /-- `IatuRegion`; `none` is -1. -/
  iatuRegion : Option (Fin 16)
  deriving DecidableEq

/-- The memory part of `TT_FILE_CONTEXT`, guarded by its `Lock`. -/
structure FileMemory where
  /-- `Mappings`. -/
  mappings : List UserMapping
  /-- `Pinnings`. -/
  pinnings : List Pinning
  /-- `DmaBufs`, by `buf_index`. -/
  dmaBufs : ℕ → Option DmaBuf

/-- `TtFileContextInitMemory`. -/
def FileMemory.init : FileMemory := ⟨[], [], fun _ => none⟩

/-- What the hardware set-up fixes. -/
structure MemoryConfig where
  /-- `IsBlackhole`. -/
  isBlackhole : Bool
  /-- `BarLength`. -/
  barLength : ℕ → ℕ
  /-- `BarBase`. -/
  barBase : ℕ → ℕ
  /-- `DmaEnabler` is not null. -/
  dmaEnabler : Bool
  /-- `DmaIdentityKnown`. -/
  dmaIdentityKnown : Bool
  /-- `DmaIdentityMapped`. -/
  dmaIdentityMapped : Bool
  /-- `DmaBufLimitBytes`; zero is no limit. -/
  dmaBufLimitBytes : ℕ

/-- `Tlb4gCount`, which `EvtDevicePrepareHardware` reads off the length of BAR 4. -/
def MemoryConfig.tlb4gCount (c : MemoryConfig) : ℕ := min (c.barLength 4 / 2 ^ 32) 8

/-- A Blackhole with an identity-mapped DMA domain and no quota. -/
def blackholeConfig : MemoryConfig where
  isBlackhole := true
  barLength := fun bar => if bar = 0 then 2 ^ 29 else 0
  barBase := fun _ => 0
  dmaEnabler := true
  dmaIdentityKnown := true
  dmaIdentityMapped := true
  dmaBufLimitBytes := 0

/-- What the memory requests change. -/
structure MemoryState where
  /-- `TlbUsed`. -/
  tlbUsed : ℕ → Bool
  /-- `TlbOwner`. -/
  tlbOwner : ℕ → Option Handle
  /-- `Iatu` and the registers behind it. -/
  iatu : IatuUnit
  /-- `DmaBufBytes`. -/
  dmaBufBytes : ℤ
  /-- The memory of each file object. -/
  file : Handle → FileMemory
  /-- The identity of the next DMA buffer. -/
  nextBuf : ℕ

/-- The memory of a started device: nothing is open, and the driver keeps one window
of a Blackhole for itself. -/
def MemoryState.started (c : MemoryConfig) (regs : Fin 16 → AtuRegs) : MemoryState where
  tlbUsed := fun id => c.isBlackhole && id == kernelTlbIndex
  tlbOwner := fun _ => none
  iatu := ⟨fun _ => .empty, regs⟩
  dmaBufBytes := 0
  file := fun _ => .init
  nextBuf := 0

/-- The memory of one file object is replaced. -/
def MemoryState.setFile (m : MemoryState) (F : Handle) (f : FileMemory) : MemoryState :=
  { m with file := Function.update m.file F f }

/-- The lengths of the two buffers of a request. -/
structure Io where
  /-- Length of the input buffer. -/
  input : ℕ
  /-- Length of the output buffer. -/
  output : ℕ

/-- `TtCopyInBuffer`. -/
def ttCopyInBuffer (io : Io) (inSize : ℕ) : NtStatus :=
  if io.input < inSize then .accessViolation else .success

/-- `TtCompleteSizedOutBuffer`. -/
def ttCompleteSizedOutBuffer (io : Io) (outOffset declared : ℕ) : NtStatus :=
  if io.output < outOffset ∨ io.output - outOffset < declared then .accessViolation else .success

/-- The output fits exactly when the buffer has room for it behind the input. -/
theorem ttCompleteSizedOutBuffer_iff {io : Io} {off declared : ℕ} :
    ttCompleteSizedOutBuffer io off declared = .success ↔ off + declared ≤ io.output := by
  unfold ttCompleteSizedOutBuffer
  split
  · simp only [reduceCtorEq, false_iff]
    omega
  · simp only [true_iff]
    omega

/-- What a memory request returns and leaves. -/
structure Reply (α : Type) where
  /-- The status. -/
  status : NtStatus
  /-- The output structure, when the request succeeds. -/
  out : Option α
  /-- The memory afterwards. -/
  mem : MemoryState

/-- A request that fails and leaves `m`. -/
def Reply.fail {α : Type} (m : MemoryState) (status : NtStatus) : Reply α := ⟨status, none, m⟩

/-- The live DMA buffers of a handle. -/
def FileMemory.bufs (f : FileMemory) : List DmaBuf := (List.range maxDmaBufs).filterMap f.dmaBufs

/-- The regions named by the live DMA buffers and pinnings of a handle. -/
def FileMemory.regions (f : FileMemory) : List (Fin 16) :=
  f.bufs.filterMap (·.iatuRegion) ++ f.pinnings.filterMap (·.iatuRegion)

/-- The bytes of the live DMA buffers of a handle. -/
def FileMemory.bytes (f : FileMemory) : ℤ := (f.bufs.map fun b => (b.size : ℤ)).sum

/-- A live DMA buffer is one in a slot. -/
theorem FileMemory.mem_bufs {f : FileMemory} {b : DmaBuf} :
    b ∈ f.bufs ↔ ∃ i < maxDmaBufs, f.dmaBufs i = some b := by
  simp [FileMemory.bufs]

/-- A DMA buffer put into an empty slot. -/
theorem FileMemory.bufs_insert {f : FileMemory} {i : ℕ} (hi : i < maxDmaBufs)
    (hf : f.dmaBufs i = none) (b : DmaBuf) :
    ({ f with dmaBufs := Function.update f.dmaBufs i (some b) } : FileMemory).bufs.Perm
      (b :: f.bufs) :=
  filterMap_update_some List.nodup_range (List.mem_range.mpr hi) hf

/-- A DMA buffer taken from its slot. -/
theorem FileMemory.bufs_remove {f : FileMemory} {i : ℕ} (hi : i < maxDmaBufs) {b : DmaBuf}
    (hf : f.dmaBufs i = some b) :
    f.bufs.Perm
      (b :: ({ f with dmaBufs := Function.update f.dmaBufs i none } : FileMemory).bufs) :=
  filterMap_update_none List.nodup_range (List.mem_range.mpr hi) hf

end TtKmd
