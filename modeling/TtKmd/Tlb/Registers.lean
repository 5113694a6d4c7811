import TtKmd.Memory.Tokens

/-!
# Configuration registers of the TLB windows

A window has a register of three words in the register page of BAR 0, at twelve bytes
times its id, and the first 32 windows have a strided register behind all of them. The
page is a function from byte offsets to words, and a configuration is the list of the
writes it makes, in their order.
-/

namespace TtKmd

/-- `tenstorrent_noc_tlb_config`. -/
structure NocTlbConfig where
  /-- `addr`. -/
  addr : ℕ
  /-- `x_end`. -/
  xEnd : ℕ
  /-- `y_end`. -/
  yEnd : ℕ
  /-- `x_start`. -/
  xStart : ℕ
  /-- `y_start`. -/
  yStart : ℕ
  /-- `noc`. -/
  noc : ℕ
  /-- `mcast`. -/
  mcast : ℕ
  /-- `ordering`. -/
  ordering : ℕ
  /-- `linked`. -/
  linked : ℕ
  /-- `static_vc`. -/
  staticVc : ℕ

/-- `TtBhSetBits` on the three words, written as one number of 96 bits. -/
def ttBhSetBits (words bitOffset bitLength value : ℕ) : ℕ :=
  (List.range bitLength).foldl
    (fun w i => if value.testBit i then w ||| 2 ^ (bitOffset + i) else w) words

/-- The register fields of a user window: bit offset, bit length and value. -/
def userTlbFields (id : ℕ) (config : NocTlbConfig) : List (ℕ × ℕ × ℕ) :=
  if id < tlb2mCount then
    [(0, 43, config.addr / 2 ^ 21), (43, 6, config.xEnd), (49, 6, config.yEnd),
      (55, 6, config.xStart), (61, 6, config.yStart), (67, 2, config.noc), (69, 1, config.mcast),
      (70, 2, config.ordering), (72, 1, config.linked), (73, 1, config.staticVc)]
  else
    [(0, 32, config.addr / 2 ^ 32), (32, 6, config.xEnd), (38, 6, config.yEnd),
      (44, 6, config.xStart), (50, 6, config.yStart), (56, 2, config.noc), (58, 1, config.mcast),
      (59, 2, config.ordering), (61, 1, config.linked), (62, 1, config.staticVc)]

/-- The register fields of the kernel window at a NOC address. -/
def kernelTlbFields (x y addr noc : ℕ) : List (ℕ × ℕ × ℕ) :=
  [(0, 43, addr / 2 ^ 21), (43, 6, x), (49, 6, y), (67, 2, noc), (70, 2, 1)]

/-- The 96 bits of a list of fields. -/
def tlbWords (fields : List (ℕ × ℕ × ℕ)) : ℕ :=
  fields.foldl (fun w f => ttBhSetBits w f.1 f.2.1 f.2.2) 0

/-- The three register writes of a window: byte offsets and words. -/
def registerWrites (id words : ℕ) : List (ℕ × ℕ) :=
  [(id * 12, words % 2 ^ 32), (id * 12 + 4, words / 2 ^ 32 % 2 ^ 32),
    (id * 12 + 8, words / 2 ^ 64 % 2 ^ 32)]

/-- The write that clears the strided register of a window that has one. -/
def stridedWrites (id : ℕ) : List (ℕ × ℕ) :=
  if id < 32 then [((tlb2mCount + 8) * 12 + id * 4, 0)] else []

/-- The byte offsets of the three words of a window. -/
def wordOffsets (id : ℕ) : List ℕ := [id * 12, id * 12 + 4, id * 12 + 8]

/-- The byte offsets of all registers of a window. -/
def windowOffsets (id : ℕ) : List ℕ := wordOffsets id ++ (stridedWrites id).map (·.1)

/-- The alignment of the address of a window. -/
def windowSize (id : ℕ) : ℕ := if id < tlb2mCount then kernelTlbLen else 2 ^ 32

/-- `TtBhConfigureUserTlb`: the writes it makes, or the refusal of an unaligned address. -/
def ttBhConfigureUserTlb (id : ℕ) (config : NocTlbConfig) : Except NtStatus (List (ℕ × ℕ)) :=
  if config.addr % windowSize id ≠ 0 then .error .invalidParameter
  else .ok (registerWrites id (tlbWords (userTlbFields id config)) ++ stridedWrites id)

/-- `TtBhConfigureKernelTlb`: the writes it makes. -/
def ttBhConfigureKernelTlb (x y addr noc : ℕ) : List (ℕ × ℕ) :=
  registerWrites kernelTlbIndex (tlbWords (kernelTlbFields x y addr noc))

/-- The register page after some writes. -/
def writeRegs (regs : ℕ → ℕ) (writes : List (ℕ × ℕ)) : ℕ → ℕ :=
  writes.foldl (fun r w => Function.update r w.1 w.2) regs

/-- A register that no write names keeps its word. -/
theorem writeRegs_of_notMem {regs : ℕ → ℕ} {writes : List (ℕ × ℕ)} {offset : ℕ}
    (h : offset ∉ writes.map (·.1)) : writeRegs regs writes offset = regs offset :=
  Lib.foldl_update_of_notMem h regs

/-- A configuration writes the registers of its window. -/
theorem ttBhConfigureUserTlb_offsets {id : ℕ} {config : NocTlbConfig} {writes : List (ℕ × ℕ)}
    (h : ttBhConfigureUserTlb id config = .ok writes) : writes.map (·.1) = windowOffsets id := by
  unfold ttBhConfigureUserTlb at h
  split at h
  · cases h
  · cases h
    rw [List.map_append]
    rfl

/-- The strided register of a window, if it has one. -/
theorem mem_stridedWrites {id offset : ℕ} :
    offset ∈ (stridedWrites id).map (·.1) ↔ id < 32 ∧ offset = 2520 + id * 4 := by
  unfold stridedWrites tlb2mCount
  by_cases hid : id < 32
  · simp [hid]
  · simp [hid]

/-- The registers of a window. -/
theorem mem_windowOffsets {id offset : ℕ} :
    offset ∈ windowOffsets id ↔
      (offset = id * 12 ∨ offset = id * 12 + 4 ∨ offset = id * 12 + 8) ∨
        (id < 32 ∧ offset = 2520 + id * 4) := by
  unfold windowOffsets wordOffsets
  rw [List.mem_append, mem_stridedWrites]
  simp

/-- Two windows have no register in common. -/
theorem windowOffsets_disjoint {i j offset : ℕ} (hi : i < tlbTotal) (hj : j < tlbTotal)
    (hne : i ≠ j) (h : offset ∈ windowOffsets i) : offset ∉ windowOffsets j := by
  unfold tlbTotal tlb2mCount at hi hj
  rw [mem_windowOffsets] at h ⊢
  omega

/-- The kernel window's registers. -/
theorem ttBhConfigureKernelTlb_offsets (x y addr noc : ℕ) :
    (ttBhConfigureKernelTlb x y addr noc).map (·.1) = windowOffsets kernelTlbIndex := rfl

/-- `tenstorrent_configure_tlb_in`. -/
structure ConfigureTlbIn where
  /-- `id`. -/
  id : ℕ
  /-- `config`. -/
  config : NocTlbConfig

/-- The checks of `TtIoctlConfigureTlb`, the last of them under `TlbLock`. -/
def configureTlbCheck (m : MemoryState) (F : Handle) (io : Io) (i : ConfigureTlbIn) : NtStatus :=
  if ttCopyInBuffer io 40 ≠ .success then .accessViolation
  else if i.id ≥ maxInboundTlbs then .invalidParameter
  else if i.id ≥ tlbTotal ∨ !m.tlbUsed i.id ∨ m.tlbOwner i.id ≠ some F then .accessDenied
  else .success

/-- `TtIoctlConfigureTlb`: the status and the register page. -/
def ttIoctlConfigureTlb (m : MemoryState) (regs : ℕ → ℕ) (F : Handle) (io : Io)
    (i : ConfigureTlbIn) : NtStatus × (ℕ → ℕ) :=
  if configureTlbCheck m F io i ≠ .success then (configureTlbCheck m F io i, regs)
  else
    match ttBhConfigureUserTlb i.id i.config with
    | .error status => (status, regs)
    | .ok writes => (ttCompleteSizedOutBuffer io 40 8, writeRegs regs writes)

/-- A `CONFIGURE_TLB` that passes its checks is of the owner of a window of the pool. -/
theorem configureTlbCheck_eq_success {m : MemoryState} {F : Handle} {io : Io} {i : ConfigureTlbIn}
    (h : configureTlbCheck m F io i = .success) :
    i.id < tlbTotal ∧ m.tlbUsed i.id = true ∧ m.tlbOwner i.id = some F := by
  unfold configureTlbCheck at h
  split at h
  · cases h
  split at h
  · cases h
  split at h
  · cases h
  rename_i hok
  simp only [not_or, Bool.not_eq_true', Bool.not_eq_false, ne_eq, not_not, not_le] at hok
  exact hok

/-- Everything `CONFIGURE_TLB` can do. -/
theorem ttIoctlConfigureTlb_cases (m : MemoryState) (regs : ℕ → ℕ) (F : Handle) (io : Io)
    (i : ConfigureTlbIn) :
    ((ttIoctlConfigureTlb m regs F io i).1 ≠ .success ∧
        (ttIoctlConfigureTlb m regs F io i).2 = regs) ∨
      (i.id < tlbTotal ∧ m.tlbUsed i.id = true ∧ m.tlbOwner i.id = some F ∧
        ∃ writes, ttBhConfigureUserTlb i.id i.config = .ok writes ∧
          (ttIoctlConfigureTlb m regs F io i).2 = writeRegs regs writes) := by
  unfold ttIoctlConfigureTlb
  by_cases hcheck : configureTlbCheck m F io i ≠ .success
  · rw [if_pos hcheck]
    exact .inl ⟨hcheck, rfl⟩
  rw [if_neg hcheck]
  obtain ⟨hid, hused, howner⟩ := configureTlbCheck_eq_success (not_not.mp hcheck)
  cases hwrites : ttBhConfigureUserTlb i.id i.config with
  | error status =>
    unfold ttBhConfigureUserTlb at hwrites
    split at hwrites
    · cases hwrites
      exact .inl ⟨nofun, rfl⟩
    · cases hwrites
  | ok writes => exact .inr ⟨hid, hused, howner, writes, rfl, rfl⟩

end TtKmd
