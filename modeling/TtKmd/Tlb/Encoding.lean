import TtKmd.Lib.Fields
import TtKmd.Tlb.Registers

/-!
# What the register of a TLB window says

The hardware reads the register of a window as a record of fields, at one set of offsets for
the windows of 2 MiB and at another one for those of 4 GiB. The driver puts the fields into
three words bit by bit, across the borders of the words. Decoding what it has written gives
back the configuration: the whole address, and every other field modulo its width.
-/

namespace TtKmd

open Lib

/-! ## The decoder -/

/-- The 96 bits of the register of a window. -/
def tlbRegister (regs : ℕ → ℕ) (id : ℕ) : ℕ :=
  regs (id * 12) + 2 ^ 32 * regs (id * 12 + 4) + 2 ^ 64 * regs (id * 12 + 8)

/-- The register of a window of 2 MiB. -/
def decodeTlb2M (w : ℕ) : NocTlbConfig where
  addr := readField w 0 43 * 2 ^ 21
  xEnd := readField w 43 6
  yEnd := readField w 49 6
  xStart := readField w 55 6
  yStart := readField w 61 6
  noc := readField w 67 2
  mcast := readField w 69 1
  ordering := readField w 70 2
  linked := readField w 72 1
  staticVc := readField w 73 1

/-- The register of a window of 4 GiB. -/
def decodeTlb4G (w : ℕ) : NocTlbConfig where
  addr := readField w 0 32 * 2 ^ 32
  xEnd := readField w 32 6
  yEnd := readField w 38 6
  xStart := readField w 44 6
  yStart := readField w 50 6
  noc := readField w 56 2
  mcast := readField w 58 1
  ordering := readField w 59 2
  linked := readField w 61 1
  staticVc := readField w 62 1

/-- The register of a window of the pool. -/
def decodeTlbRegister (id w : ℕ) : NocTlbConfig :=
  if id < tlb2mCount then decodeTlb2M w else decodeTlb4G w

/-- The width of all fields of the register together. -/
def tlbFieldBits (id : ℕ) : ℕ := if id < tlb2mCount then 74 else 63

/-- The part of a configuration that has room in the register. -/
def NocTlbConfig.truncated (config : NocTlbConfig) : NocTlbConfig where
  addr := config.addr
  xEnd := config.xEnd % 2 ^ 6
  yEnd := config.yEnd % 2 ^ 6
  xStart := config.xStart % 2 ^ 6
  yStart := config.yStart % 2 ^ 6
  noc := config.noc % 2 ^ 2
  mcast := config.mcast % 2 ^ 1
  ordering := config.ordering % 2 ^ 2
  linked := config.linked % 2 ^ 1
  staticVc := config.staticVc % 2 ^ 1

/-- The offset in the kernel window that `TtBhConfigureKernelTlb` returns. -/
def kernelTlbOffset (addr : ℕ) : ℕ := addr &&& (kernelTlbLen - 1)

/-! ## Setting bits -/

/-- `TtBhSetBits` on the array of words, bit by bit. -/
def setWordBits (words : ℕ → ℕ) (bitOffset bitLength value : ℕ) : ℕ → ℕ :=
  (List.range bitLength).foldl (fun words i =>
    if value.testBit i then
      Function.update words ((bitOffset + i) / 32)
        (words ((bitOffset + i) / 32) ||| 2 ^ ((bitOffset + i) % 32))
    else words) words

/-- The array of words after the calls of `TtBhSetBits` for some fields. -/
def tlbWordArray (fields : List (ℕ × ℕ × ℕ)) : ℕ → ℕ :=
  fields.foldl (fun words f => setWordBits words f.1 f.2.1 f.2.2) fun _ => 0

section Bits

variable {fields : List (ℕ × ℕ × ℕ)}

/-- One round of `TtBhSetBits`. -/
theorem ttBhSetBits_succ (w offset length value : ℕ) :
    ttBhSetBits w offset (length + 1) value =
      if value.testBit length then ttBhSetBits w offset length value ||| 2 ^ (offset + length)
      else ttBhSetBits w offset length value := by
  rw [ttBhSetBits, List.range_succ, List.foldl_append]
  rfl

/-- The bits after `TtBhSetBits`. -/
theorem testBit_ttBhSetBits (w offset length value k : ℕ) :
    (ttBhSetBits w offset length value).testBit k = true ↔
      w.testBit k = true ∨ (InField (offset, length, value) k ∧
        value.testBit (k - offset) = true) := by
  induction length with
  | zero =>
    have hnone : ¬InField (offset, 0, value) k := fun hin => by
      have hlt : k < offset + 0 := hin.2
      exact absurd hin.1 (by omega)
    simp [ttBhSetBits, hnone]
  | succ length ih =>
    have hin : InField (offset, length + 1, value) k ↔
        InField (offset, length, value) k ∨ k = offset + length := by
      simp only [InField]
      omega
    rw [ttBhSetBits_succ, hin]
    by_cases hbit : value.testBit length = true
    · rw [if_pos hbit, Nat.testBit_or, Nat.testBit_two_pow, Bool.or_eq_true, decide_eq_true_eq, ih]
      have hlast : k = offset + length → value.testBit (k - offset) = true := by
        rintro rfl
        rwa [Nat.add_sub_cancel_left]
      have heq : offset + length = k ↔ k = offset + length := eq_comm
      rw [heq, or_and_right, or_assoc, and_iff_left_of_imp hlast]
    · rw [if_neg hbit, ih]
      have hlast : k = offset + length → value.testBit (k - offset) ≠ true := by
        rintro rfl
        rwa [Nat.add_sub_cancel_left]
      constructor
      · rintro (hw | ⟨hold, hvalue⟩)
        · exact .inl hw
        · exact .inr ⟨.inl hold, hvalue⟩
      · rintro (hw | ⟨hold | hnew, hvalue⟩)
        · exact .inl hw
        · exact .inr ⟨hold, hvalue⟩
        · exact absurd hvalue (hlast hnew)

/-- `TtBhSetBits` adds a field. -/
theorem ttBhSetBits_eq (w : ℕ) (f : ℕ × ℕ × ℕ) : ttBhSetBits w f.1 f.2.1 f.2.2 = setField w f := by
  refine Nat.eq_of_testBit_eq fun k => ?_
  rw [Bool.eq_iff_iff, testBit_ttBhSetBits, testBit_setField]

/-- The 96 bits are those of the fields. -/
theorem tlbWords_eq (fields : List (ℕ × ℕ × ℕ)) : tlbWords fields = packFields fields := by
  unfold tlbWords packFields
  exact List.foldl_ext _ _ _ fun w f _ => ttBhSetBits_eq w f

/-- A bit that is set in the 96 bits is set in the word that has it. -/
theorem readField_lor_two_pow (w bit j : ℕ) :
    readField (w ||| 2 ^ bit) (32 * j) 32 =
      if j = bit / 32 then readField w (32 * j) 32 ||| 2 ^ (bit % 32)
      else readField w (32 * j) 32 := by
  refine Nat.eq_of_testBit_eq fun k => ?_
  rw [Bool.eq_iff_iff, testBit_readField, Nat.testBit_or, Nat.testBit_two_pow, Bool.or_eq_true,
    decide_eq_true_eq]
  split
  · rw [Nat.testBit_or, Nat.testBit_two_pow, Bool.or_eq_true, decide_eq_true_eq,
      testBit_readField]
    constructor
    · rintro ⟨hk, hold | hnew⟩
      · exact .inl ⟨hk, hold⟩
      · exact .inr (by omega)
    · rintro (⟨hk, hold⟩ | hnew)
      · exact ⟨hk, .inl hold⟩
      · exact ⟨by omega, .inr (by omega)⟩
  · rw [testBit_readField]
    constructor
    · rintro ⟨hk, hold | hnew⟩
      · exact ⟨hk, hold⟩
      · omega
    · rintro ⟨hk, hold⟩
      exact ⟨hk, .inl hold⟩

/-- The array holds the 96 bits, 32 in a word: one call of `TtBhSetBits`. -/
theorem setWordBits_eq {words : ℕ → ℕ} {w : ℕ} (h : ∀ j, words j = readField w (32 * j) 32)
    (offset length value j : ℕ) :
    setWordBits words offset length value j =
      readField (ttBhSetBits w offset length value) (32 * j) 32 := by
  induction length generalizing j with
  | zero => exact h j
  | succ length ih =>
    have hsucc : setWordBits words offset (length + 1) value =
        if value.testBit length then
          Function.update (setWordBits words offset length value) ((offset + length) / 32)
            (setWordBits words offset length value ((offset + length) / 32) |||
              2 ^ ((offset + length) % 32))
        else setWordBits words offset length value := by
      rw [setWordBits, List.range_succ, List.foldl_append]
      rfl
    rw [hsucc, ttBhSetBits_succ]
    by_cases hbit : value.testBit length = true
    · rw [if_pos hbit, if_pos hbit, readField_lor_two_pow, Function.update_apply]
      split
      · rename_i hj
        rw [ih, ← hj]
      · exact ih j
    · rw [if_neg hbit, if_neg hbit]
      exact ih j

/-- The array of words holds the 96 bits of the fields. -/
theorem tlbWordArray_eq (fields : List (ℕ × ℕ × ℕ)) (j : ℕ) :
    tlbWordArray fields j = readField (tlbWords fields) (32 * j) 32 := by
  have hfold : ∀ (fields : List (ℕ × ℕ × ℕ)) (words : ℕ → ℕ) (w : ℕ),
      (∀ j, words j = readField w (32 * j) 32) → ∀ j,
        fields.foldl (fun words f => setWordBits words f.1 f.2.1 f.2.2) words j =
          readField (fields.foldl (fun w f => ttBhSetBits w f.1 f.2.1 f.2.2) w) (32 * j) 32 := by
    intro fields
    induction fields with
    | nil => exact fun _ _ h => h
    | cons f fields ih =>
      intro words w h
      rw [List.foldl_cons, List.foldl_cons]
      exact ih _ _ (setWordBits_eq h f.1 f.2.1 f.2.2)
  refine hfold fields _ 0 (fun j => ?_) j
  simp [readField]

end Bits

/-! ## Decoding -/

section Decoding

variable {id : ℕ} {config : NocTlbConfig} {regs : ℕ → ℕ}

/-- The fields of a user window have no bit in common. -/
theorem userTlbFields_apart (id : ℕ) (config : NocTlbConfig) :
    (userTlbFields id config).Pairwise FieldsApart := by
  unfold userTlbFields
  split <;> simp [FieldsApart]

/-- There is no bit behind the fields of a user window. -/
theorem userTlbWords_lt (id : ℕ) (config : NocTlbConfig) :
    tlbWords (userTlbFields id config) < 2 ^ tlbFieldBits id := by
  rw [tlbWords_eq]
  refine packFields_lt ?_
  unfold userTlbFields tlbFieldBits
  split <;> simp

/-- There is no bit behind the fields of the kernel window. -/
theorem kernelTlbWords_lt (x y addr noc : ℕ) :
    tlbWords (kernelTlbFields x y addr noc) < 2 ^ 72 := by
  rw [tlbWords_eq]
  refine packFields_lt ?_
  simp [kernelTlbFields]

/-- A field of a window is read back modulo its width. -/
theorem readField_tlbWords {fields : List (ℕ × ℕ × ℕ)} (h : fields.Pairwise FieldsApart) :
    ∀ f ∈ fields, readField (tlbWords fields) f.1 f.2.1 = f.2.2 % 2 ^ f.2.1 := by
  rw [tlbWords_eq]
  exact fun f hf => readField_packFields h hf

/-- Decoding the register of a window of 2 MiB. -/
theorem decodeTlb2M_userTlbFields (hid : id < tlb2mCount) (haddr : config.addr < 2 ^ 64)
    (haligned : config.addr % 2 ^ 21 = 0) :
    decodeTlb2M (tlbWords (userTlbFields id config)) = config.truncated := by
  have hread := readField_tlbWords (userTlbFields_apart id config)
  rw [userTlbFields, if_pos hid] at hread ⊢
  simp only [List.forall_mem_cons, List.not_mem_nil, false_implies, implies_true, and_true]
    at hread
  obtain ⟨haddr', hxEnd, hyEnd, hxStart, hyStart, hnoc, hmcast, hordering, hlinked, hvc⟩ := hread
  have hback : config.addr / 2 ^ 21 % 2 ^ 43 * 2 ^ 21 = config.addr := by omega
  rw [decodeTlb2M, haddr', hxEnd, hyEnd, hxStart, hyStart, hnoc, hmcast, hordering, hlinked, hvc,
    hback]
  rfl

/-- Decoding the register of a window of 4 GiB. -/
theorem decodeTlb4G_userTlbFields (hid : ¬id < tlb2mCount) (haddr : config.addr < 2 ^ 64)
    (haligned : config.addr % 2 ^ 32 = 0) :
    decodeTlb4G (tlbWords (userTlbFields id config)) = config.truncated := by
  have hread := readField_tlbWords (userTlbFields_apart id config)
  rw [userTlbFields, if_neg hid] at hread ⊢
  simp only [List.forall_mem_cons, List.not_mem_nil, false_implies, implies_true, and_true]
    at hread
  obtain ⟨haddr', hxEnd, hyEnd, hxStart, hyStart, hnoc, hmcast, hordering, hlinked, hvc⟩ := hread
  have hback : config.addr / 2 ^ 32 % 2 ^ 32 * 2 ^ 32 = config.addr := by omega
  rw [decodeTlb4G, haddr', hxEnd, hyEnd, hxStart, hyStart, hnoc, hmcast, hordering, hlinked, hvc,
    hback]
  rfl

/-- Decoding the register of a window of the pool. -/
theorem decodeTlbRegister_userTlbFields (haddr : config.addr < 2 ^ 64)
    (haligned : config.addr % windowSize id = 0) :
    decodeTlbRegister id (tlbWords (userTlbFields id config)) = config.truncated := by
  unfold windowSize at haligned
  unfold decodeTlbRegister
  split
  · rename_i hid
    rw [if_pos hid] at haligned
    exact decodeTlb2M_userTlbFields hid haddr haligned
  · rename_i hid
    rw [if_neg hid] at haligned
    exact decodeTlb4G_userTlbFields hid haddr haligned

/-- The offset in the kernel window. -/
theorem kernelTlbOffset_eq (addr : ℕ) : kernelTlbOffset addr = addr % 2 ^ 21 :=
  Nat.and_two_pow_sub_one_eq_mod addr 21

/-- The configuration of the kernel window at an address: strict ordering, no multicast. -/
def kernelTlbConfig (x y addr noc : ℕ) : NocTlbConfig :=
  ⟨addr - kernelTlbOffset addr, x, y, 0, 0, noc, 0, 1, 0, 0⟩

/-- The kernel window is configured as a user window is. -/
theorem tlbWords_kernelTlbFields (x y addr noc : ℕ) :
    tlbWords (kernelTlbFields x y addr noc) =
      tlbWords (userTlbFields kernelTlbIndex (kernelTlbConfig x y addr noc)) := by
  have hid : kernelTlbIndex < tlb2mCount := by decide
  have hbase : (addr - kernelTlbOffset addr) / 2 ^ 21 = addr / 2 ^ 21 := by
    rw [kernelTlbOffset_eq]
    omega
  -- the fields that are left out have the value 0
  rw [tlbWords_eq, tlbWords_eq, userTlbFields, if_pos hid, kernelTlbConfig, hbase]
  simp [packFields, kernelTlbFields, setField]

/-- Decoding the register of the kernel window. -/
theorem decodeTlb2M_kernelTlbFields (x y noc : ℕ) {addr : ℕ} (haddr : addr < 2 ^ 64) :
    decodeTlb2M (tlbWords (kernelTlbFields x y addr noc)) =
      (kernelTlbConfig x y addr noc).truncated := by
  have hoffset := kernelTlbOffset_eq addr
  rw [tlbWords_kernelTlbFields]
  refine decodeTlb2M_userTlbFields (by decide) ?_ ?_
  · show addr - kernelTlbOffset addr < 2 ^ 64
    omega
  · show (addr - kernelTlbOffset addr) % 2 ^ 21 = 0
    omega

/-- The three words of a window are read back. -/
theorem tlbRegister_registerWrites {words : ℕ} (hwords : words < 2 ^ 96) (regs : ℕ → ℕ) (id : ℕ) :
    tlbRegister (writeRegs regs (registerWrites id words)) id = words := by
  have h0 : id * 12 ≠ id * 12 + 4 := by omega
  have h1 : id * 12 ≠ id * 12 + 8 := by omega
  have h2 : id * 12 + 4 ≠ id * 12 + 8 := by omega
  simp only [tlbRegister, registerWrites, writeRegs, List.foldl_cons, List.foldl_nil,
    Function.update_self, Function.update_of_ne h0, Function.update_of_ne h1,
    Function.update_of_ne h2]
  omega

/-- The strided register is none of the three words of a window. -/
theorem tlbRegister_stridedWrites (hid : id < tlbTotal) (regs : ℕ → ℕ) :
    tlbRegister (writeRegs regs (stridedWrites id)) id = tlbRegister regs id := by
  have hother : ∀ offset < 2520, writeRegs regs (stridedWrites id) offset = regs offset := by
    intro offset hoffset
    refine writeRegs_of_notMem fun hmem => ?_
    obtain ⟨-, heq⟩ := mem_stridedWrites.mp hmem
    omega
  unfold tlbTotal tlb2mCount at hid
  rw [tlbRegister, tlbRegister, hother _ (by omega), hother _ (by omega), hother _ (by omega)]

/-- The registers after a user window was configured. -/
theorem tlbRegister_ttBhConfigureUserTlb (hid : id < tlbTotal) (regs : ℕ → ℕ) (words : ℕ)
    (hwords : words < 2 ^ 96) :
    tlbRegister (writeRegs regs (registerWrites id words ++ stridedWrites id)) id = words := by
  have happend : writeRegs regs (registerWrites id words ++ stridedWrites id) =
      writeRegs (writeRegs regs (registerWrites id words)) (stridedWrites id) :=
    List.foldl_append
  rw [happend, tlbRegister_stridedWrites hid, tlbRegister_registerWrites hwords]

/-- The words that are written are those of the array. -/
theorem registerWrites_tlbWords (id : ℕ) (fields : List (ℕ × ℕ × ℕ)) :
    registerWrites id (tlbWords fields) =
      [(id * 12, tlbWordArray fields 0), (id * 12 + 4, tlbWordArray fields 1),
        (id * 12 + 8, tlbWordArray fields 2)] := by
  simp [registerWrites, tlbWordArray_eq, readField]

end Decoding

/-! ## The registers of all windows -/

/-- The four bytes of a register lie in the register page, apart from those of the registers of
all other windows. -/
def OwnBytes (id : ℕ) : Prop :=
  ∀ offset ∈ windowOffsets id, offset + 4 ≤ 4096 ∧
    ∀ j < tlbTotal, j ≠ id → ∀ offset' ∈ windowOffsets j,
      offset + 4 ≤ offset' ∨ offset' + 4 ≤ offset

/-- A window of the pool has bytes of its own. -/
theorem ownBytes {id : ℕ} (hid : id < tlbTotal) : OwnBytes id := by
  unfold tlbTotal tlb2mCount at hid
  intro offset hoffset
  rw [mem_windowOffsets] at hoffset
  refine ⟨by omega, fun j hj hne offset' hoffset' => ?_⟩
  unfold tlbTotal tlb2mCount at hj
  rw [mem_windowOffsets] at hoffset'
  omega

/-- What a configuration of a user window writes. -/
structure UserEncoded (id : ℕ) (config : NocTlbConfig) (regs : ℕ → ℕ)
    (writes : List (ℕ × ℕ)) : Prop where
  /-- The three words of the array, and the cleared strided register. -/
  words : writes = [(id * 12, tlbWordArray (userTlbFields id config) 0),
    (id * 12 + 4, tlbWordArray (userTlbFields id config) 1),
    (id * 12 + 8, tlbWordArray (userTlbFields id config) 2)] ++ stridedWrites id
  /-- All of them are to the registers of the window. -/
  offsets : writes.map (·.1) = windowOffsets id
  /-- The register is decoded to the configuration. -/
  decoded : decodeTlbRegister id (tlbRegister (writeRegs regs writes) id) = config.truncated
  /-- The bits outside the fields are 0. -/
  rest : tlbRegister (writeRegs regs writes) id < 2 ^ tlbFieldBits id

/-- What a configuration of the kernel window writes. -/
structure KernelEncoded (x y addr noc : ℕ) (regs : ℕ → ℕ) : Prop where
  /-- All writes are to the registers of the kernel window. -/
  offsets : (ttBhConfigureKernelTlb x y addr noc).map (·.1) = windowOffsets kernelTlbIndex
  /-- The register is decoded to the configuration. -/
  decoded : decodeTlbRegister kernelTlbIndex
    (tlbRegister (writeRegs regs (ttBhConfigureKernelTlb x y addr noc)) kernelTlbIndex) =
      (kernelTlbConfig x y addr noc).truncated
  /-- The base of the window and the offset that is returned make the address. -/
  address : (kernelTlbConfig x y addr noc).addr + kernelTlbOffset addr = addr
  /-- The offset lies in the window. -/
  offset : kernelTlbOffset addr < kernelTlbLen

/-- The register of the kernel window says where its accesses go. -/
theorem kernelEncoded (x y noc : ℕ) {addr : ℕ} (haddr : addr < 2 ^ 64) (regs : ℕ → ℕ) :
    KernelEncoded x y addr noc regs where
  offsets := ttBhConfigureKernelTlb_offsets x y addr noc
  decoded := by
    have hlt : tlbWords (kernelTlbFields x y addr noc) < 2 ^ 96 :=
      (kernelTlbWords_lt x y addr noc).trans (by decide)
    rw [ttBhConfigureKernelTlb, tlbRegister_registerWrites hlt]
    exact decodeTlb2M_kernelTlbFields x y noc haddr
  address := by
    show addr - kernelTlbOffset addr + kernelTlbOffset addr = addr
    rw [kernelTlbOffset_eq]
    omega
  offset := by
    rw [kernelTlbOffset_eq]
    exact Nat.mod_lt _ (Nat.two_pow_pos 21)

/-- For every window of the pool, every configuration with a 64-bit address and any registers:
an aligned configuration is written so that its register is decoded to it, an unaligned one
changes no register, and the registers of the window have their bytes to themselves; and the
kernel window is written so that its register and the returned offset make the address. -/
theorem tlb_registers_encode {id : ℕ} (hid : id < tlbTotal) {config : NocTlbConfig}
    (haddr : config.addr < 2 ^ 64) (regs : ℕ → ℕ) :
    (config.addr % windowSize id = 0 →
        ∃ writes, ttBhConfigureUserTlb id config = .ok writes ∧
          UserEncoded id config regs writes) ∧
      (config.addr % windowSize id ≠ 0 →
        ttBhConfigureUserTlb id config = .error .invalidParameter ∧
          ∀ m F io, (ttIoctlConfigureTlb m regs F io ⟨id, config⟩).2 = regs) ∧
      (∀ x y addr noc, addr < 2 ^ 64 → KernelEncoded x y addr noc regs) ∧ OwnBytes id := by
  refine ⟨fun haligned => ?_, fun hunaligned => ?_,
    fun x y addr noc haddr => kernelEncoded x y noc haddr regs, ownBytes hid⟩
  · have hok : ttBhConfigureUserTlb id config =
        .ok (registerWrites id (tlbWords (userTlbFields id config)) ++ stridedWrites id) := by
      rw [ttBhConfigureUserTlb, if_neg (not_not.mpr haligned)]
    have hbits := userTlbWords_lt id config
    have hlt : tlbWords (userTlbFields id config) < 2 ^ 96 := by
      refine hbits.trans ?_
      unfold tlbFieldBits
      split <;> decide
    have hregister := tlbRegister_ttBhConfigureUserTlb hid regs _ hlt
    refine ⟨_, hok, ?_, ttBhConfigureUserTlb_offsets hok, ?_, ?_⟩
    · rw [registerWrites_tlbWords]
    · rw [hregister]
      exact decodeTlbRegister_userTlbFields haddr haligned
    · rw [hregister]
      exact hbits
  · have herror : ttBhConfigureUserTlb id config = .error .invalidParameter := by
      rw [ttBhConfigureUserTlb, if_pos hunaligned]
    refine ⟨herror, fun m F io => ?_⟩
    unfold ttIoctlConfigureTlb
    split
    · rfl
    · rw [herror]

/-- The window 209 at the second 4 GiB, with an end coordinate that is too large. -/
theorem tlb_registers_encode_oversize :
    ∃ writes, ttBhConfigureUserTlb 209 ⟨2 ^ 32, 65, 2, 0, 0, 1, 0, 1, 0, 3⟩ = .ok writes ∧
      decodeTlbRegister 209 (tlbRegister (writeRegs (fun _ => 0) writes) 209) =
        ⟨2 ^ 32, 1, 2, 0, 0, 1, 0, 1, 0, 1⟩ := by
  obtain ⟨writes, hok, hencoded⟩ :=
    (@tlb_registers_encode 209 (by decide) ⟨2 ^ 32, 65, 2, 0, 0, 1, 0, 1, 0, 3⟩ (by decide)
      fun _ => 0).1 rfl
  exact ⟨writes, hok, hencoded.decoded⟩

end TtKmd
