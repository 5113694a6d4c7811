import Mathlib.Data.List.Range
import Mathlib.Tactic.Ring

/-!
# Bytes in memory

Numbers as little-endian bytes, memory as a function from addresses to bytes, and local
structures: a piece of memory that is cleared and then has its fields stored. What is read
back from such a structure does not depend on what the memory held before.
-/

namespace TtKmd.Lib

/-- A byte. -/
abbrev Byte := BitVec 8

/-- A memory. -/
abbrev Memory := ℕ → Byte

/-- The lowest bytes of a number, the lowest first. -/
def leBytes (count value : ℕ) : List Byte :=
  (List.range count).map fun i => BitVec.ofNat 8 (value / 256 ^ i)

/-- The number some bytes are, the lowest first. -/
def leValue (bytes : List Byte) : ℕ := bytes.foldr (fun byte value => byte.toNat + 256 * value) 0

/-- The number in a field of a structure. -/
def leField (bytes : List Byte) (off size : ℕ) : ℕ := leValue ((bytes.drop off).take size)

/-- `RtlZeroMemory`. -/
def zeroMemory (m : Memory) (off size : ℕ) : Memory :=
  fun i => if off ≤ i ∧ i < off + size then 0 else m i

/-- `RtlCopyMemory`. -/
def copyMemory (m : Memory) (off : ℕ) (src : List Byte) : Memory :=
  fun i => if off ≤ i ∧ i < off + src.length then src.getD (i - off) 0 else m i

/-- The bytes of a piece of memory. -/
def readMemory (m : Memory) (off size : ℕ) : List Byte :=
  (List.range size).map fun i => m (off + i)

/-- A structure whose memory is cleared and whose fields are stored then, one by one. -/
def clearedStruct (size : ℕ) (fields : List (ℕ × List Byte)) (stack : Memory) : List Byte :=
  readMemory (fields.foldl (fun m field => copyMemory m field.1 field.2) (zeroMemory stack 0 size))
    0 size

/-- An area of memory is cleared, and as many bytes are copied to it as fit. -/
def fillArea (m : Memory) (off size : ℕ) (src : List Byte) : Memory :=
  copyMemory (zeroMemory m off size) off (src.take size)

section Lemmas

variable {m m' : Memory} {off size : ℕ} {bytes src : List Byte}

/-- As many bytes are read as asked for. -/
theorem length_readMemory : (readMemory m off size).length = size := by
  unfold readMemory
  rw [List.length_map, List.length_range]

/-- The byte at a place of a piece of memory. -/
theorem getElem_readMemory {i : ℕ} (h : i < (readMemory m off size).length) :
    (readMemory m off size)[i] = m (off + i) := by
  simp [readMemory]

/-- Memories that agree on an area are read alike there. -/
theorem readMemory_congr (h : ∀ i, off ≤ i → i < off + size → m i = m' i) :
    readMemory m off size = readMemory m' off size := by
  unfold readMemory
  refine List.map_congr_left fun i hi => h (off + i) (Nat.le_add_right _ _) ?_
  exact Nat.add_lt_add_left (List.mem_range.mp hi) off

/-- A piece of memory is read in two parts. -/
theorem readMemory_add (first second : ℕ) :
    readMemory m off (first + second) =
      readMemory m off first ++ readMemory m (off + first) second := by
  unfold readMemory
  rw [List.range_add, List.map_append, List.map_map]
  congr 1
  refine List.map_congr_left fun i _ => ?_
  rw [Function.comp_apply, Nat.add_assoc]

/-- A store into memories that agree leaves them in agreement. -/
theorem copyMemory_congr {start : ℕ} (h : ∀ i < size, m i = m' i) :
    ∀ i < size, copyMemory m start src i = copyMemory m' start src i := by
  intro i hi
  unfold copyMemory
  split
  · rfl
  · exact h i hi

/-- A cleared structure says nothing about the memory it is in. -/
theorem clearedStruct_stack (fields : List (ℕ × List Byte)) (stack stack' : Memory) :
    clearedStruct size fields stack = clearedStruct size fields stack' := by
  have hstores : ∀ (fields : List (ℕ × List Byte)) (m m' : Memory), (∀ i < size, m i = m' i) →
      ∀ i < size, fields.foldl (fun m field => copyMemory m field.1 field.2) m i =
        fields.foldl (fun m field => copyMemory m field.1 field.2) m' i := by
    intro fields
    induction fields with
    | nil => exact fun _ _ h => h
    | cons field fields ih => exact fun m m' h => ih _ _ (copyMemory_congr h)
  have hcleared : ∀ i < size, zeroMemory stack 0 size i = zeroMemory stack' 0 size i := by
    intro i hi
    have harea : 0 ≤ i ∧ i < 0 + size := ⟨Nat.zero_le _, by omega⟩
    unfold zeroMemory
    rw [if_pos harea, if_pos harea]
  refine readMemory_congr fun i _ hi => ?_
  exact hstores fields _ _ hcleared i (by omega)

/-- Outside of a filled area nothing changes. -/
theorem fillArea_outside {i : ℕ} (h : i < off ∨ off + size ≤ i) :
    fillArea m off size src i = m i := by
  have hlength : (src.take size).length ≤ size := List.length_take_le _ _
  unfold fillArea copyMemory zeroMemory
  rw [if_neg (by omega), if_neg (by omega)]

/-- A filled area holds what fits of the source, and zeros behind it. -/
theorem readMemory_fillArea :
    readMemory (fillArea m off size src) off size =
      src.take size ++ List.replicate (size - src.length) 0 := by
  have hlength : (src.take size).length = min size src.length := List.length_take
  refine List.ext_getElem ?_ fun i hi _ => ?_
  · rw [length_readMemory, List.length_append, hlength, List.length_replicate]
    omega
  rw [getElem_readMemory]
  rw [length_readMemory] at hi
  unfold fillArea copyMemory zeroMemory
  by_cases hin : i < (src.take size).length
  · have harea : off ≤ off + i ∧ off + i < off + (src.take size).length := by omega
    rw [if_pos harea, List.getElem_append_left hin, Nat.add_sub_cancel_left,
      List.getD_eq_getElem?_getD, List.getElem?_eq_getElem hin, Option.getD_some]
  · have hcopied : ¬ (off ≤ off + i ∧ off + i < off + (src.take size).length) := by omega
    have harea : off ≤ off + i ∧ off + i < off + size := by omega
    rw [if_neg hcopied, if_pos harea, List.getElem_append_right (by omega), List.getElem_replicate]

/-- The first bytes of a piece of memory. -/
theorem take_readMemory {count : ℕ} (h : size ≤ count) :
    (readMemory m off count).take size = readMemory m off size := by
  obtain ⟨rest, rfl⟩ := Nat.exists_eq_add_of_le h
  rw [readMemory_add, List.take_left' length_readMemory]

/-- A field of a structure in memory. -/
theorem leField_readMemory {count : ℕ} (h : off + size ≤ count) :
    leField (readMemory m 0 count) off size = leValue (readMemory m off size) := by
  have hcount : off ≤ count := (Nat.le_add_right _ _).trans h
  obtain ⟨rest, rfl⟩ := Nat.exists_eq_add_of_le hcount
  unfold leField
  rw [readMemory_add, List.drop_left' length_readMemory, take_readMemory (by omega), Nat.zero_add]

end Lemmas

end TtKmd.Lib
