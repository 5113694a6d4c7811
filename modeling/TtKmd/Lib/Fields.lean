import TtKmd.Lib.Lists
import Mathlib.Data.List.Pairwise
import Mathlib.Data.Nat.Bitwise

/-!
# Fields of a register

A register is a number, and a field of it is a range of bits with a value: the triple of its
offset, its width and the value. Fields that have no bit in common can be put into a register
one after another, and each is read back modulo its width.
-/

namespace TtKmd.Lib

/-- A bit of a field. -/
def InField (f : ℕ × ℕ × ℕ) (k : ℕ) : Prop := f.1 ≤ k ∧ k < f.1 + f.2.1

/-- Two fields that have no bit in common. -/
def FieldsApart (f g : ℕ × ℕ × ℕ) : Prop := f.1 + f.2.1 ≤ g.1 ∨ g.1 + g.2.1 ≤ f.1

instance : Std.Symm FieldsApart := ⟨fun _ _ h => h.symm⟩

/-- The register with the bits of a field added. -/
def setField (w : ℕ) (f : ℕ × ℕ × ℕ) : ℕ := w ||| ((f.2.2 % 2 ^ f.2.1) <<< f.1)

/-- The register of some fields. -/
def packFields (fs : List (ℕ × ℕ × ℕ)) : ℕ := fs.foldl setField 0

/-- The field of a width at an offset. -/
def readField (w offset width : ℕ) : ℕ := w / 2 ^ offset % 2 ^ width

variable {fs : List (ℕ × ℕ × ℕ)} {f : ℕ × ℕ × ℕ}

/-- The bits of a field that is read. -/
theorem testBit_readField (w offset width k : ℕ) :
    (readField w offset width).testBit k = true ↔ k < width ∧ w.testBit (offset + k) = true := by
  rw [readField, Nat.testBit_mod_two_pow, Nat.testBit_div_two_pow, Bool.and_eq_true,
    decide_eq_true_eq, add_comm]

/-- The bits of a register with a field added. -/
theorem testBit_setField (w : ℕ) (f : ℕ × ℕ × ℕ) (k : ℕ) :
    (setField w f).testBit k = true ↔
      w.testBit k = true ∨ (InField f k ∧ f.2.2.testBit (k - f.1) = true) := by
  rw [setField, Nat.testBit_or, Nat.testBit_shiftLeft, Nat.testBit_mod_two_pow]
  simp only [Bool.or_eq_true, Bool.and_eq_true, decide_eq_true_eq, InField]
  have hrange : (k ≥ f.1 ∧ k - f.1 < f.2.1) ↔ (f.1 ≤ k ∧ k < f.1 + f.2.1) := by omega
  rw [← and_assoc, hrange]

/-- The bits of a register are those of its fields. -/
theorem testBit_packFields (fs : List (ℕ × ℕ × ℕ)) (k : ℕ) :
    (packFields fs).testBit k = true ↔
      ∃ f ∈ fs, InField f k ∧ f.2.2.testBit (k - f.1) = true := by
  refine (foldl_iff_exists (fun w : ℕ => w.testBit k = true) (fun w f => testBit_setField w f k)
    fs 0).trans ?_
  simp

/-- A field of a register is read back modulo its width. -/
theorem readField_packFields (hapart : fs.Pairwise FieldsApart) (hf : f ∈ fs) :
    readField (packFields fs) f.1 f.2.1 = f.2.2 % 2 ^ f.2.1 := by
  refine Nat.eq_of_testBit_eq fun k => ?_
  rw [Bool.eq_iff_iff, testBit_readField, testBit_packFields, Nat.testBit_mod_two_pow,
    Bool.and_eq_true, decide_eq_true_eq]
  refine and_congr_right fun hk => ⟨?_, fun hbit => ⟨f, hf, ⟨by omega, by omega⟩, ?_⟩⟩
  · rintro ⟨g, hg, hin, hbit⟩
    -- the bit is in `f` and in `g`, so they are one field
    have hsame : f = g := by
      by_contra hne
      have hdisjoint := hapart.forall hf hg hne
      unfold InField at hin
      unfold FieldsApart at hdisjoint
      omega
    rw [← hsame, Nat.add_sub_cancel_left] at hbit
    exact hbit
  · rwa [Nat.add_sub_cancel_left]

/-- A register has no bit behind its last field. -/
theorem packFields_lt {n : ℕ} (h : ∀ f ∈ fs, f.1 + f.2.1 ≤ n) : packFields fs < 2 ^ n := by
  refine Nat.lt_pow_two_of_testBit _ fun k hk => ?_
  by_contra hbit
  obtain ⟨f, hf, hin, -⟩ := (testBit_packFields fs k).mp (by simpa using hbit)
  have hend := h f hf
  unfold InField at hin
  omega

end TtKmd.Lib
