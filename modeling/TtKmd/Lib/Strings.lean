import Mathlib.Data.List.Infix
import Mathlib.Data.List.TakeWhile
import Mathlib.Data.Nat.Digits.Defs

/-!
# Strings that end with a zero

A string in memory ends with a zero, and a list of strings with an empty one. This file has the
loop that walks through such a list, the search for a pattern in a string, and the decimal
numerals with the value that is read from them. Memory is a list of characters; a read behind its
end is a fault.
-/

namespace TtKmd.Lib

/-! ## Lists of strings -/

section Walk

variable {α : Type*}

/-- The string at the front of the memory; a fault if it does not end. -/
def cString : List ℕ → Option (List ℕ)
  | [] => none
  | c :: memory => if c = 0 then some [] else (cString memory).map (c :: ·)

/-- Strings in a row, with an empty one behind the last. -/
def multiString (ss : List (List ℕ)) : List ℕ := ss.flatMap (· ++ [0]) ++ [0]

/-- A loop over strings, with a body that may end it. -/
def loopStrings (body : α → List ℕ → α × Bool) : α → List (List ℕ) → α
  | a, [] => a
  | a, s :: ss => if (body a s).2 then (body a s).1 else loopStrings body (body a s).1 ss

/-- The loop `for (p = list; *p; p += length(p) + 1)` over the memory, with fuel. -/
def walkStrings (body : α → List ℕ → α × Bool) : ℕ → α → List ℕ → Option α
  | 0, _, _ => none
  | _ + 1, _, [] => none
  | fuel + 1, a, c :: memory =>
      if c = 0 then some a
      else (cString (c :: memory)).bind fun s =>
        if (body a s).2 then some (body a s).1
        else walkStrings body fuel (body a s).1 ((c :: memory).drop (s.length + 1))

/-- A string in front of other memory is read to its end. -/
theorem cString_append {s : List ℕ} (hs : 0 ∉ s) (memory : List ℕ) :
    cString (s ++ 0 :: memory) = some s := by
  induction s with
  | nil => rfl
  | cons c s ih =>
    obtain ⟨hc, hs'⟩ := not_or.mp (fun h => hs (List.mem_cons.mpr h))
    rw [List.cons_append, cString, if_neg (Ne.symm hc), ih hs']
    rfl

/-- The walk over a list of strings is the loop over the strings, and reads nothing behind the
list. -/
theorem walkStrings_multiString (body : α → List ℕ → α × Bool) {ss : List (List ℕ)}
    (hss : ∀ s ∈ ss, s ≠ [] ∧ 0 ∉ s) {fuel : ℕ} (hfuel : ss.length < fuel) (a : α)
    (memory : List ℕ) :
    walkStrings body fuel a (multiString ss ++ memory) = some (loopStrings body a ss) := by
  induction ss generalizing fuel a with
  | nil =>
    obtain ⟨fuel, rfl⟩ := Nat.exists_eq_succ_of_ne_zero (Nat.ne_of_gt hfuel)
    rfl
  | cons s ss ih =>
    obtain ⟨fuel, rfl⟩ := Nat.exists_eq_succ_of_ne_zero (Nat.ne_of_gt (Nat.zero_lt_of_lt hfuel))
    obtain ⟨hne, hzero⟩ := hss s List.mem_cons_self
    obtain ⟨c, s, rfl⟩ := List.exists_cons_of_ne_nil hne
    have hmemory : multiString ((c :: s) :: ss) ++ memory =
        (c :: s) ++ 0 :: (multiString ss ++ memory) := by
      simp [multiString]
    have hc : c ≠ 0 := fun h => hzero (by simp [h])
    have hrest : ((c :: s) ++ 0 :: (multiString ss ++ memory)).drop ((c :: s).length + 1) =
        multiString ss ++ memory := by
      rw [List.drop_append]
      simp
    rw [hmemory, List.cons_append, walkStrings, if_neg hc, ← List.cons_append,
      cString_append hzero, Option.bind_some, hrest, loopStrings]
    split
    · rfl
    · exact ih (fun s hs => hss s (List.mem_cons_of_mem _ hs)) (Nat.lt_of_succ_lt_succ hfuel) _

end Walk

/-! ## Patterns -/

/-- A string from the first occurrence of a pattern on. -/
def firstOccurrence (pattern : List ℕ) : List ℕ → Option (List ℕ)
  | [] => if pattern = [] then some [] else none
  | c :: s => if pattern <+: c :: s then some (c :: s) else firstOccurrence pattern s

/-- A string before which the pattern does not begin. -/
theorem firstOccurrence_append {pattern front s : List ℕ}
    (h : ∀ t, t <:+ front → t ≠ [] → ¬pattern <+: t ++ s) :
    firstOccurrence pattern (front ++ s) = firstOccurrence pattern s := by
  induction front with
  | nil => rfl
  | cons c front ih =>
    have hfront := h (c :: front) (List.suffix_refl _) (List.cons_ne_nil c front)
    rw [List.cons_append] at hfront ⊢
    rw [firstOccurrence, if_neg hfront]
    exact ih fun t ht hne => h t (ht.trans (List.suffix_cons c front)) hne

/-- A string that begins with the pattern. -/
theorem firstOccurrence_self {pattern : List ℕ} (hpattern : pattern ≠ []) (s : List ℕ) :
    firstOccurrence pattern (pattern ++ s) = some (pattern ++ s) := by
  obtain ⟨c, pattern, rfl⟩ := List.exists_cons_of_ne_nil hpattern
  have hprefix := List.prefix_append (c :: pattern) s
  rw [List.cons_append] at hprefix ⊢
  rw [firstOccurrence, if_pos hprefix]

/-! ## Decimal numerals -/

/-- A decimal digit. -/
def isDigit (c : ℕ) : Bool := decide (48 ≤ c ∧ c ≤ 57)

/-- The decimal numeral of a number. -/
def decimal (n : ℕ) : List ℕ :=
  if n = 0 then [48] else (Nat.digits 10 n).reverse.map (48 + ·)

/-- The value of the digits at the front of a string. -/
def decimalValue (s : List ℕ) : ℕ :=
  (s.takeWhile isDigit).foldl (fun value c => value * 10 + (c - 48)) 0

/-- A numeral has digits only. -/
theorem isDigit_of_mem_decimal {n c : ℕ} (hc : c ∈ decimal n) : isDigit c = true := by
  unfold decimal at hc
  split at hc
  · obtain rfl := List.mem_singleton.mp hc
    rfl
  · obtain ⟨d, hd, rfl⟩ := List.mem_map.mp hc
    have hlt := Nat.digits_lt_base (by decide) (List.mem_reverse.mp hd)
    exact decide_eq_true ⟨by omega, by omega⟩

/-- A numeral has a digit. -/
theorem decimal_ne_nil (n : ℕ) : decimal n ≠ [] := by
  unfold decimal
  split
  · exact List.cons_ne_nil 48 []
  · rename_i hn
    have hdigits := Nat.digits_ne_nil_iff_ne_zero (b := 10) |>.mpr hn
    simpa using hdigits

/-- A numeral is read back. -/
theorem decimalValue_decimal (n : ℕ) : decimalValue (decimal n) = n := by
  have hdigits : (decimal n).takeWhile isDigit = decimal n :=
    List.takeWhile_eq_self_iff.mpr fun c hc => isDigit_of_mem_decimal hc
  rw [decimalValue, hdigits]
  unfold decimal
  split
  · rename_i hn
    rw [hn]
    rfl
  · rw [List.foldl_map, List.foldl_reverse]
    calc (Nat.digits 10 n).foldr (fun d value => value * 10 + (48 + d - 48)) 0
        = Nat.ofDigits 10 (Nat.digits 10 n) := by
          rw [Nat.ofDigits_eq_foldr]
          congr 1
          funext d value
          simp
          omega
      _ = n := Nat.ofDigits_digits 10 n

end TtKmd.Lib
