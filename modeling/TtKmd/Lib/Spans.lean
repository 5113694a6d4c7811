import Mathlib.Data.List.Basic

/-!
# Lists of disjoint address spans

A span is a closed range of natural numbers. A list of spans collected by
insertion is kept in descending order of the lower end; when the spans are also
pairwise apart, each span lies wholly above the ones after it. First-fit
searches in either direction need only this fact.
-/

namespace TtKmd.Lib

/-- The closed range of addresses from `lo` to `hi`. -/
structure Span where
  /-- The first address of the span. -/
  lo : ℕ
  /-- The last address of the span. -/
  hi : ℕ
  deriving DecidableEq

/-- Two spans without a common address, one wholly before the other. -/
def Span.Apart (a b : Span) : Prop := a.hi < b.lo ∨ b.hi < a.lo

/-- The symmetric form of `Apart`. -/
theorem Span.Apart.symm {a b : Span} (h : a.Apart b) : b.Apart a := Or.symm h

/-- A span that lies inside another. -/
def Span.Within (a b : Span) : Prop := b.lo ≤ a.lo ∧ a.hi ≤ b.hi

/-- What is apart from a span is apart from the spans inside it. -/
theorem Span.Within.apart {a b c : Span} (h : a.Within b) (hbc : b.Apart c) : a.Apart c := by
  unfold Span.Within at h
  unfold Span.Apart at hbc ⊢
  omega

/-- Insertion into a descending list from its large end: the spans whose lower
end exceeds that of `x` stay in front of it. -/
def insertSpan (x : Span) : List Span → List Span
  | [] => [x]
  | y :: ys => if y.lo > x.lo then y :: insertSpan x ys else x :: y :: ys

/-- Insertion adds the new span and nothing else. -/
theorem insertSpan_perm (x : Span) (l : List Span) : (insertSpan x l).Perm (x :: l) := by
  induction l with
  | nil => exact List.Perm.refl _
  | cons y ys ih =>
    unfold insertSpan
    split
    · exact (ih.cons y).trans (List.Perm.swap x y ys)
    · exact List.Perm.refl _

/-- Insertion keeps the list in descending order of the lower ends. -/
theorem insertSpan_sorted {x : Span} {l : List Span}
    (hl : l.Pairwise fun a b => b.lo ≤ a.lo) :
    (insertSpan x l).Pairwise fun a b => b.lo ≤ a.lo := by
  induction l with
  | nil => exact List.pairwise_singleton _ _
  | cons y ys ih =>
    obtain ⟨hy, hys⟩ := List.pairwise_cons.mp hl
    unfold insertSpan
    split
    · rename_i hlt
      refine List.pairwise_cons.mpr ⟨?_, ih hys⟩
      intro z hz
      rcases List.mem_cons.mp ((insertSpan_perm x ys).mem_iff.mp hz) with rfl | hz
      · omega
      · exact hy z hz
    · refine List.pairwise_cons.mpr ⟨?_, hl⟩
      intro z hz
      rcases List.mem_cons.mp hz with rfl | hz
      · omega
      · have := hy z hz
        omega

/-- In a descending list of spans that are apart from one another, every span
ends before the spans in front of it begin. -/
theorem above_of_sorted_apart {l : List Span} (hsorted : l.Pairwise fun a b => b.lo ≤ a.lo)
    (hapart : l.Pairwise Span.Apart) (hwf : ∀ a ∈ l, a.lo ≤ a.hi) :
    l.Pairwise fun a b => b.hi < a.lo := by
  induction l with
  | nil => exact List.Pairwise.nil
  | cons x xs ih =>
    obtain ⟨hx, hxs⟩ := List.pairwise_cons.mp hsorted
    obtain ⟨hax, haxs⟩ := List.pairwise_cons.mp hapart
    refine List.pairwise_cons.mpr ⟨?_, ih hxs haxs fun a ha => hwf a (by simp [ha])⟩
    intro b hb
    have hle := hx b hb
    have hxw := hwf x (by simp)
    rcases hax b hb with h | h <;> omega

end TtKmd.Lib
