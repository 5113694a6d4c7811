import Mathlib.Data.List.Basic

/-!
# Runs of a labelled transition relation

A component is described by a relation `step s e s'` between a state, a label and
a successor. This file has the two notions every result about the component uses:
finite runs, and the same relation restricted to the steps that meet a condition
on their label and on the state before them. The invariant rule is proved once,
for an arbitrary relation.
-/

namespace TtKmd.Lib

variable {σ ε : Type*}

/-- A finite run from one state to another, with the labels it takes in order. -/
inductive Run (step : σ → ε → σ → Prop) : σ → List ε → σ → Prop
  | nil (s : σ) : Run step s [] s
  | cons {s t u : σ} {e : ε} {es : List ε} : step s e t → Run step t es u →
      Run step s (e :: es) u

/-- A state some run from `s` ends in. -/
def Reachable (step : σ → ε → σ → Prop) (s t : σ) : Prop := ∃ es, Run step s es t

/-- The steps of a relation that are taken from a state, and with a label, that
meet a condition. A run of `restrict step cond` is a run of `step` whose steps
all meet the condition. -/
def restrict (step : σ → ε → σ → Prop) (cond : σ → ε → Prop) (s : σ) (e : ε) (t : σ) : Prop :=
  cond s e ∧ step s e t

/-- The relation of a step function. -/
def graph (f : σ → ε → σ) (s : σ) (e : ε) (t : σ) : Prop := t = f s e

/-- A predicate kept by every step holds at the end of every run that starts in it. -/
theorem Run.invariant {step : σ → ε → σ → Prop} {inv : σ → Prop} {s t : σ} {es : List ε}
    (hstep : ∀ s e t, inv s → step s e t → inv t) (hs : inv s) (hrun : Run step s es t) :
    inv t := by
  induction hrun with
  | nil => exact hs
  | cons he _ ih => exact ih (hstep _ _ _ hs he)

/-- The invariant rule for reachable states. -/
theorem Reachable.invariant {step : σ → ε → σ → Prop} {inv : σ → Prop} {s t : σ}
    (hstep : ∀ s e t, inv s → step s e t → inv t) (hs : inv s) (ht : Reachable step s t) :
    inv t := by
  obtain ⟨es, hrun⟩ := ht
  exact hrun.invariant hstep hs

/-- Every state is reachable from itself. -/
theorem Reachable.refl {step : σ → ε → σ → Prop} (s : σ) : Reachable step s s := ⟨[], .nil s⟩

/-- A step in front of a reachable state. -/
theorem Reachable.head {step : σ → ε → σ → Prop} {s t u : σ} {e : ε} (he : step s e t)
    (hu : Reachable step t u) : Reachable step s u := by
  obtain ⟨es, hrun⟩ := hu
  exact ⟨e :: es, .cons he hrun⟩

/-- A step behind a reachable state. -/
theorem Reachable.tail {step : σ → ε → σ → Prop} {s t u : σ} {e : ε} (ht : Reachable step s t)
    (he : step t e u) : Reachable step s u := by
  obtain ⟨es, hrun⟩ := ht
  induction hrun with
  | nil => exact .head he (.refl u)
  | cons hstep _ ih => exact .head hstep (ih he)

/-- The relation of a partial step function. -/
def partialGraph (next : σ → ε → Option σ) (s : σ) (e : ε) (t : σ) : Prop := next s e = some t

/-- A step with a guard is taken when the guard holds. -/
theorem guard_of_eq_some {p : Prop} [Decidable p] {s t : σ}
    (h : (if p then some s else none) = some t) : p ∧ s = t := by
  obtain ⟨hp, hs⟩ := Option.ite_none_right_eq_some.mp h
  exact ⟨hp, Option.some.inj hs⟩

/-- The state a sequence of labels leads to under a partial step function. -/
def runList (next : σ → ε → Option σ) : σ → List ε → Option σ
  | s, [] => some s
  | s, e :: es => (next s e).bind fun t => runList next t es

/-- A computed run is a run. -/
theorem run_of_runList {next : σ → ε → Option σ} {s t : σ} {es : List ε}
    (h : runList next s es = some t) : Run (partialGraph next) s es t := by
  induction es generalizing s with
  | nil =>
    cases h
    exact .nil _
  | cons e es ih =>
    simp only [runList, Option.bind_eq_some_iff] at h
    obtain ⟨u, hu, hrest⟩ := h
    exact .cons hu (ih hrest)

/-- A partial step function that also tests a condition. -/
def guarded (test : σ → ε → Bool) (next : σ → ε → Option σ) (s : σ) (e : ε) : Option σ :=
  if test s e then next s e else none

/-- A computed run whose steps pass a test is a run of steps that meet the tested
condition. -/
theorem run_of_guarded {test : σ → ε → Bool} {cond : σ → ε → Prop} {next : σ → ε → Option σ}
    {s t : σ} {es : List ε} (htest : ∀ s e, test s e = true → cond s e)
    (h : runList (guarded test next) s es = some t) :
    Run (restrict (partialGraph next) cond) s es t := by
  induction es generalizing s with
  | nil =>
    cases h
    exact .nil _
  | cons e es ih =>
    simp only [runList, Option.bind_eq_some_iff, guarded] at h
    obtain ⟨u, hu, hrest⟩ := h
    split at hu
    · exact .cons ⟨htest _ _ ‹_›, hu⟩ (ih hrest)
    · cases hu

/-! ## Simulation -/

/-- A step of a component is a step of another one that it is seen as, or is not seen there. -/
def Simulates {σ' ε' : Type*} (step : σ → ε → σ → Prop) (step' : σ' → ε' → σ' → Prop)
    (view : σ → σ') (seen : ε → Option ε') (inv : σ → Prop) : Prop :=
  ∀ s e t, inv s → step s e t →
    inv t ∧ match seen e with
      | some e' => step' (view s) e' (view t)
      | none => view t = view s

/-- A run of the component is a run of the other one, with the steps that are seen there. -/
theorem Simulates.run {σ' ε' : Type*} {step : σ → ε → σ → Prop} {step' : σ' → ε' → σ' → Prop}
    {view : σ → σ'} {seen : ε → Option ε'} {inv : σ → Prop} {s t : σ} {es : List ε}
    (h : Simulates step step' view seen inv) (hs : inv s) (hrun : Run step s es t) :
    Run step' (view s) (es.filterMap seen) (view t) := by
  induction hrun with
  | nil => exact .nil _
  | @cons s u t e es hstep hrest ih =>
    obtain ⟨hu, hview⟩ := h s e u hs hstep
    cases hseen : seen e with
    | none =>
      rw [hseen] at hview
      rw [List.filterMap_cons_none hseen, ← show view u = view s from hview]
      exact ih hu
    | some e' =>
      rw [hseen] at hview
      rw [List.filterMap_cons_some hseen]
      exact .cons hview (ih hu)

/-- The invariant of a simulation holds at the end of a run. -/
theorem Simulates.kept {σ' ε' : Type*} {step : σ → ε → σ → Prop} {step' : σ' → ε' → σ' → Prop}
    {view : σ → σ'} {seen : ε → Option ε'} {inv : σ → Prop} {s t : σ} {es : List ε}
    (h : Simulates step step' view seen inv) (hs : inv s) (hrun : Run step s es t) : inv t :=
  hrun.invariant (fun s e t hinv hstep => (h s e t hinv hstep).1) hs

/-- From related states, a step of a component is a step of another one that it is seen as, or is
not seen there, to related states. -/
def SimulatesBy {σ' ε' : Type*} (step : σ → ε → σ → Prop) (step' : σ' → ε' → σ' → Prop)
    (seen : ε → Option ε') (rel : σ → σ' → Prop) : Prop :=
  ∀ s e t s', rel s s' → step s e t →
    ∃ t', rel t t' ∧ match seen e with
      | some e' => step' s' e' t'
      | none => t' = s'

/-- A run of the component is related to a run of the other one, with the steps that are seen
there. -/
theorem SimulatesBy.run {σ' ε' : Type*} {step : σ → ε → σ → Prop} {step' : σ' → ε' → σ' → Prop}
    {seen : ε → Option ε'} {rel : σ → σ' → Prop} {s t : σ} {s' : σ'} {es : List ε}
    (h : SimulatesBy step step' seen rel) (hs : rel s s') (hrun : Run step s es t) :
    ∃ t', rel t t' ∧ Run step' s' (es.filterMap seen) t' := by
  induction hrun generalizing s' with
  | nil => exact ⟨s', hs, .nil _⟩
  | @cons s u t e es hstep hrest ih =>
    obtain ⟨u', hu, hview⟩ := h s e u s' hs hstep
    obtain ⟨t', ht, hrun'⟩ := ih hu
    cases hseen : seen e with
    | none =>
      rw [hseen] at hview
      obtain rfl : u' = s' := hview
      rw [List.filterMap_cons_none hseen]
      exact ⟨t', ht, hrun'⟩
    | some e' =>
      rw [hseen] at hview
      rw [List.filterMap_cons_some hseen]
      exact ⟨t', ht, .cons hview hrun'⟩

end TtKmd.Lib
