import Mathlib.Data.List.Basic

/-!
# Programs that stop early

A program reads and changes a state, and returns a value, stops early or, where a loop has run
out of its fuel, does not finish. A triple says of a program that it finishes from every state
that meets a condition, and what holds when it has returned and when it has stopped. There is a
rule for each way to build a program; the one for a loop that polls until a deadline has a clock
in place of a bound on the rounds.
-/

namespace TtKmd.Lib

/-- How a program ends. -/
inductive Outcome (σ α : Type)
  /-- It returned a value. -/
  | done (a : α) (s : σ)
  /-- It stopped early. -/
  | stopped (s : σ)
  /-- The fuel ran out. -/
  | unfinished

/-- A program over a state. -/
def Program (σ α : Type) : Type := σ → Outcome σ α

namespace Program

variable {σ α β : Type}

/-- A value is returned. -/
protected def pure (a : α) : Program σ α := fun s => .done a s

/-- A program goes on with what another one returned. -/
protected def bind (p : Program σ α) (f : α → Program σ β) : Program σ β := fun s =>
  match p s with
  | .done a t => f a t
  | .stopped t => .stopped t
  | .unfinished => .unfinished

instance : Monad (Program σ) where
  pure := Program.pure
  bind := Program.bind

/-- An early return. -/
def stop : Program σ α := fun s => .stopped s

/-- One step on the state. -/
def step (f : σ → α × σ) : Program σ α := fun s => .done (f s).1 (f s).2

/-- The caller goes on after an early return. -/
def attempt (p : Program σ α) : Program σ (Option α) := fun s =>
  match p s with
  | .done a t => .done (some a) t
  | .stopped t => .done none t
  | .unfinished => .unfinished

/-- A loop over a list. -/
def forEach {γ : Type*} (f : γ → Program σ Unit) : List γ → Program σ Unit
  | [] => pure ()
  | x :: xs => do
      f x
      forEach f xs

/-- What a polling loop makes of a value. -/
inductive Verdict
  /-- The value that was waited for. -/
  | accept
  /-- A value that ends the wait early. -/
  | abort
  /-- The loop goes on, unless the deadline has passed. -/
  | wait

/-- A loop that reads until a value is accepted. It stops early on an aborting value, or when the
clock has passed the deadline behind a value that was not accepted. -/
def pollUntil (read : Program σ α) (judge : α → Verdict) (clock : Program σ ℕ)
    (delay : Program σ Unit) (deadline : ℕ) : ℕ → Program σ α
  | 0 => fun _ => .unfinished
  | fuel + 1 => do
      let a ← read
      match judge a with
      | .accept => pure a
      | .abort => stop
      | .wait => do
          let now ← clock
          if now > deadline then stop
          else do
            delay
            pollUntil read judge clock delay deadline fuel

end Program

/-- What holds at the end of a program that has finished. -/
def Outcome.Meets {σ α : Type} (Q : α → σ → Prop) (E : σ → Prop) : Outcome σ α → Prop
  | .done a s => Q a s
  | .stopped s => E s
  | .unfinished => False

/-- The state in which a program that has finished ends. -/
def Outcome.final {σ α : Type} : Outcome σ α → Option σ
  | .done _ s => some s
  | .stopped s => some s
  | .unfinished => none

/-- From every state that meets `P` the program finishes, with `Q` when it has returned and `E`
when it has stopped early. -/
def Triple {σ α : Type} (P : σ → Prop) (p : Program σ α) (Q : α → σ → Prop) (E : σ → Prop) :
    Prop :=
  ∀ s, P s → (p s).Meets Q E

namespace Triple

variable {σ α β : Type} {P P' : σ → Prop} {Q Q' : α → σ → Prop} {R : β → σ → Prop}
  {E E' : σ → Prop} {p : Program σ α}

/-- The state in which the program ends, whether it returns or stops. -/
theorem final {S : σ → Prop} {s : σ} (h : Triple P p (fun _ => S) S) (hs : P s) :
    ∃ t, (p s).final = some t ∧ S t := by
  have hmeets := h s hs
  cases hp : p s with
  | done a t =>
    rw [hp] at hmeets
    exact ⟨t, rfl, hmeets⟩
  | stopped t =>
    rw [hp] at hmeets
    exact ⟨t, rfl, hmeets⟩
  | unfinished =>
    rw [hp] at hmeets
    exact hmeets.elim

/-- The rule of consequence. -/
theorem weaken (h : Triple P p Q E) (hP : ∀ s, P' s → P s) (hQ : ∀ a s, Q a s → Q' a s)
    (hE : ∀ s, E s → E' s) : Triple P' p Q' E' := by
  intro s hs
  have hmeets := h s (hP s hs)
  cases hp : p s with
  | done a t =>
    rw [hp] at hmeets
    exact hQ a t hmeets
  | stopped t =>
    rw [hp] at hmeets
    exact hE t hmeets
  | unfinished =>
    rw [hp] at hmeets
    exact hmeets

/-- Another condition before. -/
theorem before (h : Triple P p Q E) (hP : ∀ s, P' s → P s) : Triple P' p Q E :=
  h.weaken hP (fun _ _ hq => hq) fun _ he => he

/-- Two triples of one program. -/
theorem and (h : Triple P p Q E) (h' : Triple P' p Q' E') :
    Triple (fun s => P s ∧ P' s) p (fun a s => Q a s ∧ Q' a s) (fun s => E s ∧ E' s) := by
  intro s hs
  have hmeets := h s hs.1
  have hmeets' := h' s hs.2
  cases hp : p s with
  | done a t =>
    rw [hp] at hmeets hmeets'
    exact ⟨hmeets, hmeets'⟩
  | stopped t =>
    rw [hp] at hmeets hmeets'
    exact ⟨hmeets, hmeets'⟩
  | unfinished =>
    rw [hp] at hmeets
    exact hmeets

/-- What does not depend on the state is taken out of the condition. -/
theorem of_and {φ : Prop} (h : φ → Triple P p Q E) : Triple (fun s => P s ∧ φ) p Q E :=
  fun s hs => h hs.2 s hs.1

/-- A witness is taken out of the condition. -/
theorem of_exists {ι : Sort*} {S : ι → σ → Prop} (h : ∀ i, Triple (S i) p Q E) :
    Triple (fun s => ∃ i, S i s) p Q E :=
  fun s ⟨i, hi⟩ => h i s hi

/-- A value is returned. -/
protected theorem pure {a : α} (h : ∀ s, P s → Q a s) : Triple P (pure a) Q E := h

/-- An early return. -/
theorem stop (h : ∀ s, P s → E s) : Triple P (Program.stop : Program σ α) Q E := h

/-- One step on the state. -/
theorem step {f : σ → α × σ} (h : ∀ s, P s → Q (f s).1 (f s).2) :
    Triple P (Program.step f) Q E := h

/-- Two programs in a row. -/
theorem bind {f : α → Program σ β} (h : Triple P p Q E) (hf : ∀ a, Triple (Q a) (f a) R E) :
    Triple P (p >>= f) R E := by
  intro s hs
  have hmeets := h s hs
  show (Program.bind p f s).Meets R E
  unfold Program.bind
  cases hp : p s with
  | done a t =>
    rw [hp] at hmeets
    exact hf a t hmeets
  | stopped t =>
    rw [hp] at hmeets
    exact hmeets
  | unfinished =>
    rw [hp] at hmeets
    exact hmeets

/-- A branch. -/
theorem ite {c : Prop} [Decidable c] {q : Program σ α} (hp : c → Triple P p Q E)
    (hq : ¬c → Triple P q Q E) : Triple P (if c then p else q) Q E := by
  by_cases hc : c
  · rw [if_pos hc]
    exact hp hc
  · rw [if_neg hc]
    exact hq hc

/-- The caller goes on after an early return. -/
theorem attempt {S : Option α → σ → Prop} {F : σ → Prop} (h : Triple P p Q E)
    (hQ : ∀ a s, Q a s → S (some a) s) (hE : ∀ s, E s → S none s) :
    Triple P p.attempt S F := by
  intro s hs
  have hmeets := h s hs
  unfold Program.attempt
  cases hp : p s with
  | done a t =>
    rw [hp] at hmeets
    exact hQ a t hmeets
  | stopped t =>
    rw [hp] at hmeets
    exact hE t hmeets
  | unfinished =>
    rw [hp] at hmeets
    exact hmeets

/-- A loop over a list, with an invariant of the part that is done. -/
theorem forEach {γ : Type*} {f : γ → Program σ Unit} {xs : List γ} {I : List γ → σ → Prop}
    (h : ∀ done x rest, xs = done ++ x :: rest →
      Triple (I done) (f x) (fun _ => I (done ++ [x])) E) :
    Triple (I []) (Program.forEach f xs) (fun _ => I xs) E := by
  have hloop : ∀ rest done, xs = done ++ rest →
      Triple (I done) (Program.forEach f rest) (fun _ => I xs) E := by
    intro rest
    induction rest with
    | nil =>
      intro done hxs
      apply Triple.pure
      intro s hs
      rw [hxs, List.append_nil]
      exact hs
    | cons x rest ih =>
      intro done hxs
      apply (h done x rest hxs).bind
      intro _
      apply ih
      rw [hxs, List.append_assoc]
      rfl
  exact hloop xs [] rfl

/-- A polling loop. The clock does not go back, and is later by `d` after each delay; `n` rounds
are left before the deadline has passed for certain. -/
theorem pollUntil {read : Program σ α} {judge : α → Program.Verdict} {clock : Program σ ℕ}
    {delay : Program σ Unit} {deadline : ℕ} (now : σ → ℕ) (d : ℕ) (I J : ℕ → σ → Prop)
    (hread : ∀ n m, Triple (fun s => I n s ∧ m ≤ now s) read
      (fun a s => match judge a with
        | .accept => Q a s
        | .abort => E s
        | .wait => J n s ∧ m ≤ now s) E)
    (hclock : ∀ n m, Triple (fun s => J n s ∧ m ≤ now s) clock
      (fun t s => J n s ∧ m ≤ t ∧ t ≤ now s) E)
    (hdelay : ∀ n m, Triple (fun s => J (n + 1) s ∧ m ≤ now s) delay
      (fun _ s => I n s ∧ m + d ≤ now s) E)
    (hexpired : ∀ n s, J n s → E s) (n fuel : ℕ) :
    Triple (fun s => I n s ∧ deadline < now s + n * d)
      (Program.pollUntil read judge clock delay deadline (n + fuel + 1)) Q E := by
  induction n with
  | zero =>
    intro s hs
    have hlate : deadline < now s := by simpa using hs.2
    apply Triple.bind (hread 0 (now s)) _ s ⟨hs.1, Nat.le_refl _⟩
    intro a
    cases judge a with
    | accept => exact Triple.pure fun _ h => h
    | abort => exact Triple.stop fun _ h => h
    | wait =>
      apply Triple.bind (hclock 0 (now s))
      intro t
      apply Triple.ite
      · intro _
        exact Triple.stop fun t h => hexpired 0 t h.1
      · intro hearly t h
        omega
  | succ n ih =>
    have hfuel : n + 1 + fuel + 1 = (n + fuel + 1) + 1 := by omega
    rw [hfuel]
    intro s hs
    apply Triple.bind (hread (n + 1) (now s)) _ s ⟨hs.1, Nat.le_refl _⟩
    intro a
    cases judge a with
    | accept => exact Triple.pure fun _ h => h
    | abort => exact Triple.stop fun _ h => h
    | wait =>
      apply Triple.bind (hclock (n + 1) (now s))
      intro t
      apply Triple.ite
      · intro _
        exact Triple.stop fun t h => hexpired (n + 1) t h.1
      · intro _
        have hlater : Triple (fun u => J (n + 1) u ∧ now s ≤ t ∧ t ≤ now u) delay
            (fun _ u => I n u ∧ now s + d ≤ now u) E :=
          (hdelay n (now s)).before fun u hu => ⟨hu.1, Nat.le_trans hu.2.1 hu.2.2⟩
        apply hlater.bind
        intro _
        apply ih.before
        intro u hu
        have hdeadline := hs.2
        rw [Nat.succ_mul] at hdeadline
        exact ⟨hu.1, by omega⟩

end Triple

end TtKmd.Lib
