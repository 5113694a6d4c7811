import TtKmd.Lib.Runs
import Mathlib.Logic.Function.Basic

/-!
# A device behind state that has to be set up

Callers reach a device through state that they share, and that says where an access goes. A
caller takes a lock, sets the shared state up in several steps, makes its access and gives the
lock back. Other parts of the program change the shared state too, without the lock, and the
device changes by itself.

When the others leave a set up that has begun as it is, the callers cannot tell this from a
device that performs each command at one moment between its call and its return. The condition
on a set up is the parameter `ready`, which says that the shared state, after the steps that
are left, makes the access of a command the intended one.
-/

namespace TtKmd.Lib

/-- A device and the shared state that it is reached through. -/
structure Gateway (ρ ε σ δ κ α ω : Type*) where
  /-- The steps that set a command up. -/
  setup : κ → List α
  /-- What such a step does to the shared state. -/
  act : α → ρ → ρ
  /-- The access of a command: its result and the device after it. -/
  access : κ → ρ → σ → ω × σ
  /-- What the others do to the shared state. -/
  others : ρ → ε → ρ → Prop
  /-- What the device does by itself. -/
  device : σ → δ → σ → Prop

/-- How far a caller is. -/
inductive GatewayPhase (κ α ω : Type*)
  /-- No command. -/
  | idle
  /-- Waiting for the lock. -/
  | waiting (c : κ)
  /-- With the lock, before the steps of the set up that are left. -/
  | inside (c : κ) (rest : List α)
  /-- With the lock, after the access. -/
  | accessed (out : ω)
  /-- Without the lock, before the return. -/
  | finished (out : ω)

/-- The caller has the lock. -/
def GatewayPhase.Holds {κ α ω : Type*} : GatewayPhase κ α ω → Prop
  | .inside _ _ => True
  | .accessed _ => True
  | _ => False

/-- The steps of a caller until it gives the lock back. -/
def GatewayPhase.left {κ α ω : Type*} : GatewayPhase κ α ω → ℕ
  | .inside _ rest => rest.length + 2
  | .accessed _ => 1
  | _ => 0

/-- The shared state, the device, the lock and the callers. -/
structure GatewayWorld (τ ρ σ κ α ω : Type*) where
  /-- The shared state. -/
  shared : ρ
  /-- The device. -/
  device : σ
  /-- The caller that has the lock. -/
  holder : Option τ
  /-- The callers. -/
  phase : τ → GatewayPhase κ α ω

/-- The steps of the callers and of what is around them. -/
inductive GatewayEvent (τ ε δ κ ω : Type*)
  /-- A command is called. -/
  | call (t : τ) (c : κ)
  /-- The lock is taken. -/
  | acquire (t : τ)
  /-- The next step of a set up. -/
  | setup (t : τ)
  /-- The access. -/
  | access (t : τ)
  /-- The lock is given back. -/
  | release (t : τ)
  /-- The command returns. -/
  | ret (t : τ) (out : ω)
  /-- The others change the shared state. -/
  | others (e : ε)
  /-- The device changes. -/
  | device (d : δ)

/-- The caller of a step, if it is of one. -/
def GatewayEvent.caller {τ ε δ κ ω : Type*} : GatewayEvent τ ε δ κ ω → Option τ
  | .call t _ => some t
  | .acquire t => some t
  | .setup t => some t
  | .access t => some t
  | .release t => some t
  | .ret t _ => some t
  | .others _ => none
  | .device _ => none

/-- How far a caller of an atomic device is. -/
inductive AtomicPhase (κ ω : Type*)
  /-- No command. -/
  | idle
  /-- The command is called and not performed. -/
  | called (c : κ)
  /-- The command is performed and has not returned. -/
  | finished (out : ω)

/-- An atomic device and its callers. -/
structure AtomicWorld (τ σ κ ω : Type*) where
  /-- The device. -/
  device : σ
  /-- The callers. -/
  phase : τ → AtomicPhase κ ω

/-- The steps of an atomic device. -/
inductive AtomicEvent (τ δ κ ω : Type*)
  /-- A command is called. -/
  | call (t : τ) (c : κ)
  /-- The command is performed. -/
  | perform (t : τ)
  /-- The command returns. -/
  | ret (t : τ) (out : ω)
  /-- The device changes. -/
  | device (d : δ)

section Steps

variable {τ ρ ε σ δ κ α ω : Type*} [DecidableEq τ]

/-- A caller goes on. -/
def GatewayWorld.move (w : GatewayWorld τ ρ σ κ α ω) (t : τ) (p : GatewayPhase κ α ω) :
    GatewayWorld τ ρ σ κ α ω :=
  { w with phase := Function.update w.phase t p }

/-- One step. -/
inductive Gateway.Step (G : Gateway ρ ε σ δ κ α ω) :
    GatewayWorld τ ρ σ κ α ω → GatewayEvent τ ε δ κ ω → GatewayWorld τ ρ σ κ α ω → Prop
  | call {w t c} : w.phase t = .idle → G.Step w (.call t c) (w.move t (.waiting c))
  | acquire {w t c} : w.phase t = .waiting c → w.holder = none →
      G.Step w (.acquire t) { w.move t (.inside c (G.setup c)) with holder := some t }
  | setup {w t c a rest} : w.phase t = .inside c (a :: rest) →
      G.Step w (.setup t) { w.move t (.inside c rest) with shared := G.act a w.shared }
  | access {w t c} : w.phase t = .inside c [] →
      G.Step w (.access t)
        { w.move t (.accessed (G.access c w.shared w.device).1) with
          device := (G.access c w.shared w.device).2 }
  | release {w t out} : w.phase t = .accessed out →
      G.Step w (.release t) { w.move t (.finished out) with holder := none }
  | ret {w t out} : w.phase t = .finished out → G.Step w (.ret t out) (w.move t .idle)
  | others {w e r} : G.others w.shared e r → G.Step w (.others e) { w with shared := r }
  | device {w d s} : G.device w.device d s → G.Step w (.device d) { w with device := s }

/-- A caller of an atomic device goes on. -/
def AtomicWorld.move (w : AtomicWorld τ σ κ ω) (t : τ) (p : AtomicPhase κ ω) :
    AtomicWorld τ σ κ ω :=
  { w with phase := Function.update w.phase t p }

/-- One step of an atomic device that performs a command as intended. -/
inductive AtomicStep (intended : κ → σ → ω × σ) (device : σ → δ → σ → Prop) :
    AtomicWorld τ σ κ ω → AtomicEvent τ δ κ ω → AtomicWorld τ σ κ ω → Prop
  | call {w t c} : w.phase t = .idle →
      AtomicStep intended device w (.call t c) (w.move t (.called c))
  | perform {w t c} : w.phase t = .called c →
      AtomicStep intended device w (.perform t)
        { w.move t (.finished (intended c w.device).1) with device := (intended c w.device).2 }
  | ret {w t out} : w.phase t = .finished out →
      AtomicStep intended device w (.ret t out) (w.move t .idle)
  | device {w d s} : device w.device d s →
      AtomicStep intended device w (.device d) { w with device := s }

end Steps

/-- Nobody calls. -/
def GatewayWorld.start {ρ σ : Type*} (τ κ α ω : Type*) (r : ρ) (s : σ) :
    GatewayWorld τ ρ σ κ α ω where
  shared := r
  device := s
  holder := none
  phase := fun _ => .idle

/-- What a caller can tell of how far it is. -/
def GatewayPhase.atomic {κ α ω : Type*} : GatewayPhase κ α ω → AtomicPhase κ ω
  | .idle => .idle
  | .waiting c => .called c
  | .inside c _ => .called c
  | .accessed out => .finished out
  | .finished out => .finished out

/-- What the callers can tell of the world. -/
def GatewayWorld.atomic {τ ρ σ κ α ω : Type*} (w : GatewayWorld τ ρ σ κ α ω) :
    AtomicWorld τ σ κ ω where
  device := w.device
  phase := fun t => (w.phase t).atomic

/-- What the callers can tell of a step: a command is performed when its access is made. -/
def GatewayEvent.atomic {τ ε δ κ ω : Type*} : GatewayEvent τ ε δ κ ω →
    Option (AtomicEvent τ δ κ ω)
  | .call t c => some (.call t c)
  | .access t => some (.perform t)
  | .ret t out => some (.ret t out)
  | .device d => some (.device d)
  | _ => none

section Atomic

variable {τ ρ ε σ δ κ α ω : Type*} [DecidableEq τ] {G : Gateway ρ ε σ δ κ α ω}
  {intended : κ → σ → ω × σ} {inv : ρ → Prop} {ready : κ → List α → ρ → Prop}
  {w w' : GatewayWorld τ ρ σ κ α ω} {t : τ}

/-- What a gateway has to keep to. -/
structure Gateway.Serves (G : Gateway ρ ε σ δ κ α ω) (intended : κ → σ → ω × σ)
    (inv : ρ → Prop) (ready : κ → List α → ρ → Prop) : Prop where
  /-- A set up keeps the invariant of the shared state. -/
  inv_act : ∀ a r, inv r → inv (G.act a r)
  /-- The others keep it. -/
  inv_others : ∀ r e r', inv r → G.others r e r' → inv r'
  /-- A set up can begin at any time. -/
  ready_setup : ∀ c r, inv r → ready c (G.setup c) r
  /-- A step of a set up brings it on. -/
  ready_act : ∀ c a rest r, ready c (a :: rest) r → ready c rest (G.act a r)
  /-- The others leave a set up as it is. -/
  ready_others : ∀ c rest r e r', inv r → ready c rest r → G.others r e r' → ready c rest r'
  /-- After the set up, the access is the intended one. -/
  ready_access : ∀ c r s, ready c [] r → G.access c r s = intended c s

/-- What holds in every reachable state. -/
structure GatewayWorld.Ordered (inv : ρ → Prop) (ready : κ → List α → ρ → Prop)
    (w : GatewayWorld τ ρ σ κ α ω) : Prop where
  /-- The invariant of the shared state. -/
  inv : inv w.shared
  /-- The lock is with the one caller inside. -/
  holder : ∀ t, (w.phase t).Holds ↔ w.holder = some t
  /-- The set up of the caller inside is not disturbed. -/
  ready : ∀ t c rest, w.phase t = .inside c rest → ready c rest w.shared

omit [DecidableEq τ] in
/-- Nobody is inside. -/
theorem GatewayWorld.start_ordered {r : ρ} (hr : inv r) (s : σ) :
    (GatewayWorld.start τ κ α ω r s).Ordered inv ready where
  inv := hr
  holder := fun t => by simp [GatewayWorld.start, GatewayPhase.Holds]
  ready := nofun

/-- A caller that goes on outside leaves the order. -/
theorem GatewayWorld.Ordered.move_outside (h : w.Ordered inv ready) {p : GatewayPhase κ α ω}
    (hout : ¬(w.phase t).Holds) (hp : ¬p.Holds) : (w.move t p).Ordered inv ready where
  inv := h.inv
  holder := by
    intro u
    by_cases hut : u = t
    · subst hut
      simp only [GatewayWorld.move, Function.update_self, hp, false_iff]
      rw [← h.holder u]
      exact hout
    · simp only [GatewayWorld.move, Function.update_of_ne hut]
      exact h.holder u
  ready := by
    intro u c rest hu
    by_cases hut : u = t
    · subst hut
      simp only [GatewayWorld.move, Function.update_self] at hu
      rw [hu] at hp
      exact absurd trivial hp
    · simp only [GatewayWorld.move, Function.update_of_ne hut] at hu
      exact h.ready u c rest hu

omit [DecidableEq τ] in
/-- There is one caller inside. -/
theorem GatewayWorld.Ordered.inside_only (h : w.Ordered inv ready) (ht : (w.phase t).Holds)
    {u : τ} (hu : (w.phase u).Holds) : u = t := by
  have hholder := (h.holder t).mp ht
  rw [(h.holder u).mp hu] at hholder
  exact Option.some.inj hholder

/-- A caller takes its turn while no other is inside. -/
theorem GatewayWorld.ordered_turn {p : GatewayPhase κ α ω}
    (hfree : ∀ u, (w.phase u).Holds → u = t) (hphase : w'.phase = Function.update w.phase t p)
    (hholder : ∀ u, w'.holder = some u ↔ u = t ∧ p.Holds) (hinv : inv w'.shared)
    (hready : ∀ c rest, p = .inside c rest → ready c rest w'.shared) : w'.Ordered inv ready where
  inv := hinv
  holder := by
    intro u
    rw [hholder u, hphase]
    by_cases hut : u = t
    · subst hut
      simp
    · simp only [Function.update_of_ne hut, hut, false_and, iff_false]
      exact fun hu => hut (hfree u hu)
  ready := by
    intro u c rest hu
    rw [hphase] at hu
    by_cases hut : u = t
    · subst hut
      rw [Function.update_self] at hu
      exact hready c rest hu
    · rw [Function.update_of_ne hut] at hu
      refine absurd (hfree u ?_) hut
      rw [hu]
      trivial

/-- Every step keeps the order. -/
theorem Gateway.Serves.ordered (hG : G.Serves intended inv ready) (h : w.Ordered inv ready)
    {e : GatewayEvent τ ε δ κ ω} (hstep : G.Step w e w') : w'.Ordered inv ready := by
  cases hstep with
  | call ht =>
    apply h.move_outside
    · simp [ht, GatewayPhase.Holds]
    · exact id
  | @acquire t c ht hfree =>
    have hnone : ∀ u, (w.phase u).Holds → u = t := by
      intro u hu
      rw [(h.holder u).mp hu] at hfree
      cases hfree
    apply GatewayWorld.ordered_turn hnone rfl
    · intro u
      simp [GatewayPhase.Holds, eq_comm]
    · exact h.inv
    · rintro c rest ⟨⟩
      exact hG.ready_setup c w.shared h.inv
  | @setup t c a rest ht =>
    have hin : (w.phase t).Holds := by
      rw [ht]
      trivial
    apply GatewayWorld.ordered_turn (fun u => h.inside_only hin) rfl
    · intro u
      simp [GatewayWorld.move, (h.holder t).mp hin, GatewayPhase.Holds, eq_comm]
    · exact hG.inv_act a w.shared h.inv
    · rintro c rest ⟨⟩
      exact hG.ready_act c a rest w.shared (h.ready t c (a :: rest) ht)
  | @access t c ht =>
    have hin : (w.phase t).Holds := by
      rw [ht]
      trivial
    apply GatewayWorld.ordered_turn (fun u => h.inside_only hin) rfl
    · intro u
      simp [GatewayWorld.move, (h.holder t).mp hin, GatewayPhase.Holds, eq_comm]
    · exact h.inv
    · nofun
  | @release t out ht =>
    have hin : (w.phase t).Holds := by
      rw [ht]
      trivial
    apply GatewayWorld.ordered_turn (fun u => h.inside_only hin) rfl
    · intro u
      simp [GatewayPhase.Holds]
    · exact h.inv
    · nofun
  | ret ht =>
    apply h.move_outside
    · simp [ht, GatewayPhase.Holds]
    · exact id
  | @others e r hothers =>
    exact {
      inv := hG.inv_others _ _ _ h.inv hothers
      holder := h.holder
      ready := fun t c rest ht => hG.ready_others c rest _ _ _ h.inv (h.ready t c rest ht) hothers }
  | device hdevice => exact ⟨h.inv, h.holder, h.ready⟩

/-- What the callers can tell of one that goes on. -/
theorem atomic_move (w : GatewayWorld τ ρ σ κ α ω) (t : τ) (p : GatewayPhase κ α ω) :
    (w.move t p).atomic = w.atomic.move t p.atomic := by
  have hphase : (fun u => (Function.update w.phase t p u).atomic) =
      Function.update (fun u => (w.phase u).atomic) t p.atomic := by
    funext u
    exact Function.apply_update (fun _ => GatewayPhase.atomic) w.phase t p u
  exact congrArg (AtomicWorld.mk w.device) hphase

/-- A caller goes on unnoticed. -/
theorem atomic_move_unseen (p : GatewayPhase κ α ω) (hp : p.atomic = (w.phase t).atomic) :
    (w.move t p).atomic = w.atomic := by
  rw [atomic_move, hp]
  exact congrArg (AtomicWorld.mk w.device) (Function.update_eq_self t _)

/-- The callers cannot tell a gateway from an atomic device. -/
theorem Gateway.Serves.simulates (hG : G.Serves intended inv ready) :
    Simulates (G.Step (τ := τ)) (AtomicStep intended G.device) GatewayWorld.atomic
      GatewayEvent.atomic (GatewayWorld.Ordered inv ready) := by
  intro w e w' h hstep
  constructor
  · exact hG.ordered h hstep
  cases hstep with
  | @call t c ht =>
    show AtomicStep intended G.device w.atomic (.call t c) (w.move t (.waiting c)).atomic
    rw [atomic_move]
    apply AtomicStep.call
    exact congrArg GatewayPhase.atomic ht
  | @acquire t c ht hfree =>
    exact atomic_move_unseen (.inside c (G.setup c)) (congrArg GatewayPhase.atomic ht).symm
  | @setup t c a rest ht =>
    exact atomic_move_unseen (.inside c rest) (congrArg GatewayPhase.atomic ht).symm
  | @access t c ht =>
    have hintended := hG.ready_access c w.shared w.device (h.ready t c [] ht)
    have hperform : AtomicStep intended G.device w.atomic (.perform t)
        { w.atomic.move t (.finished (intended c w.device).1) with
          device := (intended c w.device).2 } := .perform (congrArg GatewayPhase.atomic ht)
    have hview := atomic_move w t (.accessed (G.access c w.shared w.device).1)
    have hphase := congrArg AtomicWorld.phase hview
    show AtomicStep intended G.device w.atomic (.perform t) _
    convert hperform using 1
    unfold GatewayWorld.atomic
    rw [hintended] at hphase ⊢
    exact congrArg (AtomicWorld.mk _) hphase
  | @release t out ht =>
    exact atomic_move_unseen (.finished out) (congrArg GatewayPhase.atomic ht).symm
  | @ret t out ht =>
    show AtomicStep intended G.device w.atomic (.ret t out) (w.move t .idle).atomic
    rw [atomic_move]
    apply AtomicStep.ret
    exact congrArg GatewayPhase.atomic ht
  | others hothers => rfl
  | device hdevice => exact .device hdevice

/-- A caller that has made its access gives the lock back. -/
theorem Gateway.run_accessed (G : Gateway ρ ε σ δ κ α ω) {out : ω}
    (ht : w.phase t = .accessed out) :
    ∃ w', Run G.Step w [.release t] w' ∧ w'.holder = none ∧
      w'.phase = Function.update w.phase t (.finished out) :=
  ⟨_, .cons (.release ht) (.nil _), rfl, rfl⟩

/-- A caller inside sets up, makes its access and gives the lock back, whatever it has left to
set up. -/
theorem Gateway.run_inside (G : Gateway ρ ε σ δ κ α ω) {c : κ} {rest : List α}
    (ht : w.phase t = .inside c rest) :
    ∃ es w' out, Run G.Step w es w' ∧ es.length = rest.length + 2 ∧
      (∀ e ∈ es, e.caller = some t) ∧ w'.holder = none ∧
      w'.phase = Function.update w.phase t (.finished out) := by
  induction rest generalizing w with
  | nil =>
    have hstep := Gateway.Step.access (G := G) ht
    obtain ⟨w', hrun, hholder, hphase⟩ := G.run_accessed (t := t)
      (w := { w.move t (.accessed (G.access c w.shared w.device).1) with
        device := (G.access c w.shared w.device).2 }) (Function.update_self t _ _)
    refine ⟨_, w', (G.access c w.shared w.device).1, .cons hstep hrun, rfl, ?_, hholder, ?_⟩
    · simp [GatewayEvent.caller]
    · rw [hphase]
      exact Function.update_idem _ _ _
  | cons a rest ih =>
    have hstep := Gateway.Step.setup (G := G) ht
    obtain ⟨es, w', out, hrun, hlength, hcaller, hholder, hphase⟩ :=
      ih (w := { w.move t (.inside c rest) with shared := G.act a w.shared })
        (Function.update_self t _ _)
    refine ⟨_, w', out, .cons hstep hrun, ?_, ?_, hholder, ?_⟩
    · simp [hlength]
    · intro e he
      rcases List.mem_cons.mp he with rfl | he
      · rfl
      · exact hcaller e he
    · rw [hphase]
      exact Function.update_idem _ _ _

/-- A caller inside gives the lock back after the steps it has left. -/
theorem Gateway.run_release (G : Gateway ρ ε σ δ κ α ω) (ht : (w.phase t).Holds) :
    ∃ es w' out, Run G.Step w es w' ∧ es.length = (w.phase t).left ∧
      (∀ e ∈ es, e.caller = some t) ∧ w'.holder = none ∧
      w'.phase = Function.update w.phase t (.finished out) := by
  cases hphase : w.phase t with
  | inside c rest => exact G.run_inside hphase
  | accessed out =>
    obtain ⟨w', hrun, hholder, hphase'⟩ := G.run_accessed hphase
    refine ⟨_, w', out, hrun, rfl, ?_, hholder, hphase'⟩
    simp [GatewayEvent.caller]
  | idle => simp [hphase, GatewayPhase.Holds] at ht
  | waiting c => simp [hphase, GatewayPhase.Holds] at ht
  | finished out => simp [hphase, GatewayPhase.Holds] at ht

end Atomic

end TtKmd.Lib
