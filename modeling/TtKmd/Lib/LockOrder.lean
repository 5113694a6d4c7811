import TtKmd.Lib.Runs
import Mathlib.Data.List.Basic
import Mathlib.Logic.Relation
import Mathlib.Data.Finset.Max

/-!
# Locks taken in the order of a rank

A program is what it does to locks: it takes and releases them, branches, repeats itself, calls
functions and leaves a block or a function early. Any number of threads run programs of a
family. A thread asks for a lock, waits in a queue and is granted the lock when no owner is in
the way.

Each lock has a rank. `LockCmd.wp` is the weakest precondition of a program for the rule that a
thread takes a lock only above all the locks it holds, releases only what it holds and returns
from a function with the locks it was called with. Where all programs of the family meet it, no
interleaving has a cycle of threads that wait for each other.
-/

namespace TtKmd.Lib

/-- How a lock is taken. -/
inductive LockMode
  /-- Beside other shared owners. -/
  | shared
  /-- Alone. -/
  | exclusive
  deriving DecidableEq

/-- Two owners of a lock exclude each other. -/
def LockMode.conflicts : LockMode → LockMode → Bool
  | .shared, .shared => false
  | _, _ => true

/-- The locks of a thread, the last one it took first. -/
abbrev Held (L : Type*) := List (L × LockMode)

/-- What a program does to locks. -/
inductive LockCmd (L : Type*)
  /-- Nothing. -/
  | skip
  /-- Take a lock. -/
  | acquire (l : L) (mode : LockMode)
  /-- Release a lock. -/
  | release (l : L)
  /-- One after the other. -/
  | seq (c d : LockCmd L)
  /-- One or the other. -/
  | choice (c d : LockCmd L)
  /-- One of a family. -/
  | pick (f : ℕ → LockCmd L)
  /-- Any number of rounds. -/
  | loop (c : LockCmd L)
  /-- A program that can be left. -/
  | block (c : LockCmd L)
  /-- A function that can be left. -/
  | call (c : LockCmd L)
  /-- Leave the block or function around the `n` next ones. -/
  | leave (n : ℕ)

namespace LockCmd

variable {L : Type*}

/-- One after the other. -/
def all : List (LockCmd L) → LockCmd L
  | [] => .skip
  | c :: cs => .seq c (all cs)

/-- One of them. -/
def cases : LockCmd L → List (LockCmd L) → LockCmd L
  | c, [] => c
  | c, d :: ds => .choice c (cases d ds)

/-- It or nothing. -/
def maybe (c : LockCmd L) : LockCmd L := .choice c .skip

end LockCmd

/-- What is ahead of a thread. -/
inductive LockFrame (L : Type*)
  /-- A program. -/
  | run (c : LockCmd L)
  /-- The end of a block. -/
  | mark
  /-- The return of a function that was called with these locks. -/
  | ret (saved : Held L)

section Height

variable {L : Type*} (rank : L → ℕ)

/-- A bound above the ranks of the locks. -/
@[simp] def height : Held L → ℕ
  | [] => 0
  | p :: h => max (rank p.1 + 1) (height h)

/-- The bound is above the ranks. -/
theorem rank_lt_height {h : Held L} {p : L × LockMode} (hp : p ∈ h) : rank p.1 < height rank h := by
  induction h with
  | nil => cases hp
  | cons q h ih =>
    rcases List.mem_cons.mp hp with rfl | hp
    · exact lt_of_lt_of_le (Nat.lt_succ_self _) (le_max_left _ _)
    · exact lt_of_lt_of_le (ih hp) (le_max_right _ _)

end Height

section Programs

variable {L : Type*} [DecidableEq L]

/-- The locks after one is released. -/
def Held.without (h : Held L) (l : L) : Held L := h.eraseP fun p => decide (p.1 = l)

/-- The last lock taken is the first one found. -/
theorem Held.without_cons (h : Held L) (l : L) (mode : LockMode) :
    Held.without ((l, mode) :: h) l = h := List.eraseP_cons_of_pos (by simp)

/-- Leaving the block or function around the `n` next ones. -/
def unwind : ℕ → List (LockFrame L) → Option (List (LockFrame L))
  | _, [] => none
  | n, .run _ :: k => unwind n k
  | 0, .mark :: k => some (.mark :: k)
  | n + 1, .mark :: k => unwind n k
  | 0, .ret saved :: k => some (.ret saved :: k)
  | n + 1, .ret _ :: k => unwind n k

/-- The steps that take and release no lock; `n` decides where the program branches. -/
def advance (held : Held L) (n : ℕ) : List (LockFrame L) → Option (List (LockFrame L))
  | .run .skip :: k => some k
  | .run (.seq c d) :: k => some (.run c :: .run d :: k)
  | .run (.choice c d) :: k => some (.run (if n = 0 then c else d) :: k)
  | .run (.pick f) :: k => some (.run (f n) :: k)
  | .run (.loop c) :: k => some (if n = 0 then k else .run c :: .run (.loop c) :: k)
  | .run (.block c) :: k => some (.run c :: .mark :: k)
  | .run (.call c) :: k => some (.run c :: .ret held :: k)
  | .run (.leave i) :: k => unwind i k
  | .mark :: k => some k
  | .ret _ :: k => some k
  | _ => none

variable (rank : L → ℕ)

/-- The conditions where a program can be left, with one more in front. -/
def pushLabel (post : Held L → Prop) (labels : ℕ → Held L → Prop) : ℕ → Held L → Prop
  | 0 => post
  | n + 1 => labels n

/-- The weakest precondition of a program: `post` where it ends, `labels` where it is left. A
round of a loop leaves the locks as they are, and so does a function. -/
def LockCmd.wp : LockCmd L → (ℕ → Held L → Prop) → (Held L → Prop) → Held L → Prop
  | .skip, _, post, h => post h
  | .acquire l mode, _, post, h => height rank h ≤ rank l ∧ post ((l, mode) :: h)
  | .release l, _, post, h => (∃ mode, (l, mode) ∈ h) ∧ post (Held.without h l)
  | .seq c d, labels, post, h => c.wp labels (d.wp labels post) h
  | .choice c d, labels, post, h => c.wp labels post h ∧ d.wp labels post h
  | .pick f, labels, post, h => ∀ n, (f n).wp labels post h
  | .loop c, labels, post, h => post h ∧ c.wp labels (fun h' => h' = h) h
  | .block c, labels, post, h => c.wp (pushLabel post labels) post h
  | .call c, labels, post, h =>
      c.wp (pushLabel (fun h' => h' = h ∧ post h') labels) (fun h' => h' = h ∧ post h') h
  | .leave n, labels, _, h => labels n h

/-- A weaker condition has a weaker precondition. -/
theorem LockCmd.wp_mono {c : LockCmd L} {labels labels' : ℕ → Held L → Prop}
    {post post' : Held L → Prop} {h : Held L} (hlabels : ∀ n h, labels n h → labels' n h)
    (hpost : ∀ h, post h → post' h) (hc : c.wp rank labels post h) :
    c.wp rank labels' post' h := by
  have hpush : ∀ {labels labels' : ℕ → Held L → Prop} {post post' : Held L → Prop},
      (∀ n h, labels n h → labels' n h) → (∀ h, post h → post' h) →
        ∀ n h, pushLabel post labels n h → pushLabel post' labels' n h := by
    intro labels labels' post post' hlabels hpost n h hn
    cases n with
    | zero => exact hpost h hn
    | succ n => exact hlabels n h hn
  induction c generalizing labels labels' post post' h with
  | skip => exact hpost h hc
  | acquire l mode => exact ⟨hc.1, hpost _ hc.2⟩
  | release l => exact ⟨hc.1, hpost _ hc.2⟩
  | seq c d ihc ihd => exact ihc hlabels (fun _ hd => ihd hlabels hpost hd) hc
  | choice c d ihc ihd => exact ⟨ihc hlabels hpost hc.1, ihd hlabels hpost hc.2⟩
  | pick f ih => exact fun n => ih n hlabels hpost (hc n)
  | loop c ih => exact ⟨hpost h hc.1, ih hlabels (fun _ heq => heq) hc.2⟩
  | block c ih => exact ih (hpush hlabels hpost) hpost hc
  | call c ih =>
    have hret : ∀ h', h' = h ∧ post h' → h' = h ∧ post' h' := fun h' hret =>
      ⟨hret.1, hpost h' hret.2⟩
    exact ih (hpush hlabels hret) hret hc
  | leave n => exact hlabels n h hc

/-- The conditions of what is ahead of a thread: for going on, and for leaving. -/
def frameSpec : List (LockFrame L) → (Held L → Prop) × (ℕ → Held L → Prop)
  | [] => (fun h => h = [], fun _ _ => False)
  | .run c :: k => (c.wp rank (frameSpec k).2 (frameSpec k).1, (frameSpec k).2)
  | .mark :: k => ((frameSpec k).1, pushLabel (frameSpec k).1 (frameSpec k).2)
  | .ret saved :: k =>
      (fun h => h = saved ∧ (frameSpec k).1 h,
        pushLabel (fun h => h = saved ∧ (frameSpec k).1 h) (frameSpec k).2)

namespace LockCmd

variable {rank} {c d : LockCmd L} {cs : List (LockCmd L)} {l : L} {mode : LockMode}
  {labels : ℕ → Held L → Prop} {post : Held L → Prop} {h : Held L}

/-- Nothing. -/
@[simp] theorem wp_skip : wp rank .skip labels post h ↔ post h := Iff.rfl

/-- A lock is taken above the locks held. -/
@[simp] theorem wp_acquire (hrank : height rank h ≤ rank l) :
    wp rank (.acquire l mode) labels post h ↔ post ((l, mode) :: h) := and_iff_right hrank

/-- The last lock taken is released. -/
@[simp] theorem wp_release :
    wp rank (.release l) labels post ((l, mode) :: h) ↔ post h := by
  simp [wp, Held.without_cons]

/-- A sequence. -/
@[simp] theorem wp_all_nil : wp rank (all []) labels post h ↔ post h := Iff.rfl

/-- A sequence, from its first part. -/
@[simp] theorem wp_all_cons : wp rank (all (c :: cs)) labels post h ↔
    c.wp rank labels ((all cs).wp rank labels post) h := Iff.rfl

/-- The last case. -/
@[simp] theorem wp_cases_nil : wp rank (cases c []) labels post h ↔ c.wp rank labels post h :=
  Iff.rfl

/-- The cases, from the first one. -/
@[simp] theorem wp_cases_cons : wp rank (cases c (d :: cs)) labels post h ↔
    c.wp rank labels post h ∧ (cases d cs).wp rank labels post h := Iff.rfl

/-- It or nothing. -/
@[simp] theorem wp_maybe : wp rank c.maybe labels post h ↔ c.wp rank labels post h ∧ post h :=
  Iff.rfl

/-- One of a family. -/
@[simp] theorem wp_pick {f : ℕ → LockCmd L} :
    wp rank (.pick f) labels post h ↔ ∀ n, (f n).wp rank labels post h := Iff.rfl

/-- A round leaves the locks as they are. -/
@[simp] theorem wp_loop : wp rank (.loop c) labels post h ↔
    post h ∧ c.wp rank labels (fun h' => h' = h) h := Iff.rfl

/-- A block is left to its end. -/
@[simp] theorem wp_block : wp rank (.block c) labels post h ↔
    c.wp rank (pushLabel post labels) post h := Iff.rfl

/-- A function is left to its end, with the locks it was called with. -/
@[simp] theorem wp_call : wp rank (.call c) labels post h ↔
    c.wp rank (pushLabel (fun h' => h' = h ∧ post h') labels) (fun h' => h' = h ∧ post h') h :=
  Iff.rfl

/-- The next block or function is left. -/
@[simp] theorem wp_leave_zero {post' : Held L → Prop} :
    wp rank (.leave 0) (pushLabel post' labels) post h ↔ post' h := Iff.rfl

/-- A block or function further out is left. -/
@[simp] theorem wp_leave_succ {n : ℕ} {post' : Held L → Prop} :
    wp rank (.leave (n + 1)) (pushLabel post' labels) post h ↔
      wp rank (.leave n) labels post h := Iff.rfl

variable (rank) in
/-- A program that may be run with locks below a bound, and ends with the same locks. -/
def Neutral (c : LockCmd L) (bound : ℕ) : Prop :=
  ∀ labels post h, height rank h ≤ bound → (c.wp rank labels post h ↔ post h)

/-- The locks of the caller are below the bound. -/
theorem Neutral.wp {bound : ℕ} (hc : c.Neutral rank bound) (hbound : height rank h ≤ bound) :
    c.wp rank labels post h ↔ post h := hc labels post h hbound

end LockCmd

variable {rank} {h : Held L} {k k' : List (LockFrame L)}

/-- A block or function that is left is there. -/
theorem frameSpec_unwind {n : ℕ} (hn : (frameSpec rank k).2 n h) :
    ∃ k', unwind n k = some k' ∧ (frameSpec rank k').1 h := by
  induction k generalizing n with
  | nil => exact absurd hn id
  | cons f k ih =>
    cases f with
    | run c => exact ih hn
    | mark =>
      cases n with
      | zero => exact ⟨_, rfl, hn⟩
      | succ n => exact ih hn
    | ret saved =>
      cases n with
      | zero => exact ⟨_, rfl, hn⟩
      | succ n => exact ih hn

/-- A step that takes and releases no lock keeps the condition. -/
theorem frameSpec_advance {n : ℕ} (hk : (frameSpec rank k).1 h) (hstep : advance h n k = some k') :
    (frameSpec rank k').1 h := by
  cases k with
  | nil => cases hstep
  | cons f k =>
    cases f with
    | mark =>
      cases hstep
      exact hk
    | ret saved =>
      cases hstep
      exact hk.2
    | run c =>
      cases c with
      | skip =>
        cases hstep
        exact hk
      | acquire l mode => cases hstep
      | release l => cases hstep
      | seq c d =>
        cases hstep
        exact hk
      | choice c d =>
        cases hstep
        by_cases hn : n = 0
        · rw [if_pos hn]
          exact hk.1
        · rw [if_neg hn]
          exact hk.2
      | pick f =>
        cases hstep
        exact hk n
      | loop c =>
        cases hstep
        by_cases hn : n = 0
        · rw [if_pos hn]
          exact hk.1
        · rw [if_neg hn]
          refine LockCmd.wp_mono rank (fun _ _ hl => hl) (fun h' hh' => ?_) hk.2
          rw [hh']
          exact hk
      | block c =>
        cases hstep
        exact hk
      | call c =>
        cases hstep
        exact hk
      | leave i =>
        obtain ⟨k'', hunwind, hk''⟩ := frameSpec_unwind hk
        have heq : k'' = k' := Option.some.inj (hunwind.symm.trans hstep)
        rwa [heq] at hk''

end Programs

/-- The threads, the owners of the locks and, in the order of their arrival, the threads that
wait. -/
structure LockWorld (T L : Type*) where
  /-- What is ahead of each thread. -/
  stack : T → List (LockFrame L)
  /-- The locks that are taken, the last one first. -/
  owners : List (T × L × LockMode)
  /-- The threads that wait, the first one first. -/
  waiters : List (T × L × LockMode)

/-- The steps. -/
inductive LockEvent (T E : Type*)
  /-- A thread enters a program. -/
  | enter (t : T) (e : E)
  /-- A thread goes on; `n` decides where it branches. -/
  | advance (t : T) (n : ℕ)
  /-- A thread asks for the lock before it. -/
  | wait (t : T)
  /-- A thread is granted the lock it waits for. -/
  | grant (t : T)
  /-- A thread releases the lock before it. -/
  | release (t : T)

namespace LockWorld

section Threads

variable {T L : Type*} [DecidableEq T] {w : LockWorld T L} {t u : T} {l : L} {mode : LockMode}
  {k : List (LockFrame L)}

/-- The locks of a thread. -/
def held (w : LockWorld T L) (t : T) : Held L :=
  (w.owners.filter fun o => decide (o.1 = t)).map Prod.snd

/-- The owners are the locks of the threads. -/
theorem mem_held : (l, mode) ∈ w.held t ↔ (t, l, mode) ∈ w.owners := by
  simp [held]

/-- The locks of a thread after one more is granted. -/
theorem held_grant (os : List (T × L × LockMode)) (o : T × L × LockMode) :
    ((o :: os).filter fun o => decide (o.1 = t)).map Prod.snd =
      if o.1 = t then o.2 :: (os.filter fun o => decide (o.1 = t)).map Prod.snd
      else (os.filter fun o => decide (o.1 = t)).map Prod.snd := by
  by_cases ho : o.1 = t
  · simp [ho]
  · simp [ho]

/-- The state with something else ahead of a thread. -/
def setStack (w : LockWorld T L) (t : T) (k : List (LockFrame L)) : LockWorld T L :=
  { w with stack := Function.update w.stack t k }

/-- What is ahead of the thread itself. -/
theorem setStack_stack_self : (w.setStack t k).stack t = k := Function.update_self ..

/-- What is ahead of another thread. -/
theorem setStack_stack_of_ne (hu : u ≠ t) : (w.setStack t k).stack u = w.stack u :=
  Function.update_of_ne hu ..

end Threads

variable {T L E : Type*} [DecidableEq T] [DecidableEq L]

/-- No thread runs. -/
def idle : LockWorld T L := ⟨fun _ => [], [], []⟩

/-- One step; `none` is a step that cannot happen. -/
def next (program : E → LockCmd L) (w : LockWorld T L) : LockEvent T E → Option (LockWorld T L)
  | .enter t e => if (w.stack t).isEmpty then some (w.setStack t [.run (program e)]) else none
  | .advance t n => (advance (w.held t) n (w.stack t)).map (w.setStack t)
  | .wait t =>
      match w.stack t with
      | .run (.acquire l mode) :: _ =>
          if (t, l, mode) ∉ w.waiters then some { w with waiters := w.waiters ++ [(t, l, mode)] }
          else none
      | _ => none
  | .grant t =>
      match w.stack t with
      | .run (.acquire l mode) :: k =>
          if (t, l, mode) ∈ w.waiters ∧
              ∀ o ∈ w.owners, o.2.1 = l → mode.conflicts o.2.2 = false then
            some
              { stack := Function.update w.stack t k
                owners := (t, l, mode) :: w.owners
                waiters := w.waiters.erase (t, l, mode) }
          else none
      | _ => none
  | .release t =>
      match w.stack t with
      | .run (.release l) :: k =>
          some { w with
            stack := Function.update w.stack t k
            owners := w.owners.eraseP fun o => decide (o.1 = t) && decide (o.2.1 = l) }
      | _ => none

/-- A thread waits for an owner of the lock it asks for, or for one that asked for it before. -/
def Waits (w : LockWorld T L) (t u : T) : Prop :=
  ∃ l mode, (t, l, mode) ∈ w.waiters ∧
    ((∃ mode', (u, l, mode') ∈ w.owners ∧ mode.conflicts mode' = true) ∨
      ∃ mode', (u, l, mode') ∈ w.waiters ∧
        w.waiters.idxOf (u, l, mode') < w.waiters.idxOf (t, l, mode))

/-- Some thread holds the one lock and waits for the other. -/
def Nests (w : LockWorld T L) (l l' : L) : Prop :=
  ∃ t mode mode', (l, mode) ∈ w.held t ∧ (t, l', mode') ∈ w.waiters

/-- The invariant: each thread meets the condition of what is ahead of it, and the threads that
wait are before the lock they wait for. -/
structure Ordered (rank : L → ℕ) (w : LockWorld T L) : Prop where
  /-- The conditions. -/
  spec : ∀ t, (frameSpec rank (w.stack t)).1 (w.held t)
  /-- The threads that wait. -/
  waits : ∀ t l mode, (t, l, mode) ∈ w.waiters → ∃ k, w.stack t = .run (.acquire l mode) :: k
  /-- A thread waits once. -/
  nodup : w.waiters.Nodup

variable {rank : L → ℕ} {program : E → LockCmd L} {w w' : LockWorld T L} {t u : T} {l : L}
  {mode : LockMode} {k : List (LockFrame L)}

/-- The locks of a thread after one is released. -/
theorem held_release (os : List (T × L × LockMode)) :
    ((os.eraseP fun o => decide (o.1 = t) && decide (o.2.1 = l)).filter
        fun o => decide (o.1 = u)).map Prod.snd =
      if t = u then Held.without ((os.filter fun o => decide (o.1 = u)).map Prod.snd) l
      else (os.filter fun o => decide (o.1 = u)).map Prod.snd := by
  induction os with
  | nil => simp [Held.without]
  | cons o os ih =>
    by_cases htarget : o.1 = t ∧ o.2.1 = l
    · rw [List.eraseP_cons_of_pos (by simp [htarget])]
      by_cases htu : t = u
      · rw [if_pos htu, held_grant, if_pos (htarget.1.trans htu)]
        exact (List.eraseP_cons_of_pos (by simp [htarget.2])).symm
      · rw [if_neg htu, held_grant, if_neg fun h => htu (htarget.1.symm.trans h)]
    · rw [List.eraseP_cons_of_neg (by simpa using htarget), held_grant, held_grant, ih]
      by_cases hou : o.1 = u
      · rw [if_pos hou, if_pos hou]
        by_cases htu : t = u
        · rw [if_pos htu, if_pos htu]
          have hl : o.2.1 ≠ l := fun h => htarget ⟨hou.trans htu.symm, h⟩
          exact (List.eraseP_cons_of_neg (by simpa using hl)).symm
        · rw [if_neg htu, if_neg htu]
      · rw [if_neg hou, if_neg hou]

/-- The condition of a thread whose stack and locks stay. -/
theorem Ordered.other (h : w.Ordered rank) (hstack : w'.stack u = w.stack u)
    (hheld : w'.held u = w.held u) : (frameSpec rank (w'.stack u)).1 (w'.held u) := by
  rw [hstack, hheld]
  exact h.spec u

/-- A thread that does not wait goes on. -/
theorem Ordered.setStack (h : w.Ordered rank) (hk : (frameSpec rank k).1 (w.held t))
    (hrun : ∀ l mode k', w.stack t ≠ .run (.acquire l mode) :: k') :
    (w.setStack t k).Ordered rank where
  spec := fun u => by
    by_cases hu : u = t
    · rw [hu, setStack_stack_self]
      exact hk
    · exact h.other (setStack_stack_of_ne hu) rfl
  waits := fun u l mode hu => by
    obtain ⟨k', hk'⟩ := h.waits u l mode hu
    have hne : u ≠ t := by
      rintro rfl
      exact hrun l mode k' hk'
    exact ⟨k', (setStack_stack_of_ne hne).trans hk'⟩
  nodup := h.nodup

/-- Every step keeps the invariant. -/
theorem Ordered.next (h : w.Ordered rank)
    (hprogram : ∀ e, (program e).wp rank (fun _ _ => False) (fun h => h = []) [])
    {e : LockEvent T E} (hstep : w.next program e = some w') : w'.Ordered rank := by
  cases e with
  | enter t e =>
    obtain ⟨hempty, rfl⟩ := guard_of_eq_some hstep
    have hnil : w.stack t = [] := List.isEmpty_iff.mp hempty
    have hheld := h.spec t
    rw [hnil] at hheld
    have hnone : w.held t = [] := hheld
    refine h.setStack ?_ fun l mode k' hk' => by rw [hnil] at hk'; cases hk'
    rw [hnone]
    exact hprogram e
  | advance t n =>
    obtain ⟨k, hk, rfl⟩ := Option.map_eq_some_iff.mp hstep
    refine h.setStack (frameSpec_advance (h.spec t) hk) fun l mode k' hk' => ?_
    rw [hk'] at hk
    cases hk
  | wait t =>
    simp only [LockWorld.next] at hstep
    split at hstep
    swap
    · cases hstep
    rename_i l mode k hstack
    obtain ⟨hnew, rfl⟩ := guard_of_eq_some hstep
    refine ⟨h.spec, fun u l' mode' hu => ?_, ?_⟩
    · rcases List.mem_append.mp hu with hold | hlast
      · exact h.waits u l' mode' hold
      · obtain ⟨rfl, rfl, rfl⟩ : u = t ∧ l' = l ∧ mode' = mode := by simpa using hlast
        exact ⟨k, hstack⟩
    · refine List.nodup_append.mpr ⟨h.nodup, List.nodup_singleton _, fun x hx y hy heq => ?_⟩
      rw [heq, List.mem_singleton.mp hy] at hx
      exact hnew hx
  | grant t =>
    simp only [LockWorld.next] at hstep
    split at hstep
    swap
    · cases hstep
    rename_i l mode k hstack
    obtain ⟨_, rfl⟩ := guard_of_eq_some hstep
    have hspec := h.spec t
    rw [hstack] at hspec
    refine ⟨fun u => ?_, fun u l' mode' hu => ?_, h.nodup.erase _⟩
    · by_cases hu : u = t
      · subst hu
        simp only [LockWorld.held, Function.update_self, held_grant, if_true]
        exact hspec.2
      · refine h.other (Function.update_of_ne hu k w.stack) ?_
        exact (held_grant w.owners _).trans (if_neg fun heq => hu heq.symm)
    · obtain ⟨hne, hold⟩ := h.nodup.mem_erase_iff.mp hu
      obtain ⟨k', hk'⟩ := h.waits u l' mode' hold
      have hut : u ≠ t := by
        rintro rfl
        rw [hstack] at hk'
        cases hk'
        exact hne rfl
      exact ⟨k', (Function.update_of_ne hut k w.stack).trans hk'⟩
  | release t =>
    simp only [LockWorld.next] at hstep
    split at hstep
    swap
    · cases hstep
    rename_i l k hstack
    cases hstep
    have hspec := h.spec t
    rw [hstack] at hspec
    refine ⟨fun u => ?_, fun u l' mode' hu => ?_, h.nodup⟩
    · by_cases hu : u = t
      · subst hu
        simp only [LockWorld.held, Function.update_self, held_release, if_true]
        exact hspec.2
      · refine h.other (Function.update_of_ne hu k w.stack) ?_
        exact (held_release w.owners).trans (if_neg fun heq => hu heq.symm)
    · obtain ⟨k', hk'⟩ := h.waits u l' mode' hu
      have hut : u ≠ t := by
        rintro rfl
        rw [hstack] at hk'
        cases hk'
      exact ⟨k', (Function.update_of_ne hut k w.stack).trans hk'⟩

/-- The threads before any of them runs. -/
theorem Ordered.idle : (LockWorld.idle : LockWorld T L).Ordered rank where
  spec := fun _ => rfl
  waits := fun _ _ _ hu => by cases hu
  nodup := List.nodup_nil

/-- Every run of a family whose programs meet the condition keeps the invariant. -/
theorem Ordered.of_reachable
    (hprogram : ∀ e, (program e).wp rank (fun _ _ => False) (fun h => h = []) [])
    (hreach : Reachable (partialGraph (LockWorld.next program)) (LockWorld.idle : LockWorld T L)
      w) : w.Ordered rank :=
  hreach.invariant (fun _ _ _ h hstep => h.next hprogram hstep) .idle

/-- A thread that is before a lock holds only locks below it. -/
theorem Ordered.rank_lt (h : w.Ordered rank) (hstack : w.stack t = .run (.acquire l mode) :: k)
    {p : L × LockMode} (hp : p ∈ w.held t) : rank p.1 < rank l := by
  have hspec := h.spec t
  rw [hstack] at hspec
  exact lt_of_lt_of_le (rank_lt_height rank hp) hspec.1

/-- A thread does not hold the lock it is before. -/
theorem Ordered.not_held (h : w.Ordered rank) (hstack : w.stack t = .run (.acquire l mode) :: k)
    (mode' : LockMode) : (l, mode') ∉ w.held t :=
  fun hheld => lt_irrefl _ (h.rank_lt hstack hheld)

/-- A thread holds the lock it is about to release. -/
theorem Ordered.held_release (h : w.Ordered rank) (hstack : w.stack t = .run (.release l) :: k) :
    ∃ mode, (l, mode) ∈ w.held t := by
  have hspec := h.spec t
  rw [hstack] at hspec
  exact hspec.1

/-- A function returns with the locks it was called with. -/
theorem Ordered.held_ret (h : w.Ordered rank) {saved : Held L}
    (hstack : w.stack t = .ret saved :: k) : w.held t = saved := by
  have hspec := h.spec t
  rw [hstack] at hspec
  exact hspec.1

/-- A thread that runs no program holds no lock. -/
theorem Ordered.held_idle (h : w.Ordered rank) (hstack : w.stack t = []) : w.held t = [] := by
  have hspec := h.spec t
  rw [hstack] at hspec
  exact hspec

variable (rank) in
/-- A number that grows along the edges of the wait-for graph: by the rank of the lock first, then
towards the front of the queue. -/
def key (w : LockWorld T L) (x : T × L × LockMode) : ℕ :=
  rank x.2.1 * (w.waiters.length + 1) + (w.waiters.length - w.waiters.idxOf x)

/-- A thread that waits for one that waits has the smaller number. -/
theorem Ordered.key_lt (h : w.Ordered rank) (hwaits : w.Waits t u) {l l' : L}
    {mode mode' : LockMode} (ht : (t, l, mode) ∈ w.waiters) (hu : (u, l', mode') ∈ w.waiters) :
    w.key rank (t, l, mode) < w.key rank (u, l', mode') := by
  obtain ⟨l₁, mode₁, ht₁, hblocked⟩ := hwaits
  obtain ⟨k, hk⟩ := h.waits t l mode ht
  obtain ⟨k₁, hk₁⟩ := h.waits t l₁ mode₁ ht₁
  obtain ⟨k', hk'⟩ := h.waits u l' mode' hu
  rw [hk] at hk₁
  cases hk₁
  unfold key
  rcases hblocked with ⟨mode₂, howner, _⟩ | ⟨mode₂, hahead, hidx⟩
  · have hrank : rank l + 1 ≤ rank l' := h.rank_lt hk' (mem_held.mpr howner)
    have hmul := Nat.mul_le_mul_right (w.waiters.length + 1) hrank
    rw [Nat.add_mul] at hmul
    have hidx' := List.idxOf_lt_length_of_mem hu
    dsimp only
    omega
  · obtain ⟨k₂, hk₂⟩ := h.waits u l mode₂ hahead
    rw [hk'] at hk₂
    cases hk₂
    have hidx' := List.idxOf_lt_length_of_mem ht
    dsimp only
    omega

/-- The wait-for graph has no cycle. -/
theorem Ordered.acyclic (h : w.Ordered rank) (t : T) : ¬ Relation.TransGen w.Waits t t := by
  have hkey : ∀ {t u}, Relation.TransGen w.Waits t u → ∀ {l l' mode mode'},
      (t, l, mode) ∈ w.waiters → (u, l', mode') ∈ w.waiters →
        w.key rank (t, l, mode) < w.key rank (u, l', mode') := by
    intro t u hpath
    induction hpath with
    | single hedge => exact fun ht hu => h.key_lt hedge ht hu
    | tail _ hedge ih =>
      intro l l' mode mode' ht hu
      obtain ⟨l₁, mode₁, hmid, -⟩ := id hedge
      exact lt_trans (ih ht hmid) (h.key_lt hedge hmid hu)
  intro hcycle
  obtain ⟨u, hedge, -⟩ := Relation.TransGen.head'_iff.mp hcycle
  obtain ⟨l, mode, ht, -⟩ := hedge
  exact lt_irrefl _ (hkey hcycle ht ht)

/-- The locks that are held and waited for form no cycle either. -/
theorem Ordered.acyclic_locks (h : w.Ordered rank) (l : L) :
    ¬ Relation.TransGen w.Nests l l := by
  have hrank : ∀ {l l'}, Relation.TransGen w.Nests l l' → rank l < rank l' := by
    intro l l' hpath
    have hedge : ∀ {l l'}, w.Nests l l' → rank l < rank l' := by
      rintro l l' ⟨t, mode, mode', hheld, hwait⟩
      obtain ⟨k, hk⟩ := h.waits t l' mode' hwait
      exact h.rank_lt hk hheld
    induction hpath with
    | single hn => exact hedge hn
    | tail _ hn ih => exact lt_trans ih (hedge hn)
  exact fun hcycle => lt_irrefl _ (hrank hcycle)

/-- Where threads wait, one of them waits only for threads that do not wait. -/
theorem Ordered.exists_front (h : w.Ordered rank) (hwait : w.waiters ≠ []) :
    ∃ t l mode, (t, l, mode) ∈ w.waiters ∧
      ∀ u, w.Waits t u → ∀ l' mode', (u, l', mode') ∉ w.waiters := by
  obtain ⟨x, hx⟩ := List.exists_mem_of_ne_nil _ hwait
  obtain ⟨y, hy, hmax⟩ := w.waiters.toFinset.exists_max_image (w.key rank)
    ⟨x, List.mem_toFinset.mpr hx⟩
  refine ⟨y.1, y.2.1, y.2.2, List.mem_toFinset.mp hy, fun u hedge l' mode' hu => ?_⟩
  have hlt := h.key_lt hedge (List.mem_toFinset.mp hy) hu
  exact absurd (hmax _ (List.mem_toFinset.mpr hu)) (not_le.mpr hlt)

end LockWorld

end TtKmd.Lib
