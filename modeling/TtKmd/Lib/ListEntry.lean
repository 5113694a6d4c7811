import Mathlib.Data.List.Chain
import Mathlib.Data.List.Nodup
import Mathlib.Logic.Function.Basic

/-!
# Circular doubly linked lists in memory

A list is a circle of entries through a head: each entry has a link forward and a link back.
An operation reads and writes single links, and checks the links around the entry it works on
before it changes them; an access to an entry that is not allocated is a fault, and so is a
check that fails. `Circle` relates a head to the entries of its list, in their order.

Every operation on a circle succeeds, leaves the circle one expects, and touches nothing
outside of it; a table of circles without a common entry therefore stays one.
-/

namespace TtKmd.Lib

/-- The entries of a memory, and which of them are allocated. -/
structure Entries (α : Type*) where
  /-- `Flink`. -/
  flink : α → α
  /-- `Blink`. -/
  blink : α → α
  /-- The entry is in allocated memory. -/
  allocated : α → Bool

namespace Entries

variable {α : Type*} [DecidableEq α]

/-! ## The operations -/

/-- A read of `Flink`. -/
def readFlink (m : Entries α) (a : α) : Option α :=
  if m.allocated a then some (m.flink a) else none

/-- A read of `Blink`. -/
def readBlink (m : Entries α) (a : α) : Option α :=
  if m.allocated a then some (m.blink a) else none

/-- A write to `Flink`. -/
def writeFlink (m : Entries α) (a b : α) : Option (Entries α) :=
  if m.allocated a then some { m with flink := Function.update m.flink a b } else none

/-- A write to `Blink`. -/
def writeBlink (m : Entries α) (a b : α) : Option (Entries α) :=
  if m.allocated a then some { m with blink := Function.update m.blink a b } else none

/-- The memory of an entry is allocated. -/
def allocate (m : Entries α) (a : α) : Entries α :=
  { m with allocated := Function.update m.allocated a true }

/-- The memory of an entry is freed; to free it twice is a fault. -/
def free (m : Entries α) (a : α) : Option (Entries α) :=
  if m.allocated a then some { m with allocated := Function.update m.allocated a false } else none

/-- `InitializeListHead`. -/
def initializeListHead (m : Entries α) (h : α) : Option (Entries α) :=
  (m.writeBlink h h).bind fun m => m.writeFlink h h

/-- `IsListEmpty`. -/
def isListEmpty (m : Entries α) (h : α) : Option Bool :=
  (m.readFlink h).map fun a => decide (a = h)

/-- `InsertTailList`. -/
def insertTailList (m : Entries α) (h e : α) : Option (Entries α) :=
  (m.readBlink h).bind fun prev =>
    (m.readFlink prev).bind fun back =>
      if back ≠ h then none
      else
        (m.writeFlink e h).bind fun m =>
          (m.writeBlink e prev).bind fun m =>
            (m.writeFlink prev e).bind fun m => m.writeBlink h e

/-- `RemoveEntryList`. -/
def removeEntryList (m : Entries α) (e : α) : Option (Entries α) :=
  (m.readFlink e).bind fun next =>
    (m.readBlink e).bind fun prev =>
      (m.readBlink next).bind fun back =>
        (m.readFlink prev).bind fun forth =>
          if back ≠ e ∨ forth ≠ e then none
          else (m.writeFlink prev next).bind fun m => m.writeBlink next prev

/-- `RemoveHeadList`, with the entry that is removed. -/
def removeHeadList (m : Entries α) (h : α) : Option (α × Entries α) :=
  (m.readFlink h).bind fun e =>
    (m.readFlink e).bind fun next =>
      (m.readBlink e).bind fun back =>
        (m.readBlink next).bind fun back' =>
          if back ≠ h ∨ back' ≠ e then none
          else
            (m.writeFlink h next).bind fun m => (m.writeBlink next h).map fun m => (e, m)

/-- The loop that looks for the first entry with a property, from an entry on; the first
argument bounds the rounds. -/
def findFrom (m : Entries α) (h : α) (test : α → Bool) : ℕ → α → Option (Option α)
  | 0, _ => none
  | n + 1, e =>
      if e = h then some none
      else if test e then some (some e)
      else (m.readFlink e).bind fun next => m.findFrom h test n next

/-- The loop over a list that stops at the first entry with a property. -/
def findEntry (m : Entries α) (h : α) (test : α → Bool) (n : ℕ) : Option (Option α) :=
  (m.readFlink h).bind fun e => m.findFrom h test n e

/-- The loop over a list that unlinks and frees some of the entries, from an entry on. The
link to the next entry is read before the entry is freed. -/
def sweepFrom (h : α) (keep : α → Bool) : ℕ → Entries α → α → Option (Entries α × List α)
  | 0, _, _ => none
  | n + 1, m, e =>
      if e = h then some (m, [])
      else
        (m.readFlink e).bind fun next =>
          if keep e then sweepFrom h keep n m next
          else
            (m.removeEntryList e).bind fun m =>
              (m.free e).bind fun m =>
                (sweepFrom h keep n m next).map fun res => (res.1, e :: res.2)

/-- The loop over a list that unlinks and frees some of the entries. -/
def sweep (m : Entries α) (h : α) (keep : α → Bool) (n : ℕ) : Option (Entries α × List α) :=
  (m.readFlink h).bind fun e => sweepFrom h keep n m e

/-- The loop that removes the first entry until the list is empty, and frees each. -/
def drain (h : α) : ℕ → Entries α → Option (Entries α × List α)
  | 0, _ => none
  | n + 1, m =>
      (m.isListEmpty h).bind fun empty =>
        if empty then some (m, [])
        else
          (m.removeHeadList h).bind fun res =>
            (res.2.free res.1).bind fun m =>
              (drain h n m).map fun rest => (rest.1, res.1 :: rest.2)

/-- The loop that does something for each entry of a list, from an entry on. The state of the
body has the links in it; the link to the next entry is read after the body. -/
def forEachFrom {σ : Type*} (links : σ → Entries α) (h : α) (body : σ → α → Option σ) :
    ℕ → σ → α → Option σ
  | 0, _, _ => none
  | n + 1, s, e =>
      if e = h then some s
      else
        (body s e).bind fun s =>
          ((links s).readFlink e).bind fun next => forEachFrom links h body n s next

/-- The loop that does something for each entry of a list. -/
def forEach {σ : Type*} (links : σ → Entries α) (h : α) (body : σ → α → Option σ) (n : ℕ)
    (s : σ) : Option σ :=
  ((links s).readFlink h).bind fun e => forEachFrom links h body n s e

/-! ## Circles -/

/-- Two entries in a row. -/
def Joined (m : Entries α) (a b : α) : Prop := m.flink a = b ∧ m.blink b = a

/-- From the head through the entries of the list and back. -/
structure Circle (m : Entries α) (h : α) (xs : List α) : Prop where
  /-- No entry occurs twice, and the head is none of them. -/
  nodup : (h :: xs).Nodup
  /-- The links follow the list in both directions. -/
  joined : (h :: xs ++ [h]).IsChain m.Joined
  /-- The head and the entries are allocated. -/
  allocated : ∀ a ∈ h :: xs, m.allocated a = true

/-- Nothing outside of some entries has changed. -/
def Within (s : List α) (m m' : Entries α) : Prop :=
  ∀ a, a ∉ s → m'.flink a = m.flink a ∧ m'.blink a = m.blink a ∧ m'.allocated a = m.allocated a

variable {m m' : Entries α} {h e x : α} {xs pre post : List α}

omit [DecidableEq α] in
/-- Nothing has changed. -/
theorem Within.refl (s : List α) (m : Entries α) : Within s m m := fun _ _ => ⟨rfl, rfl, rfl⟩

omit [DecidableEq α] in
/-- Two changes in a row. -/
theorem Within.trans {s t : List α} {m₁ m₂ : Entries α} (h₁ : Within s m m₁) (h₂ : Within t m₁ m₂)
    (hsub : ∀ a ∈ t, a ∈ s) : Within s m m₂ := by
  intro a ha
  obtain ⟨hf₁, hb₁, hal₁⟩ := h₁ a ha
  obtain ⟨hf₂, hb₂, hal₂⟩ := h₂ a fun hat => ha (hsub a hat)
  exact ⟨hf₂.trans hf₁, hb₂.trans hb₁, hal₂.trans hal₁⟩

omit [DecidableEq α] in
/-- A change to fewer entries. -/
theorem Within.mono {s t : List α} (hw : Within s m m') (hsub : ∀ a ∈ s, a ∈ t) :
    Within t m m' := fun a ha => hw a fun has => ha (hsub a has)

omit [DecidableEq α] in
/-- A chain depends on the forward links of all but its last entry, and on the back links of
all but its first. -/
theorem isChain_joined_congr {l : List α} (hl : l.IsChain m.Joined)
    (hf : ∀ a ∈ l.dropLast, m'.flink a = m.flink a) (hb : ∀ a ∈ l.tail, m'.blink a = m.blink a) :
    l.IsChain m'.Joined := by
  induction l with
  | nil => exact .nil
  | cons a l ih =>
    cases l with
    | nil => exact .singleton _
    | cons b l =>
      rw [List.isChain_cons_cons] at hl ⊢
      obtain ⟨⟨hab, hba⟩, hrest⟩ := hl
      constructor
      · constructor
        · rw [hf a (by simp), hab]
        · rw [hb b (by simp), hba]
      · apply ih hrest
        · intro c hc
          apply hf
          rw [List.dropLast_cons_cons]
          exact List.mem_cons_of_mem _ hc
        · intro c hc
          apply hb
          exact List.mem_cons_of_mem _ hc

omit [DecidableEq α] in
/-- A circle does not depend on other entries. -/
theorem Circle.congr {s : List α} (hc : Circle m h xs) (hw : Within s m m')
    (hs : ∀ a ∈ h :: xs, a ∉ s) : Circle m' h xs := by
  refine ⟨hc.nodup, ?_, ?_⟩
  · apply isChain_joined_congr hc.joined
    · intro a ha
      rw [List.dropLast_concat] at ha
      exact (hw a (hs a ha)).1
    · intro a ha
      apply And.left
      apply And.right (hw a (hs a _))
      simpa [or_comm] using ha
  · intro a ha
    rw [(hw a (hs a ha)).2.2]
    exact hc.allocated a ha

omit [DecidableEq α] in
/-- The links around an entry of a list. -/
theorem Circle.around (hc : Circle m h (pre ++ x :: post)) :
    ∃ p n, p ∈ (h :: pre).getLast? ∧ n ∈ (post ++ [h]).head? ∧
      m.Joined p x ∧ m.Joined x n := by
  have hchain := hc.joined
  have hsplit : h :: (pre ++ x :: post) ++ [h] = (h :: pre) ++ x :: (post ++ [h]) := by simp
  rw [hsplit, List.isChain_append] at hchain
  obtain ⟨-, htail, hjoin⟩ := hchain
  obtain ⟨p, hp⟩ : ∃ p, p ∈ (h :: pre).getLast? := ⟨_, List.getLast?_cons⟩
  cases hpost : post ++ [h] with
  | nil => simp at hpost
  | cons n rest =>
    rw [hpost, List.isChain_cons_cons] at htail
    exact ⟨p, n, hp, rfl, hjoin p hp x rfl, htail.1⟩

omit [DecidableEq α] in
/-- The links between the last entry and the head. -/
theorem Circle.last (hc : Circle m h xs) : ∃ p, p ∈ (h :: xs).getLast? ∧ m.Joined p h := by
  have hchain := hc.joined
  rw [List.isChain_append] at hchain
  obtain ⟨p, hp⟩ : ∃ p, p ∈ (h :: xs).getLast? := ⟨_, List.getLast?_cons⟩
  exact ⟨p, hp, hchain.2.2 p hp h rfl⟩

omit [DecidableEq α] in
/-- The links between the head and the first entry. -/
theorem Circle.first (hc : Circle m h xs) : ∃ n, n ∈ (xs ++ [h]).head? ∧ m.Joined h n := by
  have hchain := hc.joined
  cases hxs : xs ++ [h] with
  | nil => simp at hxs
  | cons n rest =>
    rw [List.cons_append, hxs, List.isChain_cons_cons] at hchain
    exact ⟨n, rfl, hchain.1⟩

/-- An allocation touches nothing else. -/
theorem within_allocate (m : Entries α) (a : α) : Within [a] m (m.allocate a) := by
  intro b hb
  have hba : b ≠ a := by simpa using hb
  exact ⟨rfl, rfl, Function.update_of_ne hba _ _⟩

/-- What was allocated stays so, and so is what is allocated now. -/
theorem allocated_allocate (m : Entries α) (a b : α) :
    (m.allocate a).allocated b = true ↔ b = a ∨ m.allocated b = true := by
  by_cases hba : b = a
  · simp [allocate, hba]
  · simp [allocate, hba]

/-- The head of a list is initialised. -/
theorem circle_initializeListHead (m : Entries α) (hal : m.allocated h = true) :
    ∃ m', m.initializeListHead h = some m' ∧ Circle m' h [] ∧ Within [h] m m' ∧
      m'.allocated = m.allocated := by
  refine ⟨{ m with blink := Function.update m.blink h h, flink := Function.update m.flink h h },
    ?_, ?_, ?_, rfl⟩
  · simp [initializeListHead, writeBlink, writeFlink, hal]
  · refine ⟨List.nodup_singleton h, ?_, ?_⟩
    · simp [Joined]
    · simpa using hal
  · intro a ha
    have hne : a ≠ h := by simpa using ha
    exact ⟨Function.update_of_ne hne _ _, Function.update_of_ne hne _ _, rfl⟩

/-- `IsListEmpty` asks for what its name says. -/
theorem Circle.isListEmpty (hc : Circle m h xs) : m.isListEmpty h = some (decide (xs = [])) := by
  obtain ⟨n, hn, hjoin⟩ := hc.first
  have hal := hc.allocated h (List.mem_cons_self ..)
  simp only [Entries.isListEmpty, readFlink, hal, if_true, Option.map_some, hjoin.1]
  cases xs with
  | nil =>
    have hnh : n = h := by simpa using hn.symm
    simp [hnh]
  | cons x xs =>
    have hnx : n = x := by simpa using hn.symm
    have hxh : x ≠ h := by
      rintro rfl
      have hnodup := hc.nodup
      simp at hnodup
    simp [hnx, hxh]

/-- An allocated entry that is in no list is put behind the last one. -/
theorem Circle.insertTailList (hc : Circle m h xs) (he : e ∉ h :: xs)
    (hal : m.allocated e = true) :
    ∃ m', m.insertTailList h e = some m' ∧ Circle m' h (xs ++ [e]) ∧
      Within (e :: h :: xs) m m' ∧ m'.allocated = m.allocated := by
  obtain ⟨p, hp, hph⟩ := hc.last
  have hpmem : p ∈ h :: xs := List.mem_of_getLast? hp
  have hpe : p ≠ e := fun heq => he (heq ▸ hpmem)
  have hhe : h ≠ e := fun heq => he (heq ▸ List.mem_cons_self ..)
  have halh := hc.allocated h (List.mem_cons_self ..)
  have halp := hc.allocated p hpmem
  refine ⟨{ m with
    flink := Function.update (Function.update m.flink e h) p e
    blink := Function.update (Function.update m.blink e p) h e }, ?_, ?_, ?_, rfl⟩
  · simp [Entries.insertTailList, readBlink, readFlink, writeFlink, writeBlink, halh, halp, hal,
      hph.1, hph.2]
  · refine ⟨?_, ?_, ?_⟩
    · rw [← List.cons_append, List.nodup_append]
      refine ⟨hc.nodup, List.nodup_singleton e, ?_⟩
      rintro a ha b hb rfl
      exact he (List.mem_singleton.mp hb ▸ ha)
    · have hchain := hc.joined
      rw [List.isChain_append] at hchain
      have hsplit : h :: (xs ++ [e]) ++ [h] = (h :: xs) ++ [e, h] := by simp
      rw [hsplit, List.isChain_append]
      refine ⟨?_, ?_, ?_⟩
      · -- the links before the last entry are as they were
        apply isChain_joined_congr hchain.1
        · intro a ha
          have hap : a ≠ p := by
            rintro rfl
            obtain ⟨ys, hys⟩ := List.getLast?_eq_some_iff.mp hp
            have hnodup := hc.nodup
            rw [hys] at ha hnodup
            rw [List.dropLast_concat] at ha
            rw [List.nodup_append] at hnodup
            exact hnodup.2.2 a ha a (List.mem_singleton_self a) rfl
          have hae : a ≠ e := by
            rintro rfl
            exact he (List.dropLast_subset _ ha)
          simp only
          rw [Function.update_of_ne hap, Function.update_of_ne hae]
        · intro a ha
          have hah : a ≠ h := by
            rintro rfl
            exact (List.nodup_cons.mp hc.nodup).1 ha
          have hae : a ≠ e := by
            rintro rfl
            exact he (List.mem_cons_of_mem _ ha)
          simp only
          rw [Function.update_of_ne hah, Function.update_of_ne hae]
      · simp [Joined, Function.update_of_ne hpe.symm]
      · intro a ha b hb
        obtain rfl : e = b := by simpa using hb
        obtain rfl : p = a := Option.mem_unique hp ha
        constructor
        · simp
        · simp [Function.update_of_ne hhe.symm]
    · intro a ha
      rw [← List.cons_append, List.mem_append, List.mem_singleton] at ha
      rcases ha with ha | rfl
      · exact hc.allocated a ha
      · exact hal
  · intro a ha
    rw [List.mem_cons, not_or] at ha
    have hap : a ≠ p := fun heq => ha.2 (heq ▸ hpmem)
    have hah : a ≠ h := fun heq => ha.2 (heq ▸ List.mem_cons_self ..)
    refine ⟨?_, ?_, rfl⟩
    · simp only
      rw [Function.update_of_ne hap, Function.update_of_ne ha.1]
    · simp only
      rw [Function.update_of_ne hah, Function.update_of_ne ha.1]

/-- What is left when an entry is taken out of a circle. -/
theorem Circle.without (hc : Circle m h (pre ++ x :: post)) {p n : α}
    (hp : p ∈ (h :: pre).getLast?) (hn : n ∈ (post ++ [h]).head?) :
    let m' : Entries α :=
      { m with flink := Function.update m.flink p n, blink := Function.update m.blink n p }
    Circle m' h (pre ++ post) ∧ Within (h :: (pre ++ post)) m m' := by
  have hsplit : h :: (pre ++ x :: post) ++ [h] = (h :: pre) ++ x :: (post ++ [h]) := by simp
  have hnodup : ((h :: pre) ++ x :: post).Nodup := hc.nodup
  obtain ⟨hpreNodup, htailNodup, hapart⟩ := List.nodup_append.mp hnodup
  have hpostNodup := (List.nodup_cons.mp htailNodup).2
  have hpmem : p ∈ h :: pre := List.mem_of_getLast? hp
  have hnmem : n ∈ h :: (pre ++ post) := by
    have hn' := List.mem_of_head? hn
    simp only [List.mem_append, List.mem_singleton] at hn'
    rcases hn' with hn' | rfl
    · exact List.mem_cons_of_mem _ (List.mem_append_right _ hn')
    · exact List.mem_cons_self ..
  have hchain := hc.joined
  rw [hsplit, List.isChain_append] at hchain
  obtain ⟨hpreChain, htailChain, -⟩ := hchain
  have hpostChain : (post ++ [h]).IsChain m.Joined := htailChain.tail
  refine ⟨⟨?_, ?_, ?_⟩, ?_⟩
  · rw [← List.cons_append, List.nodup_append]
    refine ⟨hpreNodup, hpostNodup, ?_⟩
    intro a ha b hb
    exact hapart a ha b (List.mem_cons_of_mem _ hb)
  · have hsplit' : h :: (pre ++ post) ++ [h] = (h :: pre) ++ (post ++ [h]) := by simp
    rw [hsplit', List.isChain_append]
    refine ⟨?_, ?_, ?_⟩
    · apply isChain_joined_congr hpreChain
      · intro a ha
        apply Function.update_of_ne
        rintro rfl
        obtain ⟨ys, hys⟩ := List.getLast?_eq_some_iff.mp hp
        rw [hys] at ha hpreNodup
        rw [List.dropLast_concat] at ha
        exact (List.nodup_append.mp hpreNodup).2.2 a ha a (List.mem_singleton_self a) rfl
      · intro a ha
        apply Function.update_of_ne
        rintro rfl
        have hn' := List.mem_of_head? hn
        simp only [List.mem_append, List.mem_singleton] at hn'
        rcases hn' with hn' | rfl
        · exact hapart a (List.mem_cons_of_mem _ ha) a (List.mem_cons_of_mem _ hn') rfl
        · exact (List.nodup_cons.mp hpreNodup).1 ha
    · apply isChain_joined_congr hpostChain
      · intro a ha
        rw [List.dropLast_concat] at ha
        apply Function.update_of_ne
        rintro rfl
        exact hapart a hpmem a (List.mem_cons_of_mem _ ha) rfl
      · intro a ha
        apply Function.update_of_ne
        rintro rfl
        cases post with
        | nil => simp at ha
        | cons b post =>
          obtain rfl : b = a := by simpa using hn
          simp only [List.cons_append, List.tail_cons, List.mem_append, List.mem_singleton] at ha
          rcases ha with ha | rfl
          · exact (List.nodup_cons.mp hpostNodup).1 ha
          · exact hapart b (List.mem_cons_self ..) b (by simp) rfl
    · intro a ha b hb
      obtain rfl : p = a := Option.mem_unique hp ha
      obtain rfl : n = b := Option.mem_unique hn hb
      exact ⟨Function.update_self .., Function.update_self ..⟩
  · intro a ha
    apply hc.allocated
    simp only [List.mem_cons, List.mem_append] at ha ⊢
    tauto
  · intro a ha
    have hap : a ≠ p := by
      rintro rfl
      apply ha
      rw [← List.cons_append]
      exact List.mem_append_left _ hpmem
    have han : a ≠ n := fun heq => ha (heq ▸ hnmem)
    exact ⟨Function.update_of_ne hap _ _, Function.update_of_ne han _ _, rfl⟩

/-- An entry of a list is taken out. -/
theorem Circle.removeEntryList (hc : Circle m h (pre ++ x :: post)) :
    ∃ m', m.removeEntryList x = some m' ∧ Circle m' h (pre ++ post) ∧
      Within (h :: (pre ++ post)) m m' ∧ m'.allocated = m.allocated := by
  obtain ⟨p, n, hp, hn, hpx, hxn⟩ := hc.around
  obtain ⟨hcircle, hwithin⟩ := hc.without hp hn
  have hpmem : p ∈ h :: (pre ++ x :: post) := by
    rw [← List.cons_append]
    exact List.mem_append_left _ (List.mem_of_getLast? hp)
  have hnmem : n ∈ h :: (pre ++ x :: post) := by
    have hn' := List.mem_of_head? hn
    simp only [List.mem_append, List.mem_singleton] at hn'
    simp only [List.mem_cons, List.mem_append]
    tauto
  have halp := hc.allocated p hpmem
  have haln := hc.allocated n hnmem
  have halx := hc.allocated x (by simp)
  refine ⟨_, ?_, hcircle, hwithin, rfl⟩
  simp [Entries.removeEntryList, readFlink, readBlink, writeFlink, writeBlink, halp, haln, halx,
    hpx.1, hpx.2, hxn.1, hxn.2]

/-- The first entry is taken out. -/
theorem Circle.removeHeadList (hc : Circle m h (x :: xs)) :
    ∃ m', m.removeHeadList h = some (x, m') ∧ Circle m' h xs ∧ Within (h :: xs) m m' ∧
      m'.allocated = m.allocated := by
  have hfirst : Circle m h ([] ++ x :: xs) := hc
  obtain ⟨p, n, hp, hn, hpx, hxn⟩ := hfirst.around
  obtain rfl : h = p := by simpa using hp
  obtain ⟨hcircle, hwithin⟩ := hfirst.without hp hn
  have hnmem : n ∈ h :: x :: xs := by
    have hn' := List.mem_of_head? hn
    simp only [List.mem_append, List.mem_singleton] at hn'
    simp only [List.mem_cons]
    tauto
  have halh := hc.allocated h (by simp)
  have haln := hc.allocated n hnmem
  have halx := hc.allocated x (by simp)
  refine ⟨_, ?_, hcircle, hwithin, rfl⟩
  simp [Entries.removeHeadList, readFlink, readBlink, writeFlink, writeBlink, halh, haln, halx,
    hpx.1, hpx.2, hxn.1, hxn.2]

/-- Memory that is allocated can be freed. -/
theorem within_free (hal : m.allocated x = true) :
    ∃ m', m.free x = some m' ∧ Within [x] m m' ∧
      m'.allocated = Function.update m.allocated x false := by
  refine ⟨_, if_pos hal, ?_, rfl⟩
  intro a ha
  have hax : a ≠ x := by simpa using ha
  exact ⟨rfl, rfl, Function.update_of_ne hax _ _⟩

/-- An entry that is no longer in the list is freed. -/
theorem Circle.free (hc : Circle m h xs) (hx : x ∉ h :: xs) (hal : m.allocated x = true) :
    ∃ m', m.free x = some m' ∧ Circle m' h xs ∧ Within [x] m m' ∧
      m'.allocated = Function.update m.allocated x false := by
  obtain ⟨m', hrun, hwithin, hal'⟩ := within_free hal
  refine ⟨m', hrun, ?_, hwithin, hal'⟩
  apply hc.congr hwithin
  intro a ha hax
  obtain rfl := List.mem_singleton.mp hax
  exact hx ha

/-! ## The loops -/

/-- The search from an entry on. -/
theorem Circle.findFrom {test : α → Bool} {n : ℕ} (hc : Circle m h (pre ++ xs))
    (hn : xs.length < n) {a : α} (ha : a ∈ (xs ++ [h]).head?) :
    m.findFrom h test n a = some (xs.find? test) := by
  induction xs generalizing pre n a with
  | nil =>
    obtain rfl : h = a := by simpa using ha
    cases n with
    | zero => simp at hn
    | succ n => simp [Entries.findFrom]
  | cons x xs ih =>
    obtain rfl : x = a := by simpa using ha
    have hxh : x ≠ h := by
      rintro rfl
      exact (List.nodup_cons.mp hc.nodup).1 (by simp)
    cases n with
    | zero => simp at hn
    | succ n =>
      obtain ⟨p, next, -, hnext, -, hjoin⟩ := hc.around
      have hal := hc.allocated x (by simp)
      have hrest : Circle m h ((pre ++ [x]) ++ xs) := by simpa using hc
      simp only [Entries.findFrom, if_neg hxh]
      cases htest : test x with
      | true => simp [htest]
      | false =>
        simp only [readFlink, hal, if_true, Option.bind_some, hjoin.1, Bool.false_eq_true, if_false]
        rw [ih hrest (by simpa using hn) hnext, List.find?_cons_of_neg (by simp [htest])]

/-- The search over a list finds the first entry of the list with the property. -/
theorem Circle.findEntry {test : α → Bool} {n : ℕ} (hc : Circle m h xs) (hn : xs.length < n) :
    m.findEntry h test n = some (xs.find? test) := by
  obtain ⟨a, ha, hjoin⟩ := hc.first
  have hal := hc.allocated h (List.mem_cons_self ..)
  simp only [Entries.findEntry, readFlink, hal, if_true, Option.bind_some, hjoin.1]
  have hstart : Circle m h ([] ++ xs) := hc
  exact hstart.findFrom hn ha

/-- What a loop that frees entries leaves allocated. -/
def Freed (m m' : Entries α) (gone : List α) : Prop :=
  ∀ a, m'.allocated a = (m.allocated a && decide (a ∉ gone))

/-- Freeing one entry and then some others. -/
theorem Freed.cons {m₁ : Entries α} {gone : List α}
    (hal : m₁.allocated = Function.update m.allocated x false) (hrest : Freed m₁ m' gone) :
    Freed m m' (x :: gone) := by
  intro a
  rw [hrest a, hal]
  by_cases hax : a = x
  · simp [hax]
  · simp [hax]

/-- The sweep from an entry on: the entries before it stay. -/
theorem Circle.sweepFrom {keep : α → Bool} {n : ℕ} (hc : Circle m h (pre ++ xs))
    (hn : xs.length < n) {a : α} (ha : a ∈ (xs ++ [h]).head?) :
    ∃ m', sweepFrom h keep n m a = some (m', xs.filter fun x => !keep x) ∧
      Circle m' h (pre ++ xs.filter keep) ∧ Within (h :: (pre ++ xs)) m m' ∧
      Freed m m' (xs.filter fun x => !keep x) := by
  induction xs generalizing m pre n a with
  | nil =>
    obtain rfl : h = a := by simpa using ha
    cases n with
    | zero => simp at hn
    | succ n =>
      refine ⟨m, by simp [Entries.sweepFrom], by simpa using hc, Within.refl _ _, ?_⟩
      intro a
      simp
  | cons x xs ih =>
    obtain rfl : x = a := by simpa using ha
    have hxh : x ≠ h := by
      rintro rfl
      exact (List.nodup_cons.mp hc.nodup).1 (by simp)
    cases n with
    | zero => simp at hn
    | succ n =>
      have hn' : xs.length < n := by simpa using hn
      obtain ⟨p, next, -, hnext, -, hjoin⟩ := hc.around
      have hal := hc.allocated x (by simp)
      simp only [Entries.sweepFrom, if_neg hxh, readFlink, hal, if_true, Option.bind_some, hjoin.1]
      cases hkeep : keep x with
      | true =>
        have hrest : Circle m h ((pre ++ [x]) ++ xs) := by simpa using hc
        obtain ⟨m', hrun, hcircle, hwithin, hfreed⟩ := ih hrest hn' hnext
        refine ⟨m', ?_, ?_, ?_, ?_⟩
        · simpa [hkeep] using hrun
        · simpa [hkeep] using hcircle
        · simpa using hwithin
        · simpa [hkeep] using hfreed
      | false =>
        obtain ⟨m₁, hremove, hc₁, hw₁, hal₁⟩ := hc.removeEntryList
        have hxout : x ∉ h :: (pre ++ xs) := by
          have hnodup := hc.nodup
          rw [← List.cons_append, List.nodup_middle, List.nodup_cons] at hnodup
          exact hnodup.1
        obtain ⟨m₂, hfree, hc₂, hw₂, hal₂⟩ := hc₁.free hxout (by rw [hal₁]; exact hal)
        obtain ⟨m', hrun, hcircle, hwithin, hfreed⟩ := ih hc₂ hn' hnext
        refine ⟨m', ?_, ?_, ?_, ?_⟩
        · simp [hremove, hfree, hrun, hkeep]
        · simpa [hkeep] using hcircle
        · have hw₁' : Within (h :: (pre ++ x :: xs)) m m₁ := by
            apply hw₁.mono
            intro a ha
            simp only [List.mem_cons, List.mem_append] at ha ⊢
            tauto
          have hw₂' : Within (h :: (pre ++ x :: xs)) m m₂ := by
            apply hw₁'.trans hw₂
            intro a ha
            obtain rfl := List.mem_singleton.mp ha
            simp
          apply hw₂'.trans hwithin
          intro a ha
          simp only [List.mem_cons, List.mem_append] at ha ⊢
          tauto
        · rw [List.filter_cons_of_pos (by simp [hkeep])]
          rw [hal₁] at hal₂
          exact Freed.cons hal₂ hfreed

/-- The sweep over a list keeps the entries with the property, in their order, and frees the
others. -/
theorem Circle.sweep {keep : α → Bool} {n : ℕ} (hc : Circle m h xs) (hn : xs.length < n) :
    ∃ m', m.sweep h keep n = some (m', xs.filter fun x => !keep x) ∧
      Circle m' h (xs.filter keep) ∧ Within (h :: xs) m m' ∧
      Freed m m' (xs.filter fun x => !keep x) := by
  obtain ⟨a, ha, hjoin⟩ := hc.first
  have hal := hc.allocated h (List.mem_cons_self ..)
  simp only [Entries.sweep, readFlink, hal, if_true, Option.bind_some, hjoin.1]
  have hstart : Circle m h ([] ++ xs) := hc
  exact hstart.sweepFrom hn ha

/-- The loop that empties a list frees all its entries, first to last. -/
theorem Circle.drain {n : ℕ} (hc : Circle m h xs) (hn : xs.length < n) :
    ∃ m', Entries.drain h n m = some (m', xs) ∧ Circle m' h [] ∧ Within (h :: xs) m m' ∧
      Freed m m' xs := by
  induction xs generalizing m n with
  | nil =>
    cases n with
    | zero => simp at hn
    | succ n =>
      refine ⟨m, by simp [Entries.drain, hc.isListEmpty], hc, Within.refl _ _, ?_⟩
      intro a
      simp
  | cons x xs ih =>
    cases n with
    | zero => simp at hn
    | succ n =>
      obtain ⟨m₁, hremove, hc₁, hw₁, hal₁⟩ := hc.removeHeadList
      have hxout : x ∉ h :: xs := by
        have hnodup := hc.nodup
        rw [(List.Perm.swap x h xs).nodup_iff, List.nodup_cons] at hnodup
        exact hnodup.1
      have hal : m₁.allocated x = true := by
        rw [hal₁]
        exact hc.allocated x (by simp)
      obtain ⟨m₂, hfree, hc₂, hw₂, hal₂⟩ := hc₁.free hxout hal
      obtain ⟨m', hrun, hcircle, hwithin, hfreed⟩ := ih hc₂ (by simpa using hn)
      refine ⟨m', by simp [Entries.drain, hc.isListEmpty, hremove, hfree, hrun], hcircle, ?_, ?_⟩
      · have hw₁' : Within (h :: x :: xs) m m₁ := by
          apply hw₁.mono
          intro a ha
          simp only [List.mem_cons] at ha ⊢
          tauto
        have hw₂' : Within (h :: x :: xs) m m₂ := by
          apply hw₁'.trans hw₂
          intro a ha
          obtain rfl := List.mem_singleton.mp ha
          simp
        apply hw₂'.trans hwithin
        intro a ha
        simp only [List.mem_cons] at ha ⊢
        tauto
      · rw [hal₁] at hal₂
        exact Freed.cons hal₂ hfreed

/-- A loop whose body keeps an invariant, and with it the list, runs the body on the entries of
the list in their order. `inv` is indexed by the entries that are done. -/
theorem Circle.forEachFrom {σ : Type*} {links : σ → Entries α} {body : σ → α → Option σ}
    {inv : List α → σ → Prop} {all : List α} {s : σ} {n : ℕ}
    (hlist : ∀ done s, inv done s → Circle (links s) h all)
    (hbody : ∀ done x rest s, all = done ++ x :: rest → inv done s →
      ∃ s', body s x = some s' ∧ inv (done ++ [x]) s')
    (hs : inv pre s) (hall : all = pre ++ xs) (hn : xs.length < n) {a : α}
    (ha : a ∈ (xs ++ [h]).head?) :
    ∃ s', Entries.forEachFrom links h body n s a = some s' ∧ inv all s' := by
  induction xs generalizing pre n a s with
  | nil =>
    obtain rfl : h = a := by simpa using ha
    cases n with
    | zero => simp at hn
    | succ n =>
      refine ⟨s, by simp [Entries.forEachFrom], ?_⟩
      rw [hall, List.append_nil]
      exact hs
  | cons x xs ih =>
    obtain rfl : x = a := by simpa using ha
    have hxh : x ≠ h := by
      rintro rfl
      have hnodup := (hlist pre s hs).nodup
      rw [hall] at hnodup
      exact (List.nodup_cons.mp hnodup).1 (by simp)
    cases n with
    | zero => simp at hn
    | succ n =>
      obtain ⟨s₁, hrun, hs₁⟩ := hbody pre x xs s hall hs
      have hc := hlist _ _ hs₁
      rw [hall] at hc
      obtain ⟨p, next, -, hnext, -, hjoin⟩ := hc.around
      have hal := hc.allocated x (by simp)
      obtain ⟨s', hrest, hs'⟩ := ih hs₁ (by simpa using hall) (by simpa using hn) hnext
      refine ⟨s', ?_, hs'⟩
      simp [Entries.forEachFrom, hxh, hrun, readFlink, hal, hjoin.1, hrest]

/-- The loop over a whole list. -/
theorem Circle.forEach {σ : Type*} {links : σ → Entries α} {body : σ → α → Option σ}
    {inv : List α → σ → Prop} {s : σ} {n : ℕ}
    (hlist : ∀ done s, inv done s → Circle (links s) h xs)
    (hbody : ∀ done x rest s, xs = done ++ x :: rest → inv done s →
      ∃ s', body s x = some s' ∧ inv (done ++ [x]) s')
    (hs : inv [] s) (hn : xs.length < n) :
    ∃ s', Entries.forEach links h body n s = some s' ∧ inv xs s' := by
  have hc := hlist [] s hs
  obtain ⟨a, ha, hjoin⟩ := hc.first
  have hal := hc.allocated h (List.mem_cons_self ..)
  have hstart : xs = [] ++ xs := rfl
  obtain ⟨s', hrun, hs'⟩ := Circle.forEachFrom hlist hbody hs hstart hn ha
  refine ⟨s', ?_, hs'⟩
  simp [Entries.forEach, readFlink, hal, hjoin.1, hrun]

/-! ## Several lists in one memory -/

section Table

variable {ι : Type*} [DecidableEq ι] {head : ι → α} {live : ι → Prop} {ls : ι → List α} {i : ι}

omit [DecidableEq α] [DecidableEq ι] in
/-- The live lists of a memory, no two of which have an entry in common. -/
structure Circles (m : Entries α) (head : ι → α) (live : ι → Prop) (ls : ι → List α) : Prop where
  /-- Each of them is a circle. -/
  circle : ∀ i, live i → Circle m (head i) (ls i)
  /-- An entry is in one list. -/
  apart : ∀ i j, live i → live j → i ≠ j → ∀ a ∈ head i :: ls i, a ∉ head j :: ls j

omit [DecidableEq α] in
/-- A change to one list, and to entries of no list, leaves the others. -/
theorem Circles.replace {xs : List α} {s : List α} (hcs : Circles m head live ls)
    (hi : live i) (hc : Circle m' (head i) xs) (hw : Within s m m')
    (hs : ∀ j, live j → j ≠ i → ∀ a ∈ head j :: ls j, a ∉ s)
    (hxs : ∀ j, live j → j ≠ i → ∀ a ∈ head j :: ls j, a ∉ head i :: xs) :
    Circles m' head live (Function.update ls i xs) := by
  constructor
  · intro j hj
    by_cases hji : j = i
    · subst hji
      rwa [Function.update_self]
    · rw [Function.update_of_ne hji]
      exact (hcs.circle j hj).congr hw (hs j hj hji)
  · intro j k hj hk hjk a ha
    by_cases hji : j = i
    · subst hji
      rw [Function.update_self] at ha
      rw [Function.update_of_ne hjk.symm]
      exact fun hak => hxs k hk hjk.symm a hak ha
    · rw [Function.update_of_ne hji] at ha
      by_cases hki : k = i
      · subst hki
        rw [Function.update_self]
        exact hxs j hj hji a ha
      · rw [Function.update_of_ne hki]
        exact hcs.apart j k hj hk hjk a ha

omit [DecidableEq α] [DecidableEq ι] in
/-- A change to entries of no list leaves all lists. -/
theorem Circles.outside {s : List α} (hcs : Circles m head live ls) (hw : Within s m m')
    (hs : ∀ j, live j → ∀ a ∈ head j :: ls j, a ∉ s) : Circles m' head live ls :=
  ⟨fun i hi => (hcs.circle i hi).congr hw (hs i hi), hcs.apart⟩

omit [DecidableEq ι] in
/-- New memory is in no list. -/
theorem Circles.allocate (hcs : Circles m head live ls)
    (he : ∀ j, live j → e ∉ head j :: ls j) : Circles (m.allocate e) head live ls := by
  apply hcs.outside (within_allocate m e)
  intro j hj a ha hae
  rw [List.mem_singleton.mp hae] at ha
  exact he j hj ha

omit [DecidableEq α] [DecidableEq ι] in
/-- Fewer lists, or the same under another name. -/
theorem Circles.restrict {live' : ι → Prop} {ls' : ι → List α} (hcs : Circles m head live ls)
    (hlive : ∀ i, live' i → live i) (hls : ∀ i, live' i → ls' i = ls i) :
    Circles m head live' ls' := by
  constructor
  · intro i hi
    rw [hls i hi]
    exact hcs.circle i (hlive i hi)
  · intro i j hi hj
    rw [hls i hi, hls j hj]
    exact hcs.apart i j (hlive i hi) (hlive j hj)

omit [DecidableEq α] in
/-- A new list, which is empty and has a head of its own. -/
theorem Circles.add {live' : ι → Prop} {ls' : ι → List α} (hcs : Circles m head live ls)
    (hw : Within [head i] m m') (hc : Circle m' (head i) [])
    (hout : ∀ j, live j → head i ∉ head j :: ls j) (hlive : ∀ j, live' j → j = i ∨ live j)
    (hempty : ls' i = []) (hls : ∀ j, live' j → j ≠ i → ls' j = ls j) :
    Circles m' head live' ls' := by
  have hold : ∀ j, live' j → j ≠ i → live j := fun j hj hji => (hlive j hj).resolve_left hji
  constructor
  · intro j hj
    by_cases hji : j = i
    · rw [hji, hempty]
      exact hc
    · rw [hls j hj hji]
      apply (hcs.circle j (hold j hj hji)).congr hw
      intro a ha hmem
      rw [List.mem_singleton.mp hmem] at ha
      exact hout j (hold j hj hji) ha
  · intro j k hj hk hjk a ha hak
    by_cases hji : j = i
    · subst hji
      rw [hempty, List.mem_singleton] at ha
      rw [hls k hk hjk.symm, ha] at hak
      exact hout k (hold k hk hjk.symm) hak
    · rw [hls j hj hji] at ha
      by_cases hki : k = i
      · rw [hki, hempty, List.mem_singleton] at hak
        rw [hak] at ha
        exact hout j (hold j hj hji) ha
      · rw [hls k hk hki] at hak
        exact hcs.apart j k (hold j hj hji) (hold k hk hki) hjk a ha hak

omit [DecidableEq α] in
/-- A list loses some entries. -/
theorem Circles.shrink {xs : List α} (hcs : Circles m head live ls) (hi : live i)
    (hc : Circle m' (head i) xs) (hw : Within (head i :: ls i) m m') (hsub : ∀ a ∈ xs, a ∈ ls i) :
    Circles m' head live (Function.update ls i xs) := by
  apply hcs.replace hi hc hw
  · intro j hj hji a ha
    exact hcs.apart j i hj hi hji a ha
  · intro j hj hji a ha hmem
    apply hcs.apart j i hj hi hji a ha
    rcases List.mem_cons.mp hmem with rfl | hmem
    · exact List.mem_cons_self ..
    · exact List.mem_cons_of_mem _ (hsub a hmem)

omit [DecidableEq α] in
/-- A list gets an entry that is in no list. -/
theorem Circles.grow (hcs : Circles m head live ls) (hi : live i)
    (he : ∀ j, live j → e ∉ head j :: ls j) (hc : Circle m' (head i) (ls i ++ [e]))
    (hw : Within (e :: head i :: ls i) m m') :
    Circles m' head live (Function.update ls i (ls i ++ [e])) := by
  apply hcs.replace hi hc hw
  · intro j hj hji a ha hmem
    rcases List.mem_cons.mp hmem with rfl | hmem
    · exact he j hj ha
    · exact hcs.apart j i hj hi hji a ha hmem
  · intro j hj hji a ha hmem
    rw [← List.cons_append, List.mem_append, List.mem_singleton] at hmem
    rcases hmem with hmem | rfl
    · exact hcs.apart j i hj hi hji a ha hmem
    · exact he j hj ha

/-- `InsertTailList` on one of the lists, of an entry that is in none. -/
theorem Circles.insertTailList (hcs : Circles m head live ls) (hi : live i)
    (he : ∀ j, live j → e ∉ head j :: ls j) (hal : m.allocated e = true) :
    ∃ m', m.insertTailList (head i) e = some m' ∧
      Circles m' head live (Function.update ls i (ls i ++ [e])) ∧
      m'.allocated = m.allocated := by
  obtain ⟨m', hrun, hc, hw, hal'⟩ := (hcs.circle i hi).insertTailList (he i hi) hal
  exact ⟨m', hrun, hcs.grow hi he hc hw, hal'⟩

/-- `RemoveEntryList` on one of the lists: the entry is in none afterwards. -/
theorem Circles.removeEntryList (hcs : Circles m head live ls) (hi : live i)
    (hsplit : ls i = pre ++ x :: post) :
    ∃ m', m.removeEntryList x = some m' ∧
      Circles m' head live (Function.update ls i (pre ++ post)) ∧
      m'.allocated = m.allocated ∧
      ∀ j, live j → x ∉ head j :: Function.update ls i (pre ++ post) j := by
  have hc := hcs.circle i hi
  rw [hsplit] at hc
  obtain ⟨m', hrun, hc', hw, hal⟩ := hc.removeEntryList
  have hkept : ∀ a ∈ pre ++ post, a ∈ ls i := by
    intro a ha
    rw [hsplit]
    simp only [List.mem_append, List.mem_cons] at ha ⊢
    tauto
  have hw' : Within (head i :: ls i) m m' := by
    apply hw.mono
    intro a ha
    rcases List.mem_cons.mp ha with rfl | ha
    · exact List.mem_cons_self ..
    · exact List.mem_cons_of_mem _ (hkept a ha)
  refine ⟨m', hrun, hcs.shrink hi hc' hw' hkept, hal, ?_⟩
  intro j hj
  by_cases hji : j = i
  · subst hji
    have hnodup := hc.nodup
    rw [← List.cons_append, List.nodup_middle, List.nodup_cons] at hnodup
    rw [Function.update_self]
    exact hnodup.1
  · rw [Function.update_of_ne hji]
    apply hcs.apart i j hi hj (Ne.symm hji)
    rw [hsplit]
    simp

end Table

end Entries

end TtKmd.Lib
