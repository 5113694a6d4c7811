import TtKmd.Device.Bars
import TtKmd.Reset.PlatformReset

/-!
# What the preparation takes from the system

`EvtDevicePrepareHardware` queries two interfaces of the bus driver and maps four ranges of BAR 0
and BAR 2; `EvtDeviceReleaseHardware` gives all of it back. A preparation can fail in the middle
of the mappings and then undoes them itself, and the framework calls the release after it all the
same. The two functions keep no list of what they took: they go by the four pointers, by
`BarLength` and by the two flags for the interfaces.

Here the system has a table of its mappings. It marks a fault when a range is unmapped that is not
mapped with this address and this length. The reset interface is the one of the platform reset:
`RESET_PCIE_LINK` takes a reference for the work item, which the work item drops in its own time,
also after the device was released.
-/

namespace TtKmd

open Lib

/-! ## Mappings of the BARs -/

/-- A range of device memory in the address space of the system. -/
structure IoMapping where
  /-- The virtual address. -/
  va : ℕ
  /-- The physical address. -/
  physical : ℕ
  /-- The length. -/
  length : ℕ
  deriving DecidableEq

/-- The mappings of the system. -/
structure IoSpace where
  /-- Those that are live. -/
  live : List IoMapping
  /-- A range was unmapped that is not mapped. -/
  fault : Bool

/-- `MmMapIoSpaceEx`, when it succeeds. -/
def IoSpace.map (s : IoSpace) (x : IoMapping) : IoSpace := { s with live := x :: s.live }

/-- `MmUnmapIoSpace`. -/
def IoSpace.unmap (s : IoSpace) (va length : ℕ) : IoSpace :=
  if s.live.any fun x => x.va = va && x.length = length then
    { s with live := s.live.filter (·.va ≠ va) }
  else { s with fault := true }

namespace RegisterPointer

/-- The pointers in the order of `maps`. -/
def all : List RegisterPointer := [.tlbRegs, .kernelTlb, .noc2AxiCfg, .bar2Mapping]

/-- The BAR of `maps`. -/
def bar : RegisterPointer → ℕ
  | .bar2Mapping => 2
  | _ => 0

/-- The offset of `maps`. -/
def offset : RegisterPointer → ℕ
  | .tlbRegs => 0x1FC00000
  | .kernelTlb => 0x19200000
  | .noc2AxiCfg => 0x1FD00000
  | .bar2Mapping => 0

/-- The length of `maps`; that of BAR 2 is the length of the BAR. -/
def length (c : MemoryConfig) : RegisterPointer → ℕ
  | .tlbRegs => 0x1000
  | .kernelTlb => 0x200000
  | .noc2AxiCfg => 0x100000
  | .bar2Mapping => c.barLength 2

/-- The range that a pointer shows. -/
def mapping (c : MemoryConfig) (p : RegisterPointer) (va : ℕ) : IoMapping :=
  ⟨va, u64 (c.barBase p.bar + p.offset), p.length c⟩

/-- Every pointer is in the list. -/
theorem mem_all (p : RegisterPointer) : p ∈ all := by
  cases p <;> decide

end RegisterPointer

/-- The four pointers and the mappings of the system. -/
structure BarMappings where
  /-- The pointers; `none` is `NULL`. -/
  slot : RegisterPointer → Option ℕ
  /-- The mappings. -/
  system : IoSpace

/-- The loop of `TtMapBlackholeBars`, from a pointer on: whether every range was mapped, and what
it leaves. -/
def mapBars (c : MemoryConfig) (mapIoSpace : RegisterPointer → Option ℕ) :
    List RegisterPointer → BarMappings → Bool × BarMappings
  | [], m => (true, m)
  | p :: rest, m =>
      match mapIoSpace p with
      | none => (false, { m with slot := Function.update m.slot p none })
      | some va =>
          mapBars c mapIoSpace rest
            ⟨Function.update m.slot p (some va), m.system.map (p.mapping c va)⟩

/-- The test of the lengths in `TtMapBlackholeBars`. -/
def BarsExpected (barLength : ℕ → ℕ) : Prop := 0x1FE00000 ≤ barLength 0 ∧ barLength 2 ≠ 0

instance (barLength : ℕ → ℕ) : Decidable (BarsExpected barLength) :=
  inferInstanceAs (Decidable (_ ∧ _))

/-- `TtMapBlackholeBars`. -/
def ttMapBlackholeBars (c : MemoryConfig) (mapIoSpace : RegisterPointer → Option ℕ)
    (m : BarMappings) : Bool × BarMappings :=
  if BarsExpected c.barLength then mapBars c mapIoSpace RegisterPointer.all m else (false, m)

/-- One round of `TtUnmapBlackholeBars`. -/
def unmapBar (c : MemoryConfig) (m : BarMappings) (p : RegisterPointer) : BarMappings :=
  (m.slot p).elim m fun va =>
    ⟨Function.update m.slot p none, m.system.unmap va (p.length c)⟩

/-- `TtUnmapBlackholeBars`. -/
def ttUnmapBlackholeBars (c : MemoryConfig) (m : BarMappings) : BarMappings :=
  RegisterPointer.all.foldl (unmapBar c) m

section Mappings

variable {c : MemoryConfig} {m : BarMappings} {p q : RegisterPointer} {va : ℕ}
  {ps : List RegisterPointer} {mapIoSpace : RegisterPointer → Option ℕ}

/-- The live mappings are those of the pointers, and nothing was unmapped that was not mapped. -/
structure Mapped (c : MemoryConfig) (m : BarMappings) : Prop where
  /-- A mapping is live exactly when a pointer shows it. -/
  live : ∀ x, x ∈ m.system.live ↔ ∃ p va, m.slot p = some va ∧ x = p.mapping c va
  /-- No address is mapped twice. -/
  nodup : (m.system.live.map IoMapping.va).Nodup
  /-- No two pointers are the same. -/
  distinct : ∀ p q va, m.slot p = some va → m.slot q = some va → p = q
  /-- There was no fault. -/
  fault : m.system.fault = false

/-- Without pointers there are no mappings. -/
theorem Mapped.live_eq_nil (h : Mapped c m) (hnone : ∀ p, m.slot p = none) :
    m.system.live = [] := by
  apply List.eq_nil_iff_forall_not_mem.mpr
  intro x hx
  obtain ⟨p, va, hp, -⟩ := (h.live x).mp hx
  rw [hnone p] at hp
  cases hp

/-- Without mappings it does not matter where the BARs are. -/
theorem Mapped.of_none {c' : MemoryConfig} (h : Mapped c m) (hnone : ∀ p, m.slot p = none) :
    Mapped c' m := by
  refine ⟨?_, h.nodup, h.distinct, h.fault⟩
  intro x
  rw [h.live_eq_nil hnone]
  simp [hnone]

/-- The mappings depend on the BARs only. -/
theorem Mapped.congr {c' : MemoryConfig} (h : Mapped c m) (hbase : c'.barBase = c.barBase)
    (hlength : c'.barLength = c.barLength) : Mapped c' m := by
  have hmapping : ∀ (p : RegisterPointer) va, p.mapping c' va = p.mapping c va := by
    intro p va
    unfold RegisterPointer.mapping
    rw [hbase]
    cases p <;> simp only [RegisterPointer.length, hlength]
  refine ⟨?_, h.nodup, h.distinct, h.fault⟩
  simp only [hmapping]
  exact h.live

/-- A pointer is set to an address that was not mapped. -/
theorem Mapped.map (h : Mapped c m) (hp : m.slot p = none)
    (hfresh : ∀ x ∈ m.system.live, x.va ≠ va) :
    Mapped c ⟨Function.update m.slot p (some va), m.system.map (p.mapping c va)⟩ := by
  have hother : ∀ q, m.slot q ≠ some va := by
    intro q hq
    exact hfresh (q.mapping c va) ((h.live _).mpr ⟨q, va, hq, rfl⟩) rfl
  refine ⟨?_, ?_, ?_, h.fault⟩
  · intro x
    simp only [IoSpace.map, List.mem_cons, h.live]
    constructor
    · rintro (rfl | ⟨q, vb, hq, rfl⟩)
      · exact ⟨p, va, Function.update_self .., rfl⟩
      · have hne : q ≠ p := by
          rintro rfl
          rw [hp] at hq
          cases hq
        exact ⟨q, vb, by rw [Function.update_of_ne hne, hq], rfl⟩
    · rintro ⟨q, vb, hq, rfl⟩
      by_cases hqp : q = p
      · subst hqp
        rw [Function.update_self] at hq
        obtain rfl := Option.some.inj hq
        exact .inl rfl
      · rw [Function.update_of_ne hqp] at hq
        exact .inr ⟨q, vb, hq, rfl⟩
  · simp only [IoSpace.map, List.map_cons, List.nodup_cons]
    refine ⟨?_, h.nodup⟩
    intro hmem
    obtain ⟨x, hx, hva⟩ := List.mem_map.mp hmem
    exact hfresh x hx hva
  · intro q r vb hq hr
    simp only [Function.update_apply] at hq hr
    split at hq <;> split at hr
    · rename_i hqp hrp
      rw [hqp, hrp]
    · exact absurd (hr.trans hq.symm) (hother r)
    · exact absurd (hq.trans hr.symm) (hother q)
    · exact h.distinct q r vb hq hr

/-- A pointer is cleared, and its range unmapped. -/
theorem Mapped.unmapBar (h : Mapped c m) (p : RegisterPointer) :
    Mapped c (unmapBar c m p) ∧ (TtKmd.unmapBar c m p).slot p = none ∧
      ∀ q, m.slot q = none → (TtKmd.unmapBar c m p).slot q = none := by
  unfold TtKmd.unmapBar
  cases hp : m.slot p with
  | none => exact ⟨h, hp, fun q hq => hq⟩
  | some va =>
    have hmapped : p.mapping c va ∈ m.system.live := (h.live _).mpr ⟨p, va, hp, rfl⟩
    have hany : m.system.live.any (fun x => x.va = va && x.length = p.length c) = true := by
      apply List.any_eq_true.mpr
      exact ⟨p.mapping c va, hmapped, by simp [RegisterPointer.mapping]⟩
    simp only [Option.elim_some, IoSpace.unmap, hany, if_true]
    refine ⟨⟨?_, ?_, ?_, h.fault⟩, Function.update_self .., ?_⟩
    · intro x
      simp only [List.mem_filter, h.live, ne_eq, decide_not, Bool.not_eq_true',
        decide_eq_false_iff_not]
      constructor
      · rintro ⟨⟨q, vb, hq, rfl⟩, hne⟩
        have hqp : q ≠ p := by
          rintro rfl
          exact hne (Option.some.inj (hq.symm.trans hp))
        exact ⟨q, vb, by rw [Function.update_of_ne hqp, hq], rfl⟩
      · rintro ⟨q, vb, hq, rfl⟩
        have hqp : q ≠ p := by
          rintro rfl
          rw [Function.update_self] at hq
          cases hq
        rw [Function.update_of_ne hqp] at hq
        refine ⟨⟨q, vb, hq, rfl⟩, ?_⟩
        intro hva
        have hva : vb = va := hva
        exact hqp (h.distinct q p va (hva ▸ hq) hp)
    · exact h.nodup.sublist (List.filter_sublist.map _)
    · intro q r vb hq hr
      simp only [Function.update_apply] at hq hr
      split at hq
      · cases hq
      split at hr
      · cases hr
      exact h.distinct q r vb hq hr
    · intro q hq
      by_cases hqp : q = p
      · rw [hqp, Function.update_self]
      · rw [Function.update_of_ne hqp, hq]

/-- Several pointers are cleared. -/
theorem Mapped.foldl_unmapBar (h : Mapped c m) (ps : List RegisterPointer) :
    Mapped c (ps.foldl (TtKmd.unmapBar c) m) ∧
      (∀ p ∈ ps, (ps.foldl (TtKmd.unmapBar c) m).slot p = none) ∧
      ∀ q, m.slot q = none → (ps.foldl (TtKmd.unmapBar c) m).slot q = none := by
  induction ps generalizing m with
  | nil => exact ⟨h, by simp, fun q hq => hq⟩
  | cons p ps ih =>
    obtain ⟨hmapped, hp, hothers⟩ := h.unmapBar p
    obtain ⟨hmapped', hps, hothers'⟩ := ih hmapped
    refine ⟨hmapped', ?_, fun q hq => hothers' q (hothers q hq)⟩
    intro q hq
    rcases List.mem_cons.mp hq with rfl | hq
    · exact hothers' _ hp
    · exact hps q hq

/-- `TtUnmapBlackholeBars` leaves no pointer and no mapping. -/
theorem Mapped.ttUnmapBlackholeBars (h : Mapped c m) :
    Mapped c (ttUnmapBlackholeBars c m) ∧ ∀ p, (TtKmd.ttUnmapBlackholeBars c m).slot p = none := by
  obtain ⟨hmapped, hnone, -⟩ := h.foldl_unmapBar RegisterPointer.all
  exact ⟨hmapped, fun p => hnone p p.mem_all⟩

/-- The answers of `MmMapIoSpaceEx` are addresses that are not mapped. -/
def FreshAnswers (mapIoSpace : RegisterPointer → Option ℕ) (live : List IoMapping) : Prop :=
  (∀ p va, mapIoSpace p = some va → ∀ x ∈ live, x.va ≠ va) ∧
    ∀ p q va, mapIoSpace p = some va → mapIoSpace q = some va → p = q

/-- The loop of `TtMapBlackholeBars` over pointers that are `NULL`. -/
theorem Mapped.mapBars (h : Mapped c m) (hps : ps.Nodup) (hnone : ∀ p ∈ ps, m.slot p = none)
    (hfresh : ∀ p ∈ ps, ∀ va, mapIoSpace p = some va → ∀ x ∈ m.system.live, x.va ≠ va)
    (hdistinct : ∀ p q va, mapIoSpace p = some va → mapIoSpace q = some va → p = q) :
    let r := mapBars c mapIoSpace ps m
    r.1 = ps.all (fun p => (mapIoSpace p).isSome) ∧ Mapped c r.2 ∧
      (r.1 = true → ∀ p, (r.2.slot p).isSome = true ↔ (m.slot p).isSome = true ∨ p ∈ ps) := by
  induction ps generalizing m with
  | nil => exact ⟨rfl, h, by simp [TtKmd.mapBars]⟩
  | cons p ps ih =>
    have hp := hnone p (List.mem_cons_self ..)
    have hpps : p ∉ ps := (List.nodup_cons.mp hps).1
    dsimp only
    unfold TtKmd.mapBars
    cases hanswer : mapIoSpace p with
    | none =>
      have hsame : Function.update m.slot p none = m.slot := by
        rw [← hp, Function.update_eq_self]
      simp only [hsame, List.all_cons, hanswer, Option.isSome_none, Bool.false_and]
      exact ⟨trivial, h, by simp⟩
    | some va =>
      have hmapped := h.map hp (hfresh p (List.mem_cons_self ..) va hanswer)
      obtain ⟨hok, hmapped', hset⟩ := @ih
        ⟨Function.update m.slot p (some va), m.system.map (p.mapping c va)⟩ hmapped
        (List.nodup_cons.mp hps).2 (by
          intro q hq
          have hne : q ≠ p := by
            rintro rfl
            exact hpps hq
          exact (Function.update_of_ne hne _ _).trans (hnone q (List.mem_cons_of_mem _ hq))) (by
          intro q hq vb hanswer' x hx
          rcases List.mem_cons.mp hx with rfl | hx
          · intro hva
            have hva : va = vb := hva
            obtain rfl := hdistinct p q va hanswer (hva ▸ hanswer')
            exact hpps hq
          · exact hfresh q (List.mem_cons_of_mem _ hq) vb hanswer' x hx)
      refine ⟨?_, hmapped', ?_⟩
      · rw [hok, List.all_cons, hanswer]
        rfl
      · intro hall q
        rw [hset hall q]
        by_cases hqp : q = p
        · subst hqp
          simp [Function.update_self]
        · simp [hqp]

/-- `TtMapBlackholeBars` with no pointer set. -/
theorem Mapped.ttMapBlackholeBars (h : Mapped c m) (hnone : ∀ p, m.slot p = none)
    (hfresh : FreshAnswers mapIoSpace m.system.live) :
    let r := ttMapBlackholeBars c mapIoSpace m
    (r.1 = true ↔ BarsExpected c.barLength ∧ ∀ p, (mapIoSpace p).isSome = true) ∧
      Mapped c r.2 ∧ (r.1 = true → ∀ p, (r.2.slot p).isSome = true) := by
  dsimp only
  unfold TtKmd.ttMapBlackholeBars
  split
  · rename_i hbars
    obtain ⟨hok, hmapped, hset⟩ := h.mapBars (by decide : RegisterPointer.all.Nodup)
      (fun p _ => hnone p) (fun p _ => hfresh.1 p) hfresh.2
    refine ⟨?_, hmapped, fun hr p => (hset hr p).mpr (.inr p.mem_all)⟩
    rw [hok, List.all_eq_true]
    exact ⟨fun hall => ⟨hbars, fun p => hall p p.mem_all⟩, fun hall p _ => hall.2 p⟩
  · rename_i hbars
    exact ⟨by simp [hbars], h, by simp⟩

end Mappings

/-! ## The reset interface -/

/-- The starts and the statements of the work item. -/
def PldrEvent.ofWorkItem : PldrEvent → Bool
  | .run => true
  | .workItem .. => true
  | _ => false

/-- Statements of the callbacks or of a request, one after the other, with any number of steps of
the work item before, between and behind them. -/
inductive PldrWorld.Performs : PldrWorld → List PldrEvent → PldrWorld → Prop
  /-- There is no statement left. -/
  | done (w : PldrWorld) : Performs w [] w
  /-- The work item takes a step. -/
  | workItem {w u v : PldrWorld} {e : PldrEvent} {es : List PldrEvent}
      (he : e.ofWorkItem = true) (hstep : pldrStep w e u) (hrest : Performs u es v) :
      Performs w es v
  /-- The next statement; the bus driver hands out interfaces with their reference routines. -/
  | statement {w u v : PldrWorld} {e : PldrEvent} {es : List PldrEvent}
      (hcounted : e.counted = true) (hstep : pldrStep w e u) (hrest : Performs u es v) :
      Performs w (e :: es) v

/-- The interface of the device and the callbacks are where they were. -/
structure PldrWorld.SameCallbacks (w w' : PldrWorld) : Prop where
  /-- The hardware callbacks. -/
  hardware : w'.hardware = w.hardware
  /-- The request inside `TtPldrInitiate`. -/
  request : w'.request = w.request
  /-- `ResetInterfaceValid`. -/
  valid : w'.resetInterfaceValid = w.resetInterfaceValid

section ResetInterface

variable {w w' : PldrWorld} {e : PldrEvent} {es : List PldrEvent}

/-- Nothing has moved. -/
theorem PldrWorld.SameCallbacks.refl (w : PldrWorld) : w.SameCallbacks w := ⟨rfl, rfl, rfl⟩

/-- Neither of two stretches has moved them. -/
theorem PldrWorld.SameCallbacks.trans {u : PldrWorld} (h : w.SameCallbacks u)
    (h' : u.SameCallbacks w') : w.SameCallbacks w' where
  hardware := h'.hardware.trans h.hardware
  request := h'.request.trans h.request
  valid := h'.valid.trans h.valid

/-- What every step keeps is kept. -/
theorem PldrWorld.Performs.invariant {inv : PldrWorld → Prop} (h : w.Performs es w')
    (hstep : ∀ w e w', inv w → e.counted = true → pldrStep w e w' → inv w') (hw : inv w) :
    inv w' := by
  induction h with
  | done => exact hw
  | @workItem w u v e es he hwork _ ih =>
    have hcounted : e.counted = true := by cases e <;> first | rfl | cases he
    exact ih (hstep _ _ _ hw hcounted hwork)
  | statement hcounted hown _ ih => exact ih (hstep _ _ _ hw hcounted hown)

/-- Statements that are computed, without a step of the work item. -/
theorem PldrWorld.Performs.of_runList
    (h : runList (guarded (fun _ e => e.counted) PldrWorld.next) w es = some w') :
    w.Performs es w' := by
  induction es generalizing w with
  | nil =>
    cases h
    exact .done _
  | cons e es ih =>
    simp only [runList, Option.bind_eq_some_iff, guarded] at h
    obtain ⟨u, hu, hrest⟩ := h
    split at hu
    · rename_i hcounted
      exact .statement hcounted hu (ih hrest)
    · cases hu

/-- The work item leaves the interface of the device and the callbacks alone. -/
theorem pldrStep_workItem (he : e.ofWorkItem = true) (hstep : pldrStep w e w') :
    w.SameCallbacks w' := by
  unfold pldrStep partialGraph at hstep
  cases e with
  | run =>
    obtain ⟨-, rfl⟩ := guard_of_eq_some hstep
    exact ⟨rfl, rfl, rfl⟩
  | workItem k success =>
    obtain ⟨r, -, rfl⟩ := Option.map_eq_some_iff.mp hstep
    cases r with
    | returned n s ok =>
      simp only [ttPldrWorkItem]
      split <;> exact ⟨rfl, rfl, rfl⟩
    | _ => exact ⟨rfl, rfl, rfl⟩
  | _ => cases he

/-- Without a statement only the work item has taken steps. -/
theorem PldrWorld.Performs.of_nil (h : w.Performs [] w') : w.SameCallbacks w' := by
  generalize hes : ([] : List PldrEvent) = es at h
  induction h with
  | done => exact .refl _
  | workItem he hstep _ ih => exact (pldrStep_workItem he hstep).trans (ih hes)
  | statement => cases hes

/-- The next statement comes behind steps of the work item. -/
theorem PldrWorld.Performs.of_cons (h : w.Performs (e :: es) w') :
    ∃ u v, w.SameCallbacks u ∧ pldrStep u e v ∧ v.Performs es w' := by
  generalize hes : e :: es = es' at h
  induction h with
  | done => cases hes
  | workItem he hstep _ ih =>
    obtain ⟨u, v, hsame, hnext, hrest⟩ := ih hes
    exact ⟨u, v, (pldrStep_workItem he hstep).trans hsame, hnext, hrest⟩
  | statement _ hstep hrest =>
    obtain ⟨rfl, rfl⟩ := List.cons.inj hes
    exact ⟨_, _, .refl _, hstep, hrest⟩

/-- The statements of `TtPldrInitiate` leave the callbacks alone. -/
theorem PldrWorld.Performs.initiates {n : ℕ}
    (h : w.Performs (List.replicate n .initiate) w') : w'.hardware = w.hardware := by
  induction n generalizing w with
  | zero => exact h.of_nil.hardware
  | succ n ih =>
    obtain ⟨u, v, hsame, hstep, hrest⟩ := h.of_cons
    obtain ⟨g, -, rfl⟩ := Option.map_eq_some_iff.mp hstep
    rw [ih hrest, ← hsame.hardware]
    cases g with
    | copied =>
      simp only [ttPldrInitiate]
      split <;> rfl
    | _ => rfl

/-- The reset interface in `ReleaseHardware`. -/
def PldrWorld.releaseStatements (w : PldrWorld) : List PldrEvent :=
  if w.resetInterfaceValid then [.releaseDrop, .releaseClear] else [.releaseDrop]

/-- `ReleaseHardware` ends without an interface. -/
theorem PldrWorld.Performs.released (h : w.Performs w.releaseStatements w') :
    w'.hardware = .released ∧ w'.request = none := by
  unfold PldrWorld.releaseStatements at h
  split at h
  · obtain ⟨u, v, -, hdrop, hrest⟩ := h.of_cons
    obtain ⟨⟨-, hrequest⟩, rfl⟩ := guard_of_eq_some hdrop
    obtain ⟨u', v', hsame, hclear, hrest'⟩ := hrest.of_cons
    obtain ⟨-, rfl⟩ := guard_of_eq_some hclear
    refine ⟨hrest'.of_nil.hardware, hrest'.of_nil.request.trans (hsame.request.trans ?_)⟩
    simp only [releaseResetInterface]
    split_ifs <;> exact hrequest
  · rename_i hinvalid
    obtain ⟨u, v, hsame, hdrop, hrest⟩ := h.of_cons
    obtain ⟨⟨-, hrequest⟩, rfl⟩ := guard_of_eq_some hdrop
    rw [hrest.of_nil.hardware, hrest.of_nil.request, releaseResetInterface,
      if_neg (by rw [hsame.valid]; exact hinvalid)]
    exact ⟨rfl, hrequest⟩

/-- What is held is held by the platform resets that are queued or running. -/
theorem PldrWorld.held_le_inFlight (hrequest : w.request = none)
    (p : ℕ → DeviceResetInterface → Bool) : w.held p ≤ w.inFlight := by
  have hruns : w.runs.countP (PldrRun.holds p w.number w.pldrSnapshot) ≤
      w.runs.countP PldrRun.active :=
    List.countP_mono_left fun r _ hholds => PldrRun.active_of_holds hholds
  have hrequest' : ¬(w.request = some .referenced ∧ p w.number w.pldrSnapshot = true) := by
    simp [hrequest]
  unfold PldrWorld.held PldrWorld.inFlight
  rw [if_neg hrequest']
  split <;> omega

end ResetInterface

/-! ## Preparations and releases -/

/-- What a preparation is given and answered. -/
structure StartAnswers where
  /-- The query of the bus interface succeeds; an interface that is handed out has its reference
  routines. -/
  busInterface : Bool
  /-- The configuration header, when it is read. -/
  header : Option PciHeader
  /-- The BAR registers, when they are read. -/
  registers : Option (List ℕ)
  /-- The reset interface, when the query succeeds. -/
  resetInterface : Option DeviceResetInterface
  /-- `ResourcesRaw` and `ResourcesTranslated`. -/
  resources : List ResourcePair
  /-- `MmMapIoSpaceEx` for the range of each pointer. -/
  mapIoSpace : RegisterPointer → Option ℕ
  /-- `WdfDmaEnablerCreate` succeeds. -/
  createsDmaEnabler : Bool
  /-- The probe of the DMA domain. -/
  dmaIdentity : Option Bool
  /-- `TtBhInitHardware`. -/
  bhInitHardware : Bool

/-- The BARs that a preparation finds. -/
def StartAnswers.bars (a : StartAnswers) : BarInventory :=
  matchResources (if a.busInterface then ttReadConfigBars a.registers else List.replicate maxBars 0)
    a.resources

/-- What a preparation finds. -/
def StartAnswers.found (a : StartAnswers) : HardwareFound where
  header := if a.busInterface then a.header else none
  barBase := a.bars.base
  barLength := a.bars.length
  mapsBars := decide (BarsExpected a.bars.length) &&
    RegisterPointer.all.all fun p => (a.mapIoSpace p).isSome
  createsDmaEnabler := a.createsDmaEnabler
  dmaIdentity := a.dmaIdentity
  bhInitHardware := a.bhInitHardware

/-- The reset interface in a preparation. -/
def StartAnswers.resetStatements (a : StartAnswers) : List PldrEvent :=
  if a.busInterface then [.prepareZero, .prepareQuery a.resetInterface] else [.prepareBare]

/-- A preparation is past the query. -/
theorem StartAnswers.performed {a : StartAnswers} {w w' : PldrWorld}
    (h : w.Performs a.resetStatements w') :
    w'.hardware = .prepared ∧ w'.request = w.request := by
  unfold StartAnswers.resetStatements at h
  split at h
  · obtain ⟨u, v, hsame, hzero, hrest⟩ := h.of_cons
    obtain ⟨-, rfl⟩ := guard_of_eq_some hzero
    obtain ⟨u', v', hsame', hquery, hrest'⟩ := hrest.of_cons
    obtain ⟨-, rfl⟩ := guard_of_eq_some hquery
    rw [hrest'.of_nil.hardware, hrest'.of_nil.request]
    cases a.resetInterface <;> exact ⟨rfl, hsame'.request.trans hsame.request⟩
  · obtain ⟨u, v, hsame, hbare, hrest⟩ := h.of_cons
    obtain ⟨-, rfl⟩ := guard_of_eq_some hbare
    exact ⟨hrest.of_nil.hardware, hrest.of_nil.request.trans hsame.request⟩

/-- What `TtPldrInitiate` answers to an event of the device, when the event calls it. -/
def DeviceContext.pldrCall (d : DeviceContext) : Event → Option Bool
  | .request F _ (.resetDevice io i env) =>
      if ttCheckIoGates d F 6 = .success ∧ ttCopyInBuffer io 8 = .success ∧ i.flags = 1 then
        some env.pldrInitiate
      else none
  | _ => none

/-- A device, and what it has taken from the system. -/
structure HardwareWorld where
  /-- The device and its phase. -/
  pnp : PnpWorld
  /-- The pointers and the mappings. -/
  bars : BarMappings
  /-- `BusInterfaceValid`. -/
  busInterfaceValid : Bool
  /-- The references to the bus interface that were not given back. -/
  busReferences : ℕ
  /-- The reset interface and the platform resets, with the references of each object. -/
  pldr : PldrWorld

namespace HardwareWorld

/-- `TtEvtDeviceAdd`. -/
def added (dmaBufLimitBytes : ℕ) (regs : Fin 16 → AtuRegs) (pldrWorkItem : Bool) :
    HardwareWorld where
  pnp := ⟨.added dmaBufLimitBytes regs, .stopped⟩
  bars := ⟨fun _ => none, ⟨[], false⟩⟩
  busInterfaceValid := false
  busReferences := 0
  pldr := .init pldrWorkItem

/-- The BARs after `TtEvtDevicePrepareHardware`: a mapping that fails is undone. -/
def prepareBars (c : MemoryConfig) (a : StartAnswers) (m : BarMappings) : BarMappings :=
  if !c.isBlackhole then m
  else
    let mapped := ttMapBlackholeBars c a.mapIoSpace m
    if mapped.1 then mapped.2 else ttUnmapBlackholeBars c mapped.2

/-- `TtEvtDevicePrepareHardware`; `pldr` is what its statements leave of the reset interface. -/
def prepareHardware (w : HardwareWorld) (a : StartAnswers) (pldr : PldrWorld) : HardwareWorld :=
  let prepared := w.pnp.device.ttEvtDevicePrepareHardware a.found
  { pnp := ⟨prepared.2, if prepared.1 then .started else .failed⟩
    bars := prepareBars (w.pnp.device.discover a.found).config a w.bars
    busInterfaceValid := a.busInterface || w.busInterfaceValid
    busReferences := w.busReferences + if a.busInterface then 1 else 0
    pldr }

/-- `TtEvtDeviceReleaseHardware`; `pldr` is what its statements leave of the reset interface. -/
def releaseHardware (w : HardwareWorld) (pldr : PldrWorld) : HardwareWorld where
  pnp := ⟨w.pnp.device.ttEvtDeviceReleaseHardware, .stopped⟩
  bars := ttUnmapBlackholeBars w.pnp.device.config w.bars
  busInterfaceValid := false
  busReferences := w.busReferences - if w.busInterfaceValid then 1 else 0
  pldr := pldr

end HardwareWorld

/-- The callbacks of the framework, and everything else. -/
inductive HardwareEvent
  /-- `EvtDevicePrepareHardware`. -/
  | prepareHardware (a : StartAnswers)
  /-- `EvtDeviceReleaseHardware`. -/
  | releaseHardware
  /-- An event of the device. -/
  | device (e : Event)
  /-- The work item of the platform reset goes on. -/
  | workItem

/-- The event as the device sees it. -/
def HardwareEvent.pnp : HardwareEvent → Option PnpEvent
  | .prepareHardware a => some (.prepareHardware a.found)
  | .releaseHardware => some .releaseHardware
  | .device e => some (.device e)
  | .workItem => none

/-- One step. The framework prepares a device that is stopped and releases it afterwards, also when
the preparation has failed. The work item takes its steps at any time. -/
inductive HardwareWorld.Step : HardwareWorld → HardwareEvent → HardwareWorld → Prop
  /-- `EvtDevicePrepareHardware`. -/
  | prepareHardware {w : HardwareWorld} {a : StartAnswers} {pldr : PldrWorld}
      (hphase : w.pnp.phase = .stopped) (hfresh : FreshAnswers a.mapIoSpace w.bars.system.live)
      (hpldr : w.pldr.Performs a.resetStatements pldr) :
      Step w (.prepareHardware a) (w.prepareHardware a pldr)
  /-- `EvtDeviceReleaseHardware`. -/
  | releaseHardware {w : HardwareWorld} {pldr : PldrWorld} (hphase : w.pnp.phase ≠ .stopped)
      (hpldr : w.pldr.Performs w.pldr.releaseStatements pldr) :
      Step w .releaseHardware (w.releaseHardware pldr)
  /-- An event of the device that does not reset the link. -/
  | device {w : HardwareWorld} {e : Event} {pnp : PnpWorld} {pldr : PldrWorld}
      (hnext : w.pnp.next (.device e) = some pnp) (hcall : w.pnp.device.pldrCall e = none)
      (hpldr : w.pldr.Performs [] pldr) : Step w (.device e) { w with pnp, pldr }
  /-- `RESET_PCIE_LINK`, with all the statements of `TtPldrInitiate`. -/
  | resetPcieLink {w : HardwareWorld} {e : Event} {pnp : PnpWorld} {pldr : PldrWorld} {n : ℕ}
      (hnext : w.pnp.next (.device e) = some pnp)
      (hcall : w.pnp.device.pldrCall e = some w.pldr.supported)
      (hpldr : w.pldr.Performs (.request :: List.replicate n .initiate) pldr)
      (hdone : pldr.request = none) : Step w (.device e) { w with pnp, pldr }
  /-- The work item goes on. -/
  | workItem {w : HardwareWorld} {pldr : PldrWorld} (hpldr : w.pldr.Performs [] pldr) :
      Step w .workItem { w with pldr }

section Steps

variable {w w' : HardwareWorld} {e : HardwareEvent}

/-- What the device has taken is what it needs and what it will give back. -/
structure HardwareWorld.Balanced (w : HardwareWorld) : Prop where
  /-- The live mappings are those of the pointers. -/
  mapped : Mapped w.pnp.device.config w.bars
  /-- The pointers are set while a Blackhole is started, all four of them. -/
  set : ∀ p, (w.bars.slot p).isSome = true ↔
    w.pnp.phase = .started ∧ w.pnp.device.config.isBlackhole = true
  /-- Their ranges are inside of their BARs. -/
  inside : ∀ p, (w.bars.slot p).isSome = true →
    p.offset + p.length w.pnp.device.config ≤ w.pnp.device.config.barLength p.bar
  /-- The references to the bus interface. -/
  busInterface : w.busReferences = if w.busInterfaceValid then 1 else 0
  /-- The references to the reset interface. -/
  resetInterface : PldrInv w.pldr
  /-- The hardware callbacks of the reset interface are where the framework is. -/
  stage : w.pldr.hardware = if w.pnp.phase = .stopped then .released else .prepared
  /-- No request is inside `TtPldrInitiate`. -/
  idle : w.pldr.request = none
  /-- A device that is stopped has no bus interface. -/
  stopped : w.pnp.phase = .stopped → w.busInterfaceValid = false

/-- Only a Blackhole that is started has pointers. -/
theorem HardwareWorld.Balanced.slot_eq_none (h : w.Balanced) (hphase : w.pnp.phase ≠ .started)
    (p : RegisterPointer) : w.bars.slot p = none := by
  have hset := h.set p
  simp only [hphase, false_and, iff_false, Bool.not_eq_true, Option.isSome_eq_false_iff,
    Option.isNone_iff_eq_none] at hset
  exact hset

/-- The ranges of the pointers are inside of BARs with the lengths that are expected. -/
theorem RegisterPointer.inside {c : MemoryConfig} (h : BarsExpected c.barLength)
    (p : RegisterPointer) : p.offset + p.length c ≤ c.barLength p.bar := by
  obtain ⟨h0, -⟩ := h
  cases p with
  | noc2AxiCfg =>
    have hend : 0x1FD00000 + 0x100000 = 0x1FE00000 := by decide
    simp only [offset, length, bar, hend]
    exact h0
  | _ => simp only [offset, length, bar]; omega

/-- The lengths that a preparation finds. -/
theorem barsExpected_discover (d : DeviceContext) (a : StartAnswers) :
    BarsExpected (d.discover a.found).config.barLength ↔ BarsExpected a.bars.length := by
  simp [BarsExpected, DeviceContext.discover, StartAnswers.found, maxBars]

/-- The mapping of the BARs is answered as the device is told. -/
theorem StartAnswers.found_mapsBars {a : StartAnswers} : a.found.mapsBars = true ↔
    BarsExpected a.bars.length ∧ ∀ p, (a.mapIoSpace p).isSome = true := by
  simp only [found, Bool.and_eq_true, decide_eq_true_eq, List.all_eq_true]
  exact and_congr_right fun _ => ⟨fun h p => h p p.mem_all, fun h p _ => h p⟩

/-- A preparation of a stopped device takes one reference on a bus interface that it gets. -/
theorem HardwareWorld.Balanced.busReferences (h : w.Balanced) (hphase : w.pnp.phase = .stopped)
    (a : StartAnswers) (pldr : PldrWorld) :
    (w.prepareHardware a pldr).busReferences =
      if (w.prepareHardware a pldr).busInterfaceValid then 1 else 0 := by
  have hbus := h.stopped hphase
  have hbusref : w.busReferences = 0 := by rw [h.busInterface, hbus]; rfl
  simp only [HardwareWorld.prepareHardware, hbus, hbusref, Bool.or_false, Nat.zero_add]

/-- Statements keep the references to the reset interface. -/
theorem HardwareWorld.Balanced.performs (h : w.Balanced) {pldr : PldrWorld} {es : List PldrEvent}
    (hpldr : w.pldr.Performs es pldr) : PldrInv pldr :=
  hpldr.invariant (fun _ _ _ hinv hcounted hstep => hinv.step hcounted hstep) h.resetInterface

/-- A preparation does not stop the device. -/
theorem HardwareWorld.prepareHardware_phase (w : HardwareWorld) (a : StartAnswers)
    (pldr : PldrWorld) : (w.prepareHardware a pldr).pnp.phase ≠ .stopped := by
  unfold HardwareWorld.prepareHardware
  dsimp only
  split <;> decide

/-- A preparation takes what it needs. -/
theorem HardwareWorld.Balanced.prepareHardware (h : w.Balanced) (hphase : w.pnp.phase = .stopped)
    {a : StartAnswers} (hfresh : FreshAnswers a.mapIoSpace w.bars.system.live) {pldr : PldrWorld}
    (hpldr : w.pldr.Performs a.resetStatements pldr) : (w.prepareHardware a pldr).Balanced := by
  have hnone := h.slot_eq_none (by rw [hphase]; decide)
  have hbus := h.busReferences hphase a pldr
  have hstarted := w.prepareHardware_phase a pldr
  obtain ⟨hprepared, hrequest⟩ := StartAnswers.performed hpldr
  have hstage : pldr.hardware =
      if (w.prepareHardware a pldr).pnp.phase = .stopped then .released else .prepared := by
    rw [if_neg hstarted, hprepared]
  have hidle : pldr.request = none := hrequest.trans h.idle
  have hmapped : Mapped (w.pnp.device.discover a.found).config w.bars := h.mapped.of_none hnone
  obtain ⟨hok, hafter, hset⟩ := hmapped.ttMapBlackholeBars hnone hfresh
  rw [barsExpected_discover, ← StartAnswers.found_mapsBars] at hok
  cases hblackhole : (w.pnp.device.discover a.found).config.isBlackhole with
  | false =>
    have hbars : (w.prepareHardware a pldr).bars = w.bars := by
      simp [HardwareWorld.prepareHardware, prepareBars, hblackhole]
    have hpnp : (w.prepareHardware a pldr).pnp = ⟨w.pnp.device.discover a.found, .started⟩ := by
      simp [HardwareWorld.prepareHardware, DeviceContext.ttEvtDevicePrepareHardware, hblackhole]
    refine ⟨?_, ?_, ?_, hbus, h.performs hpldr, hstage, hidle,
        fun hstopped => absurd hstopped hstarted⟩
    · rw [hbars, hpnp]
      exact hmapped
    · intro p
      rw [hbars, hpnp, hnone]
      simp [hblackhole]
    · intro p
      rw [hbars, hnone]
      simp
  | true =>
    cases hmaps : a.found.mapsBars with
    | false =>
      have hfails : (ttMapBlackholeBars (w.pnp.device.discover a.found).config a.mapIoSpace
          w.bars).1 = false := by
        rw [← Bool.not_eq_true, hok, hmaps]
        decide
      obtain ⟨hundone, hcleared⟩ := hafter.ttUnmapBlackholeBars
      have hbars : (w.prepareHardware a pldr).bars =
          ttUnmapBlackholeBars (w.pnp.device.discover a.found).config
            (ttMapBlackholeBars (w.pnp.device.discover a.found).config a.mapIoSpace w.bars).2 := by
        simp [HardwareWorld.prepareHardware, prepareBars, hblackhole, hfails]
      have hpnp : (w.prepareHardware a pldr).pnp = ⟨w.pnp.device.discover a.found, .failed⟩ := by
        simp [HardwareWorld.prepareHardware, DeviceContext.ttEvtDevicePrepareHardware, hblackhole,
          hmaps]
      refine ⟨?_, ?_, ?_, hbus, h.performs hpldr, hstage, hidle,
        fun hstopped => absurd hstopped hstarted⟩
      · rw [hbars, hpnp]
        exact hundone
      · intro p
        rw [hbars, hpnp, hcleared]
        simp
      · intro p
        rw [hbars, hcleared]
        simp
    | true =>
      have hmapsAll := hok.mpr hmaps
      have hbars : (w.prepareHardware a pldr).bars =
          (ttMapBlackholeBars (w.pnp.device.discover a.found).config a.mapIoSpace w.bars).2 := by
        simp [HardwareWorld.prepareHardware, prepareBars, hblackhole, hmapsAll]
      have hpnp : (w.prepareHardware a pldr).pnp =
          ⟨(w.pnp.device.discover a.found).bringUp a.found, .started⟩ := by
        simp [HardwareWorld.prepareHardware, DeviceContext.ttEvtDevicePrepareHardware, hblackhole,
          hmaps]
      refine ⟨?_, ?_, ?_, hbus, h.performs hpldr, hstage, hidle,
        fun hstopped => absurd hstopped hstarted⟩
      · rw [hbars, hpnp]
        exact hafter.congr rfl rfl
      · intro p
        rw [hbars, hpnp, hset hmapsAll p]
        exact iff_of_true rfl ⟨rfl, hblackhole⟩
      · intro p _
        rw [hpnp]
        apply RegisterPointer.inside
        exact (barsExpected_discover w.pnp.device a).mpr (StartAnswers.found_mapsBars.mp hmaps).1

/-- A release gives back what was taken. -/
theorem HardwareWorld.Balanced.releaseHardware (h : w.Balanced) {pldr : PldrWorld}
    (hpldr : w.pldr.Performs w.pldr.releaseStatements pldr) :
    (w.releaseHardware pldr).Balanced := by
  obtain ⟨hmapped, hnone⟩ := h.mapped.ttUnmapBlackholeBars
  obtain ⟨hreleased, hidle⟩ := hpldr.released
  refine ⟨hmapped.of_none hnone, ?_, ?_, ?_, h.performs hpldr, hreleased, hidle, fun _ => rfl⟩
  · intro p
    have hp : ((w.releaseHardware pldr).bars.slot p) = none := hnone p
    rw [hp]
    simp [HardwareWorld.releaseHardware]
  · intro p hp
    have hnone' : (w.releaseHardware pldr).bars.slot p = none := hnone p
    rw [hnone'] at hp
    cases hp
  · simp [HardwareWorld.releaseHardware, h.busInterface]

/-- An event of the device leaves the mappings and the bus interface alone. -/
theorem HardwareWorld.Balanced.device (h : w.Balanced) {e : Event} {pnp : PnpWorld}
    {pldr : PldrWorld} (hnext : w.pnp.next (.device e) = some pnp) (hinv : PldrInv pldr)
    (hhardware : pldr.hardware = w.pldr.hardware) (hidle : pldr.request = none) :
    ({ w with pnp, pldr } : HardwareWorld).Balanced := by
  simp only [PnpWorld.next] at hnext
  split at hnext
  · obtain ⟨device, hdevice, rfl⟩ := Option.map_eq_some_iff.mp hnext
    have hconfig := config_next hdevice
    refine ⟨?_, ?_, ?_, h.busInterface, hinv, hhardware.trans h.stage, hidle, h.stopped⟩
    · dsimp only
      rw [hconfig]
      exact h.mapped
    · dsimp only
      rw [hconfig]
      exact h.set
    · dsimp only
      rw [hconfig]
      exact h.inside
  · cases hnext

/-- A step keeps the balance. -/
theorem HardwareWorld.Balanced.step (h : w.Balanced) (hstep : HardwareWorld.Step w e w') :
    w'.Balanced := by
  cases hstep with
  | prepareHardware hphase hfresh hpldr => exact h.prepareHardware hphase hfresh hpldr
  | releaseHardware hphase hpldr => exact h.releaseHardware hpldr
  | device hnext hcall hpldr =>
    exact h.device hnext (h.performs hpldr) hpldr.of_nil.hardware
      (hpldr.of_nil.request.trans h.idle)
  | resetPcieLink hnext hcall hpldr hdone =>
    obtain ⟨u, v, hsame, hrequest, hrest⟩ := hpldr.of_cons
    obtain ⟨-, rfl⟩ := guard_of_eq_some hrequest
    exact h.device hnext (h.performs hpldr) (hrest.initiates.trans hsame.hardware) hdone
  | workItem hpldr =>
    exact { h with
      resetInterface := h.performs hpldr
      stage := hpldr.of_nil.hardware.trans h.stage
      idle := hpldr.of_nil.request.trans h.idle }

/-- The device takes the steps of a device whose hardware is found as it is answered. -/
theorem HardwareWorld.Step.simulates : Simulates HardwareWorld.Step (partialGraph PnpWorld.next)
    HardwareWorld.pnp HardwareEvent.pnp fun _ => True := by
  intro w e w' _ hstep
  refine ⟨trivial, ?_⟩
  cases hstep with
  | prepareHardware hphase hfresh hpldr => exact if_pos hphase
  | releaseHardware hphase hpldr => exact if_pos hphase
  | device hnext hcall hpldr => exact hnext
  | resetPcieLink hnext hcall hpldr hdone => exact hnext
  | workItem hpldr => rfl

/-- The reset interface takes the steps of the platform reset. -/
theorem HardwareWorld.Step.pldr {pldrWorkItem : Bool} (hstep : HardwareWorld.Step w e w')
    (h : PldrReachable pldrWorkItem w.pldr) : PldrReachable pldrWorkItem w'.pldr := by
  have hperforms : ∀ {es pldr}, w.pldr.Performs es pldr → PldrReachable pldrWorkItem pldr :=
    fun hpldr => hpldr.invariant
      (fun _ _ _ hreach hcounted hnext => hreach.tail ⟨hcounted, hnext⟩) h
  cases hstep with
  | prepareHardware hphase hfresh hpldr => exact hperforms hpldr
  | releaseHardware hphase hpldr => exact hperforms hpldr
  | device hnext hcall hpldr => exact hperforms hpldr
  | resetPcieLink hnext hcall hpldr hdone => exact hperforms hpldr
  | workItem hpldr => exact hperforms hpldr

end Steps

/-- A device that was added has taken nothing. -/
theorem HardwareWorld.added_balanced (dmaBufLimitBytes : ℕ) (regs : Fin 16 → AtuRegs)
    (pldrWorkItem : Bool) : (HardwareWorld.added dmaBufLimitBytes regs pldrWorkItem).Balanced := by
  refine ⟨⟨by simp [added], by simp [added], by simp [added], rfl⟩, ?_, ?_, rfl,
    pldrInv_init pldrWorkItem, rfl, rfl, fun _ => rfl⟩
  · intro p
    simp [added]
  · intro p hp
    cases hp

/-- In every run of preparations, with any answers and any failures, of releases, of events of the
device and of the work item of the platform reset: the live mappings are those of the four
pointers, each inside of its BAR, and nothing is unmapped that is not mapped. The bus interface is
referenced once while its flag says so; the reset interface likewise, and once more for a platform
reset that is queued or running, of which there is one at most. A device that is stopped, or whose
preparation has failed, has nothing mapped, and one that is stopped has no reference of its own.
The run is one of the device whose hardware is found as it is answered, and one of the platform
reset. -/
theorem hardware_balanced {dmaBufLimitBytes : ℕ} {regs : Fin 16 → AtuRegs} {pldrWorkItem : Bool}
    {es : List HardwareEvent} {w : HardwareWorld}
    (hrun : Run HardwareWorld.Step (.added dmaBufLimitBytes regs pldrWorkItem) es w) :
    w.Balanced ∧ (w.pnp.phase ≠ .started → w.bars.system.live = []) ∧
      (∀ c, w.pldr.refs c =
        (if w.pldr.resetInterfaceValid = true ∧ w.pldr.resetInterface.context = c then 1 else 0) +
          w.pldr.held fun _ s => s.context = c) ∧
      (∀ c, (w.pldr.held fun _ s => s.context = c) ≤ w.pldr.inFlight) ∧ w.pldr.inFlight ≤ 1 ∧
      (w.pnp.phase = .stopped → w.busReferences = 0 ∧ w.pldr.resetInterfaceValid = false) ∧
      PldrReachable pldrWorkItem w.pldr ∧
      Run (partialGraph PnpWorld.next) ⟨.added dmaBufLimitBytes regs, .stopped⟩
        (es.filterMap HardwareEvent.pnp) w.pnp := by
  have hbalanced : w.Balanced := hrun.invariant (fun _ _ _ h hstep => h.step hstep)
    (HardwareWorld.added_balanced dmaBufLimitBytes regs pldrWorkItem)
  have hkeeps : ∀ (w : HardwareWorld) (e : HardwareEvent) (w' : HardwareWorld),
      PldrReachable pldrWorkItem w.pldr → HardwareWorld.Step w e w' →
        PldrReachable pldrWorkItem w'.pldr := fun _ _ _ h hstep => hstep.pldr h
  have hadded : PldrReachable pldrWorkItem
      (HardwareWorld.added dmaBufLimitBytes regs pldrWorkItem).pldr := Reachable.refl _
  have hreach := hrun.invariant hkeeps hadded
  have hkept : w.pldr.hardware ≠ .dropped := by
    rw [hbalanced.stage]
    split <;> decide
  refine ⟨hbalanced, fun hphase => hbalanced.mapped.live_eq_nil (hbalanced.slot_eq_none hphase),
    ?_, fun c => PldrWorld.held_le_inFlight hbalanced.idle _,
    (platform_reset_single_flight hreach).1, ?_, hreach,
    HardwareWorld.Step.simulates.run trivial hrun⟩
  · intro c
    have hrefs := hbalanced.resetInterface.accounts.refs c
    simpa only [PldrWorld.live, hkept, ne_eq, not_false_eq_true, true_and] using hrefs
  · intro hphase
    have hstage := hbalanced.stage
    rw [if_pos hphase] at hstage
    refine ⟨?_, hbalanced.resetInterface.not_valid (by simp [hstage]) (by simp [hstage])⟩
    rw [hbalanced.busInterface, hbalanced.stopped hphase]
    rfl

/-- The preparation of a Blackhole, in which the range of one pointer may not be mapped. -/
def startBlackhole (unmapped : Option RegisterPointer) : StartAnswers where
  busInterface := true
  header := some ⟨0x1E52, 0xB140, 0x1E52, 0x0040⟩
  registers := some (blackholeBars.flatMap Bar.registers)
  resetInterface := some pldrInterface
  resources := blackholeResources
  mapIoSpace := fun p =>
    if unmapped = some p then none else some (0xFFFF000000000000 + p.offset)
  createsDmaEnabler := true
  dmaIdentity := some true
  bhInitHardware := true

/-- The addresses of these answers are different. -/
theorem startBlackhole_fresh (unmapped : Option RegisterPointer) :
    FreshAnswers (startBlackhole unmapped).mapIoSpace [] := by
  refine ⟨by simp, ?_⟩
  intro p q va hp hq
  simp only [startBlackhole, Option.ite_none_left_eq_some, Option.some.injEq] at hp hq
  have hoffset : p.offset = q.offset := by omega
  cases p <;> cases q <;> simp [RegisterPointer.offset] at hoffset ⊢

/-- `RESET_PCIE_LINK` on the first handle. -/
def linkReset : Event :=
  .request 0 7 (.resetDevice ⟨8, 16⟩ ⟨8, 1⟩ ⟨true, true, true, true, true, true⟩)

/-- A preparation that fails at the third range, a second one, and a release behind a reset of the
link. -/
def linkResetReleased : List HardwareEvent :=
  [.prepareHardware (startBlackhole (some .noc2AxiCfg)), .releaseHardware,
    .prepareHardware (startBlackhole none), .device (.create 7), .device linkReset,
    .releaseHardware]

/-- Then nothing is mapped, and the one reference is that of the work item. -/
theorem hardware_balanced_linkResetReleased :
    ∃ w, Run HardwareWorld.Step (.added 0 (fun _ _ => 0) true) linkResetReleased w ∧
      w.pnp.phase = .stopped ∧ w.bars.system.live = [] ∧ w.busReferences = 0 ∧
      w.pldr.resetInterfaceValid = false ∧ w.pldr.refs 7 = 1 ∧ w.pldr.inFlight = 1 ∧ w.Balanced ∧
      Run (partialGraph PnpWorld.next) ⟨.added 0 fun _ _ => 0, .stopped⟩
        (linkResetReleased.filterMap HardwareEvent.pnp) w.pnp := by
  have hrun : Run HardwareWorld.Step (.added 0 (fun _ _ => 0) true) linkResetReleased _ :=
    .cons (.prepareHardware rfl (startBlackhole_fresh _) (.of_runList rfl)) <|
    .cons (.releaseHardware (by decide) (.of_runList rfl)) <|
    .cons (.prepareHardware rfl (startBlackhole_fresh _) (.of_runList rfl)) <|
    .cons (.device rfl rfl (.done _)) <|
    .cons (.resetPcieLink (n := 5) rfl rfl (.of_runList rfl) rfl) <|
    .cons (.releaseHardware (by decide) (.of_runList rfl)) (.nil _)
  obtain ⟨hbalanced, hmappings, -, -, -, hstopped, -, hpnp⟩ := hardware_balanced hrun
  exact ⟨_, hrun, rfl, hmappings (by decide), (hstopped rfl).1, (hstopped rfl).2, rfl, rfl,
    hbalanced, hpnp⟩

end TtKmd
