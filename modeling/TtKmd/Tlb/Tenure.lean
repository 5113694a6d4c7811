import TtKmd.Tlb.Sections

/-!
# How long a window is held

Once `ALLOCATE_TLB` has returned a window, its handle should keep it until it frees the
window or is closed. The invariant lists the windows that are spoken for: the returned
ones, and the claimed ones whose request is still in flight. It breaks when the owner
frees a window by its id before the claim has returned, and when the close releases it
before a claim that will be rolled back: the rollback then releases a window that may
belong to somebody else.
-/

namespace TtKmd

open Lib

/-- The windows of a list are each owned by the handle beside it, and none is listed
twice. -/
structure HeldBy (l : List (Handle × ℕ)) (m : MemoryState) : Prop where
  /-- The marks of a listed window. -/
  owned : ∀ g ∈ l, m.tlbUsed g.2 = true ∧ m.tlbOwner g.2 = some g.1
  /-- No window is listed twice. -/
  nodup : (l.map (·.2)).Nodup

section HeldBy

variable {l l' : List (Handle × ℕ)} {m m' : MemoryState} {F : Handle} {id : ℕ}

/-- The order of the list does not matter. -/
theorem HeldBy.perm (h : HeldBy l m) (hperm : l.Perm l') : HeldBy l' m :=
  ⟨fun g hg => h.owned g (hperm.mem_iff.mpr hg), (hperm.map _).nodup_iff.mp h.nodup⟩

/-- A part of the list. -/
theorem HeldBy.sublist (h : HeldBy l m) (hsub : l'.Sublist l) : HeldBy l' m :=
  ⟨fun g hg => h.owned g (hsub.subset hg), h.nodup.sublist (hsub.map _)⟩

/-- Steps that leave the marks alone. -/
theorem HeldBy.congr (h : HeldBy l m) (hused : m'.tlbUsed = m.tlbUsed)
    (howner : m'.tlbOwner = m.tlbOwner) : HeldBy l m' := by
  refine ⟨?_, h.nodup⟩
  rw [hused, howner]
  exact h.owned

/-- A free window is claimed. -/
theorem HeldBy.hold (h : HeldBy l m) (hfree : m.tlbUsed id = false) :
    HeldBy ((F, id) :: l) (holdTlb m F id) := by
  have hne : ∀ g ∈ l, g.2 ≠ id := by
    rintro g hg rfl
    rw [(h.owned g hg).1] at hfree
    cases hfree
  constructor
  · intro g hg
    rcases List.mem_cons.mp hg with rfl | hg
    · simp [holdTlb]
    · simpa [holdTlb, hne g hg] using h.owned g hg
  · rw [List.map_cons, List.nodup_cons]
    refine ⟨?_, h.nodup⟩
    intro hmem
    obtain ⟨g, hg, hid⟩ := List.mem_map.mp hmem
    exact hne g hg hid

/-- A window that is not listed is released. -/
theorem HeldBy.releaseOther (h : HeldBy l m) (hne : ∀ g ∈ l, g.2 ≠ id) :
    HeldBy l (releaseTlb m id) := by
  refine ⟨?_, h.nodup⟩
  intro g hg
  simpa [releaseTlb, hne g hg] using h.owned g hg

/-- A listed window is taken off the list and released. -/
theorem HeldBy.release (h : HeldBy ((F, id) :: l) m) : HeldBy l (releaseTlb m id) := by
  have hnodup := h.nodup
  rw [List.map_cons, List.nodup_cons] at hnodup
  refine (h.sublist (List.sublist_cons_self _ _)).releaseOther ?_
  rintro g hg rfl
  exact hnodup.1 (List.mem_map.mpr ⟨g, hg, rfl⟩)

/-- The windows of a handle that is not listed are released. -/
theorem HeldBy.close (h : HeldBy l m) (hne : ∀ g ∈ l, g.1 ≠ F) :
    HeldBy l (cleanupTlbSection m F) := by
  refine ⟨?_, h.nodup⟩
  intro g hg
  obtain ⟨hused, howner⟩ := h.owned g hg
  have hkept : ¬ (g.2 < tlbTotal ∧ m.tlbOwner g.2 = some F) := by
    rintro ⟨-, hF⟩
    rw [howner] at hF
    exact hne g hg (Option.some.inj hF)
  simp only [cleanupTlbSection]
  rw [if_neg hkept, if_neg hkept]
  exact ⟨hused, howner⟩

end HeldBy

/-- A claim that counts: it will be rolled back, or its handle is not closed. -/
def WindowWorld.live (w : WindowWorld) (p : Claim) : Bool := !p.fits || !w.closed p.file

/-- The windows that are spoken for. -/
def WindowWorld.holds (w : WindowWorld) : List (Handle × ℕ) :=
  w.granted ++ (w.claims.filter w.live).map fun p => (p.file, p.id)

/-- The steps that do not release a window that a claim in flight still counts on. -/
def ReturnedFirst (w : WindowWorld) : WindowEvent → Prop
  | .free F io id => (ttIoctlFreeTlb w.mem F io id).status = .success →
      ∀ p ∈ w.claims, w.live p = true → p.file = F → p.id ≠ id
  | .close F => ∀ p ∈ w.claims, p.file = F → p.fits = true
  | _ => True

section Steps

variable {c : MemoryConfig} {w w' : WindowWorld} {F : Handle}

/-- A new claim is spoken for, if it counts. -/
theorem holds_claim (w : WindowWorld) (m : MemoryState) (p : Claim) :
    ({ w with mem := m, claims := p :: w.claims } : WindowWorld).holds.Perm
      (if w.live p then (p.file, p.id) :: w.holds else w.holds) := by
  show (w.granted ++ ((p :: w.claims).filter w.live).map fun p => (p.file, p.id)).Perm _
  by_cases hlive : w.live p = true
  · rw [if_pos hlive, List.filter_cons_of_pos hlive, List.map_cons]
    exact List.perm_middle
  · rw [if_neg hlive, List.filter_cons_of_neg hlive]
    exact List.Perm.refl _

/-- A claim that leaves the list was spoken for, if it counted. -/
theorem holds_erase (m : MemoryState) {p : Claim} (hp : p ∈ w.claims) :
    w.holds.Perm (if w.live p then
      (p.file, p.id) :: ({ w with mem := m, claims := w.claims.erase p } : WindowWorld).holds
      else ({ w with mem := m, claims := w.claims.erase p } : WindowWorld).holds) := by
  have hperm := List.perm_cons_erase hp
  have hholds : w.holds.Perm
      (w.granted ++ ((p :: w.claims.erase p).filter w.live).map fun p => (p.file, p.id)) :=
    ((hperm.filter _).map _).append_left _
  exact hholds.trans (holds_claim { w with claims := w.claims.erase p } m p)

/-- The first section of `ALLOCATE_TLB` keeps the windows that are spoken for. -/
theorem held_claim (h : HeldBy w.holds w.mem) (io : Io) (size : ℕ) :
    HeldBy (w.claim c F io size).holds (w.claim c F io size).mem := by
  rcases claim_cases c w F io size with hw | ⟨id, _, hfree, hw⟩
  · rw [hw]
    exact h
  · rw [hw]
    refine HeldBy.perm ?_ (holds_claim w (holdTlb w.mem F id) _).symm
    have hhold : HeldBy ((F, id) :: w.holds) (holdTlb w.mem F id) := h.hold hfree
    split
    · exact hhold
    · exact hhold.sublist (List.sublist_cons_self _ _)

/-- The rest of an `ALLOCATE_TLB` keeps the windows that are spoken for. -/
theorem held_complete (h : HeldBy w.holds w.mem) {p : Claim} (hp : p ∈ w.claims) :
    HeldBy (w.complete p).holds (w.complete p).mem := by
  unfold WindowWorld.complete
  have herase := holds_erase w.mem hp
  cases hfits : p.fits with
  | true =>
    rw [if_pos rfl]
    cases hclosed : w.closed p.file with
    | true =>
      rw [if_neg (by simp [WindowWorld.live, hfits, hclosed])] at herase
      exact h.perm herase
    | false =>
      rw [if_pos (by simp [WindowWorld.live, hclosed])] at herase
      exact h.perm herase
  | false =>
    rw [if_neg (by simp)]
    rw [if_pos (by simp [WindowWorld.live, hfits])] at herase
    exact (h.perm herase).release

/-- `FREE_TLB` keeps the windows that are spoken for. -/
theorem held_free (h : HeldBy w.holds w.mem) {io : Io} {id : ℕ}
    (hcond : ReturnedFirst w (.free F io id)) :
    HeldBy (w.free F io id).holds (w.free F io id).mem := by
  unfold WindowWorld.free
  by_cases hstatus : (ttIoctlFreeTlb w.mem F io id).status = .success
  swap
  · rw [if_neg hstatus, ttIoctlFreeTlb_failure hstatus]
    exact h
  obtain ⟨howner, hmem⟩ := ttIoctlFreeTlb_success hstatus
  rw [if_pos hstatus, hmem]
  have hsub : (w.granted.erase (F, id) ++ (w.claims.filter w.live).map fun p =>
      (p.file, p.id)).Sublist w.holds :=
    (List.erase_sublist ..).append (List.Sublist.refl _)
  refine (h.sublist hsub).releaseOther ?_
  -- What is left on the list for the window would be of `F`, but `F` has one entry at most.
  rintro g hg rfl
  have hgF : g.1 = F := by
    have hg' := (h.owned g (hsub.subset hg)).2
    rw [howner] at hg'
    exact (Option.some.inj hg').symm
  rcases List.mem_append.mp hg with hg | hg
  · have hnodup : w.granted.Nodup := by
      have hall : (w.granted.map (·.2)).Nodup :=
        h.nodup.sublist ((List.sublist_append_left _ _).map _)
      exact List.Nodup.of_map _ hall
    have hself : (F, g.2) = g := by rw [← hgF]
    rw [hself] at hg
    exact hnodup.not_mem_erase hg
  · obtain ⟨p, hp, rfl⟩ := List.mem_map.mp hg
    obtain ⟨hp, hlive⟩ := List.mem_filter.mp hp
    exact hcond hstatus p hp hlive hgF rfl

/-- The close of a handle keeps the windows of the others that are spoken for. -/
theorem held_close (h : HeldBy w.holds w.mem) (hcond : ReturnedFirst w (.close F)) :
    HeldBy (w.close F).holds (w.close F).mem := by
  have hlive : ∀ p : Claim, (w.close F).live p = true → w.live p = true := by
    intro p
    simp only [WindowWorld.live, WindowWorld.close, Bool.or_eq_true, Bool.not_eq_true']
    rintro (hfits | hclosed)
    · exact .inl hfits
    · by_cases hp : p.file = F
      · rw [hp, Function.update_self] at hclosed
        cases hclosed
      · rw [Function.update_of_ne hp] at hclosed
        exact .inr hclosed
  have hsub : (w.close F).holds.Sublist w.holds := by
    refine List.Sublist.append List.filter_sublist (List.Sublist.map _ ?_)
    exact List.monotone_filter_right _ hlive
  refine (h.sublist hsub).close ?_
  intro g hg
  rcases List.mem_append.mp hg with hg | hg
  · simpa using (List.mem_filter.mp hg).2
  · obtain ⟨p, hp, rfl⟩ := List.mem_map.mp hg
    obtain ⟨hp, hplive⟩ := List.mem_filter.mp hp
    intro hpF
    have hpF : p.file = F := hpF
    have hfits := hcond p hp hpF
    simp [WindowWorld.live, WindowWorld.close, hpF, hfits] at hplive

/-- Every step that meets the condition keeps the windows that are spoken for. -/
theorem held_next (h : HeldBy w.holds w.mem) {e : WindowEvent} (hcond : ReturnedFirst w e)
    (hstep : w.next c e = some w') : HeldBy w'.holds w'.mem := by
  cases e with
  | claim F io size =>
    rw [← Option.some.inj hstep]
    exact held_claim h io size
  | complete p =>
    obtain ⟨hp, rfl⟩ := guard_of_eq_some hstep
    exact held_complete h hp
  | free F io id =>
    rw [← Option.some.inj hstep]
    exact held_free h hcond
  | configure F io i =>
    rw [← Option.some.inj hstep]
    rcases configure_cases w F io i with hw | ⟨writes, _, _, hw⟩
    · rw [hw]
      exact h
    · rw [hw]
      exact h
  | write q =>
    simp only [WindowWorld.next] at hstep
    split at hstep
    · unfold WindowWorld.write at hstep
      split at hstep
      · cases hstep
      · rw [← Option.some.inj hstep]
        exact h
    · cases hstep
  | map F io i env =>
    rw [← Option.some.inj hstep]
    obtain ⟨hused, howner⟩ := ttIoctlMap_windows c w.mem F io i env
    exact h.congr hused howner
  | unmap F io userVa reserved =>
    rw [← Option.some.inj hstep]
    obtain ⟨hused, howner⟩ := ttIoctlUnmap_windows w.mem F io userVa reserved
    exact h.congr hused howner
  | drain F detached =>
    obtain ⟨hused, howner⟩ := cleanupFileSection_windows detached w.mem F
    simp only [WindowWorld.next] at hstep
    have hmem := h.congr hused howner
    generalize cleanupFileSection detached w.mem F = m at hstep hmem
    rw [← Option.some.inj hstep]
    exact hmem
  | close F =>
    rw [← Option.some.inj hstep]
    exact held_close h hcond

end Steps

/-- In every run in which no window is released while a claim in flight counts on it, a
returned window is used and owned by the handle it was returned to until that handle
frees it or is closed, and no window is outstanding twice. -/
theorem granted_windows_held {c : MemoryConfig} {iatu : Fin 16 → AtuRegs} {regs : ℕ → ℕ}
    {es : List WindowEvent} {w : WindowWorld}
    (hrun : Run (restrict (partialGraph (WindowWorld.next c)) ReturnedFirst)
      (.started c iatu regs) es w) :
    (∀ g ∈ w.granted, w.mem.tlbUsed g.2 = true ∧ w.mem.tlbOwner g.2 = some g.1) ∧
      (w.granted.map (·.2)).Nodup := by
  have hstarted : HeldBy (WindowWorld.started c iatu regs).holds
      (WindowWorld.started c iatu regs).mem := ⟨nofun, List.nodup_nil⟩
  have hheld : HeldBy w.holds w.mem :=
    @Run.invariant _ _ _ (fun w => HeldBy w.holds w.mem) _ _ _
      (fun _ _ _ h hstep => held_next h hstep.1 hstep.2) hstarted hrun
  have hgranted : HeldBy w.granted w.mem := hheld.sublist (List.sublist_append_left _ _)
  exact ⟨hgranted.owned, hgranted.nodup⟩

/-- The claim of the first handle returns, and the second handle frees nothing of it. -/
def claimedAndFreed : List WindowEvent :=
  [.claim 0 ⟨16, 48⟩ (2 ^ 21), .claim 1 ⟨16, 16⟩ (2 ^ 21), .complete ⟨0, 0, true⟩,
    .free 1 ⟨4, 4⟩ 0, .complete ⟨1, 1, false⟩]

/-- The run meets the condition, and the returned window is held. -/
theorem granted_windows_held_claimedAndFreed :
    ∃ w, Run (restrict (partialGraph (WindowWorld.next wideBlackhole)) ReturnedFirst)
        (.started wideBlackhole (fun _ _ => 0) fun _ => 0) claimedAndFreed w ∧
      w.granted = [(0, 0)] ∧ w.mem.tlbUsed 0 = true ∧ w.mem.tlbOwner 0 = some 0 := by
  obtain ⟨w, hrun, hgranted⟩ : ∃ w,
      Run (restrict (partialGraph (WindowWorld.next wideBlackhole)) ReturnedFirst)
        (.started wideBlackhole (fun _ _ => 0) fun _ => 0) claimedAndFreed w ∧
      w.granted = [(0, 0)] := by
    refine ⟨_, .cons ⟨trivial, rfl⟩ (.cons ⟨trivial, rfl⟩ (.cons ⟨trivial, rfl⟩
      (.cons ⟨?_, rfl⟩ (.cons ⟨trivial, rfl⟩ (.nil _))))), rfl⟩
    intro hstatus
    cases hstatus
  have hmem : (0, 0) ∈ w.granted := by simp [hgranted]
  exact ⟨w, hrun, hgranted, (granted_windows_held hrun).1 (0, 0) hmem⟩

/-- The first handle frees a window by its id while its allocation, whose output does not
fit, is in flight; the second handle is given the window, and the rollback releases it. -/
theorem rolledBack_loses :
    ∃ w, Run (partialGraph (WindowWorld.next wideBlackhole))
        (.started wideBlackhole (fun _ _ => 0) fun _ => 0)
        [.claim 0 ⟨16, 16⟩ (2 ^ 21), .free 0 ⟨4, 4⟩ 0, .claim 1 ⟨16, 48⟩ (2 ^ 21),
          .complete ⟨1, 0, true⟩, .complete ⟨0, 0, false⟩] w ∧
      w.granted = [(1, 0)] ∧ w.mem.tlbUsed 0 = false ∧ w.mem.tlbOwner 0 = none :=
  ⟨_, run_of_runList rfl, rfl, rfl, rfl⟩

end TtKmd
