import TtKmd.Tlb.Sections

/-!
# Whose words a window register holds

`CONFIGURE_TLB` checks the owner of the window under `TlbLock` and writes the register
after the lock is released. A release of the window, or a second configuration, can
come between the check and any of the words. In runs where neither happens every word
is written while the window is owned by the handle that asked for it, and a register at
rest holds the words of one request.
-/

namespace TtKmd

open Lib

/-- The steps that leave a window alone while a configuration of it is in flight. -/
def Undisturbed (w : WindowWorld) : WindowEvent → Prop
  | .free F io id => (ttIoctlFreeTlb w.mem F io id).status = .success →
      ∀ q ∈ w.configuring, q.id ≠ id
  | .complete p => p.fits = false → ∀ q ∈ w.configuring, q.id ≠ p.id
  | .close F => ∀ q ∈ w.configuring, w.mem.tlbOwner q.id ≠ some F
  | .configure F io i => configureTlbCheck w.mem F io i = .success →
      i.config.addr % windowSize i.id = 0 → ∀ q ∈ w.configuring, q.id ≠ i.id
  | _ => True

/-- What holds of the configurations in flight and of the registers. -/
structure Configured (w : WindowWorld) : Prop where
  /-- The window of a configuration is owned by its handle. -/
  owned : ∀ q ∈ w.configuring,
    q.id < tlbTotal ∧ w.mem.tlbUsed q.id = true ∧ w.mem.tlbOwner q.id = some q.file
  /-- A window has one configuration in flight at most. -/
  single : (w.configuring.map (·.id)).Nodup
  /-- The writes to be made are to the registers of the window. -/
  offsets : ∀ q ∈ w.configuring, ∀ offset ∈ q.writes.map (·.1), offset ∈ windowOffsets q.id
  /-- The words already written are of the configuration. -/
  written : ∀ q ∈ w.configuring, ∀ offset ∈ wordOffsets q.id, offset ∉ q.writes.map (·.1) →
    w.writer offset = some q.tag
  /-- A register at rest holds words of one request. -/
  rest : ∀ id < tlbTotal, (∀ q ∈ w.configuring, q.id ≠ id) →
    ∃ t, ∀ offset ∈ wordOffsets id, w.writer offset = t

section Steps

variable {c : MemoryConfig} {w w' : WindowWorld} {F : Handle}

/-- The words of a window are among its registers. -/
theorem wordOffsets_subset {id offset : ℕ} (h : offset ∈ wordOffsets id) :
    offset ∈ windowOffsets id := List.mem_append_left _ h

/-- Steps that change neither the configurations nor the marks of their windows. -/
theorem Configured.marks (h : Configured w) {m : MemoryState}
    (hmarks : ∀ q ∈ w.configuring, m.tlbUsed q.id = w.mem.tlbUsed q.id ∧
      m.tlbOwner q.id = w.mem.tlbOwner q.id)
    (hmem : w'.mem = m) (hconf : w'.configuring = w.configuring) (hwriter : w'.writer = w.writer) :
    Configured w' := by
  refine ⟨?_, ?_, ?_, ?_, ?_⟩
  · intro q hq
    rw [hconf] at hq
    obtain ⟨hid, hused, howner⟩ := h.owned q hq
    obtain ⟨hu, ho⟩ := hmarks q hq
    rw [hmem, hu, ho]
    exact ⟨hid, hused, howner⟩
  · rw [hconf]
    exact h.single
  · rw [hconf]
    exact h.offsets
  · rw [hconf, hwriter]
    exact h.written
  · rw [hconf, hwriter]
    exact h.rest

/-- The first section of `ALLOCATE_TLB` takes no window that is being configured. -/
theorem Configured.claim (h : Configured w) (io : Io) (size : ℕ) :
    Configured (w.claim c F io size) := by
  rcases claim_cases c w F io size with hw | ⟨id, _, hfree, hw⟩
  · rw [hw]
    exact h
  · rw [hw]
    refine h.marks ?_ rfl rfl rfl
    intro q hq
    have hne : q.id ≠ id := by
      rintro rfl
      rw [(h.owned q hq).2.1] at hfree
      cases hfree
    simp [holdTlb, hne]

/-- A release of a window that is not being configured. -/
theorem Configured.release (h : Configured w) {id : ℕ} (hne : ∀ q ∈ w.configuring, q.id ≠ id)
    (hmem : w'.mem = releaseTlb w.mem id) (hconf : w'.configuring = w.configuring)
    (hwriter : w'.writer = w.writer) : Configured w' := by
  refine h.marks ?_ hmem hconf hwriter
  intro q hq
  simp [releaseTlb, hne q hq]

/-- A new configuration of a window that has none in flight. -/
theorem Configured.configure (h : Configured w) {io : Io} {i : ConfigureTlbIn}
    (hcond : Undisturbed w (.configure F io i)) : Configured (w.configure F io i) := by
  unfold WindowWorld.configure
  by_cases hcheck : configureTlbCheck w.mem F io i ≠ .success
  · rw [if_pos hcheck]
    exact h
  rw [if_neg hcheck]
  have hcheck := not_not.mp hcheck
  cases hwrites : ttBhConfigureUserTlb i.id i.config with
  | error status => exact h
  | ok writes =>
    have hoffsets := ttBhConfigureUserTlb_offsets hwrites
    have haligned : i.config.addr % windowSize i.id = 0 := by
      by_contra hbad
      unfold ttBhConfigureUserTlb at hwrites
      rw [if_pos hbad] at hwrites
      cases hwrites
    have hne := hcond hcheck haligned
    refine ⟨?_, ?_, ?_, ?_, ?_⟩
    · intro q hq
      rcases List.mem_cons.mp hq with rfl | hq
      · exact configureTlbCheck_eq_success hcheck
      · exact h.owned q hq
    · show ((_ :: w.configuring).map (·.id)).Nodup
      rw [List.map_cons, List.nodup_cons]
      refine ⟨?_, h.single⟩
      intro hmem
      obtain ⟨q, hq, hid⟩ := List.mem_map.mp hmem
      exact hne q hq hid
    · intro q hq offset hoffset
      rcases List.mem_cons.mp hq with rfl | hq
      · rw [hoffsets] at hoffset
        exact hoffset
      · exact h.offsets q hq offset hoffset
    · intro q hq offset hoffset hnot
      rcases List.mem_cons.mp hq with rfl | hq
      · rw [hoffsets] at hnot
        exact absurd (wordOffsets_subset hoffset) hnot
      · exact h.written q hq offset hoffset hnot
    · intro id hid hrest
      exact h.rest id hid fun q hq => hrest q (List.mem_cons_of_mem _ hq)

/-- The configurations beside one of the list are of other windows. -/
theorem Configured.erase_ne (h : Configured w) {q r : Configuring} (hq : q ∈ w.configuring)
    (hr : r ∈ w.configuring.erase q) : r.id ≠ q.id := by
  have hnodup : ((q :: w.configuring.erase q).map (·.id)).Nodup :=
    ((List.perm_cons_erase hq).map _).nodup_iff.mp h.single
  rw [List.map_cons, List.nodup_cons] at hnodup
  intro hid
  exact hnodup.1 (List.mem_map.mpr ⟨r, hr, hid⟩)

/-- A word of another window keeps its writer. -/
theorem writer_of_ne {i j offset offset' : ℕ} (hi : i < tlbTotal) (hj : j < tlbTotal) (hne : i ≠ j)
    (hoffset : offset ∈ windowOffsets i) (hoffset' : offset' ∈ wordOffsets j)
    (writer : ℕ → Option ℕ) (tag : ℕ) :
    Function.update writer offset (some tag) offset' = writer offset' := by
  apply Function.update_of_ne
  rintro rfl
  exact windowOffsets_disjoint hi hj hne hoffset (wordOffsets_subset hoffset')

/-- After one write of a configuration, its words are its own as far as they are written. -/
theorem written_step {writer : ℕ → Option ℕ} {q : Configuring} {offset word : ℕ}
    {rest : List (ℕ × ℕ)} (hwrites : q.writes = (offset, word) :: rest)
    (hbefore : ∀ o ∈ wordOffsets q.id, o ∉ q.writes.map (·.1) → writer o = some q.tag) :
    ∀ o ∈ wordOffsets q.id, o ∉ rest.map (·.1) →
      Function.update writer offset (some q.tag) o = some q.tag := by
  intro o ho hnot
  by_cases heq : o = offset
  · rw [heq, Function.update_self]
  · rw [Function.update_of_ne heq]
    refine hbefore o ho ?_
    rw [hwrites, List.map_cons, List.mem_cons, not_or]
    exact ⟨heq, hnot⟩

/-- A register write. -/
theorem Configured.write (h : Configured w) {q : Configuring} (hq : q ∈ w.configuring)
    (hstep : w.write q = some w') : Configured w' := by
  unfold WindowWorld.write at hstep
  split at hstep
  · cases hstep
  rename_i offset word rest hwrites
  rw [← Option.some.inj hstep]
  obtain ⟨hqid, hqused, hqowner⟩ := h.owned q hq
  have hoffset : offset ∈ windowOffsets q.id := by
    refine h.offsets q hq offset ?_
    rw [hwrites]
    exact List.mem_cons_self ..
  have hown := written_step hwrites (h.written q hq)
  have hothers : ∀ r ∈ w.configuring.erase q, ∀ o ∈ wordOffsets r.id, o ∉ r.writes.map (·.1) →
      Function.update w.writer offset (some q.tag) o = some r.tag := by
    intro r hr o ho hnot
    have hrmem := List.mem_of_mem_erase hr
    rw [writer_of_ne hqid (h.owned r hrmem).1 (h.erase_ne hq hr).symm hoffset ho]
    exact h.written r hrmem o ho hnot
  have hsingle : ((w.configuring.erase q).map (·.id)).Nodup :=
    h.single.sublist ((List.erase_sublist ..).map _)
  have hrest : ∀ id < tlbTotal, id ≠ q.id → (∀ r ∈ w.configuring.erase q, r.id ≠ id) →
      ∃ t, ∀ o ∈ wordOffsets id, Function.update w.writer offset (some q.tag) o = t := by
    intro id hid hne hquiet
    obtain ⟨t, ht⟩ := h.rest id hid (by
      intro r hr
      rcases List.mem_cons.mp ((List.perm_cons_erase hq).mem_iff.mp hr) with rfl | hr
      · exact hne.symm
      · exact hquiet r hr)
    refine ⟨t, fun o ho => ?_⟩
    rw [writer_of_ne hqid hid hne.symm hoffset ho]
    exact ht o ho
  by_cases hlast : rest = []
  · -- The last write: the configuration leaves the list, its register is at rest.
    rw [if_pos hlast]
    refine ⟨fun r hr => h.owned r (List.mem_of_mem_erase hr), hsingle,
      fun r hr => h.offsets r (List.mem_of_mem_erase hr), hothers, ?_⟩
    intro id hid hquiet
    by_cases hne : id = q.id
    · subst hne
      refine ⟨some q.tag, fun o ho => hown o ho ?_⟩
      rw [hlast]
      exact List.not_mem_nil
    · exact hrest id hid hne hquiet
  · rw [if_neg hlast]
    refine ⟨?_, ?_, ?_, ?_, ?_⟩
    · intro r hr
      rcases List.mem_cons.mp hr with rfl | hr
      · exact ⟨hqid, hqused, hqowner⟩
      · exact h.owned r (List.mem_of_mem_erase hr)
    · show ((_ :: w.configuring.erase q).map (·.id)).Nodup
      rw [List.map_cons, List.nodup_cons]
      refine ⟨?_, hsingle⟩
      intro hmem
      obtain ⟨r, hr, hid⟩ := List.mem_map.mp hmem
      exact h.erase_ne hq hr hid
    · intro r hr o ho
      rcases List.mem_cons.mp hr with rfl | hr
      · refine h.offsets q hq o ?_
        rw [hwrites, List.map_cons]
        exact List.mem_cons_of_mem _ ho
      · exact h.offsets r (List.mem_of_mem_erase hr) o ho
    · intro r hr
      rcases List.mem_cons.mp hr with rfl | hr
      · exact hown
      · exact hothers r hr
    · intro id hid hquiet
      exact hrest id hid (hquiet _ (List.mem_cons_self ..)).symm
        fun r hr => hquiet r (List.mem_cons_of_mem _ hr)

/-- Every step that meets the condition keeps the invariant. -/
theorem Configured.next (h : Configured w) {e : WindowEvent} (hcond : Undisturbed w e)
    (hstep : w.next c e = some w') : Configured w' := by
  cases e with
  | claim F io size =>
    rw [← Option.some.inj hstep]
    exact h.claim io size
  | complete p =>
    obtain ⟨-, rfl⟩ := guard_of_eq_some hstep
    unfold WindowWorld.complete
    cases hfits : p.fits with
    | true => exact h.marks (fun _ _ => ⟨rfl, rfl⟩) rfl rfl rfl
    | false => exact h.release (hcond hfits) rfl rfl rfl
  | free F io id =>
    rw [← Option.some.inj hstep]
    by_cases hstatus : (ttIoctlFreeTlb w.mem F io id).status = .success
    · exact h.release (hcond hstatus) (ttIoctlFreeTlb_success hstatus).2 rfl rfl
    · exact h.marks (fun _ _ => ⟨rfl, rfl⟩) (ttIoctlFreeTlb_failure hstatus) rfl rfl
  | configure F io i =>
    rw [← Option.some.inj hstep]
    exact h.configure hcond
  | write q =>
    simp only [WindowWorld.next] at hstep
    split at hstep
    · exact h.write ‹_› hstep
    · cases hstep
  | map F io i env =>
    rw [← Option.some.inj hstep]
    obtain ⟨hused, howner⟩ := ttIoctlMap_windows c w.mem F io i env
    exact h.marks (fun q _ => ⟨congrFun hused q.id, congrFun howner q.id⟩) rfl rfl rfl
  | unmap F io userVa reserved =>
    rw [← Option.some.inj hstep]
    obtain ⟨hused, howner⟩ := ttIoctlUnmap_windows w.mem F io userVa reserved
    exact h.marks (fun q _ => ⟨congrFun hused q.id, congrFun howner q.id⟩) rfl rfl rfl
  | drain F detached =>
    obtain ⟨hused, howner⟩ := cleanupFileSection_windows detached w.mem F
    simp only [WindowWorld.next] at hstep
    generalize cleanupFileSection detached w.mem F = m at hstep hused howner
    rw [← Option.some.inj hstep]
    exact h.marks (fun q _ => ⟨congrFun hused q.id, congrFun howner q.id⟩) rfl rfl rfl
  | close F =>
    rw [← Option.some.inj hstep]
    refine h.marks ?_ rfl rfl rfl
    intro q hq
    have hkept : ¬ (q.id < tlbTotal ∧ w.mem.tlbOwner q.id = some F) := fun hF => hcond q hq hF.2
    simp only [WindowWorld.close, cleanupTlbSection]
    rw [if_neg hkept, if_neg hkept]
    exact ⟨rfl, rfl⟩

end Steps

/-- In every run in which a window is left alone while it is being configured, each word
is written while the handle of the request owns the window, and the words of a register
at rest are of one request. -/
theorem configured_by_owner {c : MemoryConfig} {iatu : Fin 16 → AtuRegs} {regs : ℕ → ℕ}
    {es : List WindowEvent} {w : WindowWorld}
    (hrun : Run (restrict (partialGraph (WindowWorld.next c)) Undisturbed)
      (.started c iatu regs) es w) :
    (∀ q w', w.next c (.write q) = some w' → w.mem.tlbOwner q.id = some q.file) ∧
      ∀ id < tlbTotal, (∀ q ∈ w.configuring, q.id ≠ id) →
        ∃ t, ∀ offset ∈ wordOffsets id, w.writer offset = t := by
  have hstarted : Configured (.started c iatu regs) :=
    ⟨nofun, List.nodup_nil, nofun, nofun, fun _ _ _ => ⟨none, fun _ _ => rfl⟩⟩
  have hinv : Configured w :=
    hrun.invariant (fun _ _ _ h hstep => h.next hstep.1 hstep.2) hstarted
  refine ⟨?_, hinv.rest⟩
  intro q w' hstep
  simp only [WindowWorld.next] at hstep
  split at hstep
  · exact (hinv.owned q ‹_›).2.2
  · cases hstep

/-- The configuration of window 0 with zeros, after some of its writes. -/
def zeroConfiguring (done : ℕ) : Configuring :=
  ⟨0, 0, 0, [(0, 0), (4, 0), (8, 0), (2520, 0)].drop done⟩

/-- The first handle claims window 0 and begins to configure it. -/
def configuringWindow : List WindowEvent :=
  [.claim 0 ⟨16, 48⟩ (2 ^ 21), .complete ⟨0, 0, true⟩,
    .configure 0 ⟨40, 48⟩ ⟨0, ⟨0, 0, 0, 0, 0, 0, 0, 0, 0, 0⟩⟩, .write (zeroConfiguring 0)]

/-- The second word of the configuration is written while the first handle owns the
window. -/
theorem configured_by_owner_configuringWindow :
    ∃ w, Run (restrict (partialGraph (WindowWorld.next wideBlackhole)) Undisturbed)
        (.started wideBlackhole (fun _ _ => 0) fun _ => 0) configuringWindow w ∧
      (w.next wideBlackhole (.write (zeroConfiguring 1))).isSome ∧ w.mem.tlbOwner 0 = some 0 := by
  obtain ⟨w, hrun, hstep⟩ : ∃ w,
      Run (restrict (partialGraph (WindowWorld.next wideBlackhole)) Undisturbed)
        (.started wideBlackhole (fun _ _ => 0) fun _ => 0) configuringWindow w ∧
      (w.next wideBlackhole (.write (zeroConfiguring 1))).isSome := by
    refine ⟨_, .cons ⟨trivial, rfl⟩ (.cons ⟨nofun, rfl⟩ (.cons ⟨?_, rfl⟩
      (.cons ⟨trivial, rfl⟩ (.nil _)))), rfl⟩
    intro _ _ q hq
    cases hq
  obtain ⟨w', hw'⟩ := Option.isSome_iff_exists.mp hstep
  exact ⟨w, hrun, hstep, (configured_by_owner hrun).1 _ w' hw'⟩

/-- The first handle frees the window behind the first word, the second handle is given
it, and the second word of the first handle's configuration can still be written. -/
theorem freedWhileConfiguring_writes :
    ∃ w, Run (partialGraph (WindowWorld.next wideBlackhole))
        (.started wideBlackhole (fun _ _ => 0) fun _ => 0)
        (configuringWindow ++ [.free 0 ⟨4, 4⟩ 0, .claim 1 ⟨16, 48⟩ (2 ^ 21),
          .complete ⟨1, 0, true⟩]) w ∧
      (w.next wideBlackhole (.write (zeroConfiguring 1))).isSome ∧
      (zeroConfiguring 1).file = 0 ∧ w.mem.tlbOwner 0 = some 1 :=
  ⟨_, run_of_runList rfl, rfl, rfl, rfl⟩

end TtKmd
