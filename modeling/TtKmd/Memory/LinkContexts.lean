import TtKmd.Memory.LinkRefinement

/-!
# Contexts come and go

The other operations on the lists in memory are those of the contexts: a device registers and
unregisters, a file is put into the list of its device and taken out, and the contexts are
allocated with the heads of their own lists and freed with them. A context is freed when it is
in no list and its lists are empty, so no link to it is left.
-/

namespace TtKmd

open Lib

section Contexts

variable {w : ListWorld} {t : ListTable} {mapAt pinAt : Handle → List ℕ} {F : Handle} {D n : ℕ}
  {m : Entries ListNode}

/-- Only the entries changed. -/
@[simp]
theorem withEntries_entries (w : ListWorld) (m : Entries ListNode) :
    (w.withEntries m).entries = m := rfl

/-- `TtDeviceListRegister` of a device that is not in the list. -/
theorem Refines.register (h : Refines w t mapAt pinAt) (hadded : t.added D = true)
    (hout : D ∉ t.devices) :
    ∃ w', ttDeviceListRegister w D = some w' ∧
      Refines w' { t with devices := t.devices ++ [D] } mapAt pinAt := by
  have hlive : t.Live .devices := trivial
  have hfree : ∀ i, t.Live i → ListNode.device D ∉ i.head :: t.nodes mapAt pinAt i := by
    intro i _
    cases i <;> simp [ListId.head, ListTable.nodes, hout]
  have hal : w.entries.allocated (.device D) = true :=
    (h.contexts (.device D) (by simp)).trans hadded
  obtain ⟨m', hrun, hcircles, hal'⟩ := h.circles.insertTailList hlive hfree hal
  have hrun' : w.entries.insertTailList .devices (.device D) = some m' := hrun
  refine ⟨_, by rw [ttDeviceListRegister, hrun', Option.map_some], ?_⟩
  have hnodes : ListTable.nodes { t with devices := t.devices ++ [D] } mapAt pinAt =
      Function.update (t.nodes mapAt pinAt) .devices
        (t.nodes mapAt pinAt .devices ++ [.device D]) := by
    funext i
    cases i <;> simp [ListTable.nodes]
  exact {
    circles := by
      rw [hnodes]
      exact hcircles
    mappings := h.mappings
    pinnings := h.pinnings
    contexts := fun e he => (congrFun hal' e).trans (h.contexts e he)
    records := fun a ha => h.records a ((congrFun hal' _).symm.trans ha)
    onDriverList := by
      intro D' hD'
      by_cases hDD : D' = D
      · simp [hDD]
      · simp [h.onDriverList D' hD', hDD]
    onDeviceList := h.onDeviceList
    creatorProcess := h.creatorProcess
    added := by
      intro D' hD'
      rcases List.mem_append.mp hD' with hD' | hD'
      · exact h.added D' hD'
      · rw [List.mem_singleton.mp hD']
        exact hadded
    opened := h.opened }

/-- A device context comes, with an empty list of files. -/
theorem Refines.context (h : Refines w t mapAt pinAt) (hD : t.added D = false) :
    ∃ m', ((w.entries.allocate (.device D)).allocate (.files D)).initializeListHead (.files D) =
        some m' ∧
      Refines { w with entries := m', onDriverList := Function.update w.onDriverList D false }
        { t with
          added := Function.update t.added D true
          files := Function.update t.files D [] } mapAt pinAt := by
  have hdevice := h.fresh ((h.contexts (.device D) (by simp)).trans hD)
  have hfiles := h.fresh ((h.contexts (.files D) (by simp)).trans hD)
  have hc₁ := (h.circles.allocate hdevice).allocate hfiles
  have hal : ((w.entries.allocate (.device D)).allocate (.files D)).allocated (.files D) =
      true := by
    rw [Entries.allocated_allocate]
    exact .inl rfl
  obtain ⟨m', hrun, hc', hw, hal'⟩ := Entries.circle_initializeListHead _ hal
  have hw' : Entries.Within [(ListId.files D).head] _ m' := hw
  refine ⟨m', hrun, ?_⟩
  exact {
    circles := by
      apply hc₁.add hw' hc' hfiles
      · intro i hi
        cases i with
        | devices => exact .inr trivial
        | files D' =>
          by_cases hDD : D' = D
          · exact .inl (congrArg _ hDD)
          · right
            simpa [ListTable.Live, Function.update_of_ne hDD] using hi
        | mappings F => exact .inr hi
        | pinnings F => exact .inr hi
      · simp [ListTable.nodes]
      · intro i _ hne
        cases i with
        | files D' =>
          have hDD : D' ≠ D := fun heq => hne (congrArg _ heq)
          simp [ListTable.nodes, Function.update_of_ne hDD]
        | _ => rfl
    mappings := h.mappings
    pinnings := h.pinnings
    contexts := by
      intro e he
      have hold := h.contexts e he
      simp only [hal', Entries.allocate]
      cases e with
      | device D' =>
        by_cases hDD : D' = D
        · simp [ListTable.hasContext, hDD]
        · simpa [ListTable.hasContext, Function.update_apply, hDD] using hold
      | files D' =>
        by_cases hDD : D' = D
        · simp [ListTable.hasContext, hDD]
        · simpa [ListTable.hasContext, Function.update_apply, hDD] using hold
      | _ => simpa [ListTable.hasContext, Function.update_apply] using hold
    records := by
      intro a ha
      apply h.records
      simpa [hal', Entries.allocate, Function.update_apply] using ha
    onDriverList := by
      intro D' hD'
      by_cases hDD : D' = D
      · have hout : D ∉ t.devices := by
          intro hmem
          rw [h.added D hmem] at hD
          cases hD
        simp [hDD, hout]
      · simp only [Function.update_of_ne hDD] at hD' ⊢
        exact h.onDriverList D' hD'
    onDeviceList := by
      intro G hG
      apply (h.onDeviceList G hG).trans
      apply exists_congr
      intro D'
      by_cases hDD : D' = D
      · simp [hDD, hD]
      · simp [Function.update_of_ne hDD]
    creatorProcess := h.creatorProcess
    added := by
      intro D' hD'
      by_cases hDD : D' = D
      · simp [hDD]
      · simpa [Function.update_of_ne hDD] using h.added D' hD'
    opened := by
      intro D' hD' G hG
      by_cases hDD : D' = D
      · simp [hDD] at hG
      · simp only [Function.update_of_ne hDD] at hD' hG
        exact h.opened D' hD' G hG }

/-- The lists in `TtEvtDeviceAdd`. -/
theorem Refines.addDevice (h : Refines w t mapAt pinAt) (hD : t.added D = false)
    (registers : Bool) :
    ∃ w', TtKmd.addDevice w D registers = some w' ∧
      Refines w' (t.perform (.addDevice D registers)) mapAt pinAt := by
  obtain ⟨m', hrun, hrefines⟩ := h.context hD
  cases registers with
  | false => exact ⟨_, by simp [TtKmd.addDevice, hrun], hrefines⟩
  | true =>
    have hout : D ∉ t.devices := by
      intro hmem
      rw [h.added D hmem] at hD
      cases hD
    obtain ⟨w', hrun', hrefines'⟩ := hrefines.register (by simp) hout
    exact ⟨w', by simp [TtKmd.addDevice, hrun, hrun'], hrefines'⟩

/-- `TtDeviceListUnregister`, whether or not the device is in the list. -/
theorem Refines.unregister (h : Refines w t mapAt pinAt) (hD : t.added D = true) :
    ∃ w', ttDeviceListUnregister w D = some w' ∧
      Refines w' { t with devices := t.devices.erase D } mapAt pinAt := by
  have hlive : t.Live .devices := trivial
  have hnodup : t.devices.Nodup :=
    (List.nodup_cons.mp (h.circles.circle _ hlive).nodup).2.of_map _
  by_cases hmem : D ∈ t.devices
  · obtain ⟨pre, post, -, hsplit, herase⟩ := List.exists_erase_eq hmem
    have hnodes : t.nodes mapAt pinAt .devices =
        pre.map .device ++ .device D :: post.map .device := by
      simp [ListTable.nodes, hsplit]
    obtain ⟨m', hrun, hcircles, hal, -⟩ := h.circles.removeEntryList hlive hnodes
    have hflag : w.onDriverList D = true := (h.onDriverList D hD).mpr hmem
    refine ⟨_, by rw [ttDeviceListUnregister, if_pos hflag, hrun, Option.map_some], ?_⟩
    have hnodes' : ListTable.nodes { t with devices := t.devices.erase D } mapAt pinAt =
        Function.update (t.nodes mapAt pinAt) .devices (pre.map .device ++ post.map .device) := by
      funext i
      cases i <;> simp [ListTable.nodes, herase]
    exact {
      circles := by
        rw [hnodes']
        exact hcircles
      mappings := h.mappings
      pinnings := h.pinnings
      contexts := fun e he => (congrFun hal e).trans (h.contexts e he)
      records := fun a ha => h.records a ((congrFun hal _).symm.trans ha)
      onDriverList := by
        intro D' hD'
        simp only [hnodup.mem_erase_iff]
        by_cases hDD : D' = D
        · simp [hDD]
        · simp [h.onDriverList D' hD', hDD]
      onDeviceList := h.onDeviceList
      creatorProcess := h.creatorProcess
      added := fun D' hD' => h.added D' (List.mem_of_mem_erase hD')
      opened := h.opened }
  · have hflag : ¬ w.onDriverList D = true := fun hflag => hmem ((h.onDriverList D hD).mp hflag)
    refine ⟨w, if_neg hflag, ?_⟩
    rw [List.erase_of_not_mem hmem]
    exact h

/-- Contexts go when they are in no list that stays, and their own lists are empty. -/
theorem Refines.forget {added' : ℕ → Bool} {opened' : Handle → Bool} {gone : List ListNode}
    (h : Refines w t mapAt pinAt) (hw : Entries.Within gone w.entries m)
    (hfreed : w.entries.Freed m gone) (hadded : ∀ D, added' D = true → t.added D = true)
    (hopened : ∀ F, opened' F = true → t.opened F = true)
    (hgone : ∀ i, ListTable.Live { t with added := added', opened := opened' } i →
      ∀ e ∈ i.head :: t.nodes mapAt pinAt i, e ∉ gone)
    (hcontext : ∀ e, (∀ a, e ≠ .record a) →
      ListTable.hasContext { t with added := added', opened := opened' } e =
        (t.hasContext e && decide (e ∉ gone)))
    (hrecords : ∀ F, t.opened F = true → opened' F = true ∨ mapAt F = [] ∧ pinAt F = [])
    (hfiles : ∀ D, t.added D = true → added' D = true ∨ t.files D = [])
    (hdevices : ∀ D ∈ t.devices, added' D = true)
    (hlisted : ∀ D, t.added D = true → ∀ F ∈ t.files D, opened' F = true) :
    Refines (w.withEntries m) { t with added := added', opened := opened' } mapAt pinAt where
  circles := by
    have hlive : ∀ i, ListTable.Live { t with added := added', opened := opened' } i →
        t.Live i := by
      intro i hi
      cases i with
      | devices => trivial
      | files D => exact hadded D hi
      | mappings F => exact hopened F hi
      | pinnings F => exact hopened F hi
    exact (h.circles.restrict hlive fun _ _ => rfl).outside hw hgone
  mappings := fun F hF => h.mappings F (hopened F hF)
  pinnings := fun F hF => h.pinnings F (hopened F hF)
  contexts := by
    intro e he
    rw [hcontext e he, ← h.contexts e he]
    exact hfreed e
  records := by
    intro a ha
    rw [withEntries_entries, hfreed, Bool.and_eq_true] at ha
    obtain ⟨F, hF, hmem⟩ := h.records a ha.1
    rcases hrecords F hF with hF' | ⟨hmap, hpin⟩
    · exact ⟨F, hF', hmem⟩
    · simp [hmap, hpin] at hmem
  onDriverList := fun D hD => h.onDriverList D (hadded D hD)
  onDeviceList := by
    intro F hF
    apply (h.onDeviceList F (hopened F hF)).trans
    constructor
    · rintro ⟨D, hD, hmem⟩
      rcases hfiles D hD with hD' | hempty
      · exact ⟨D, hD', hmem⟩
      · simp [hempty] at hmem
    · rintro ⟨D, hD, hmem⟩
      exact ⟨D, hadded D hD, hmem⟩
  creatorProcess := fun F hF => h.creatorProcess F (hopened F hF)
  added := hdevices
  opened := fun D hD => hlisted D (hadded D hD)

/-- The lists in `TtEvtDeviceContextCleanup`, when the files of the device are closed. -/
theorem Refines.removeDevice (h : Refines w t mapAt pinAt) (hD : t.added D = true)
    (hfiles : t.files D = []) :
    ∃ w', TtKmd.removeDevice w D = some w' ∧
      Refines w' (t.perform (.removeDevice D)) mapAt pinAt := by
  obtain ⟨w₁, hrun, h₁⟩ := h.unregister hD
  have hnodup : t.devices.Nodup :=
    (List.nodup_cons.mp (h.circles.circle .devices trivial).nodup).2.of_map _
  have halDevice : w₁.entries.allocated (.device D) = true :=
    (h₁.contexts (.device D) (by simp)).trans hD
  have halFiles : w₁.entries.allocated (.files D) = true :=
    (h₁.contexts (.files D) (by simp)).trans hD
  obtain ⟨m₁, hfree₁, hw₁, hal₁⟩ := Entries.within_free halDevice
  have halFiles₁ : m₁.allocated (.files D) = true := by
    have hne : ListNode.files D ≠ .device D := by simp
    rw [hal₁, Function.update_of_ne hne]
    exact halFiles
  obtain ⟨m₂, hfree₂, hw₂, hal₂⟩ := Entries.within_free halFiles₁
  refine ⟨w₁.withEntries m₂, ?_, ?_⟩
  · simp [TtKmd.removeDevice, hrun, hfree₁, hfree₂, ListWorld.withEntries]
  · have hw : Entries.Within [.device D, .files D] w₁.entries m₂ := by
      have hw₁' : Entries.Within [.device D, .files D] w₁.entries m₁ := hw₁.mono (by simp)
      exact hw₁'.trans hw₂ (by simp)
    have hfreed : w₁.entries.Freed m₂ [.device D, .files D] := by
      intro e
      rw [hal₂, hal₁]
      by_cases hdevice : e = .device D
      · simp [hdevice]
      · by_cases hfile : e = .files D
        · simp [hfile]
        · simp [hdevice, hfile]
    apply h₁.forget hw hfreed
    · intro D' hD'
      by_cases hDD : D' = D
      · simp [hDD] at hD'
      · simpa [Function.update_of_ne hDD] using hD'
    · exact fun F hF => hF
    · intro i hi e he
      cases i with
      | devices =>
        simp only [ListId.head, ListTable.nodes, List.mem_cons, List.mem_map] at he
        rcases he with rfl | ⟨D', hD', rfl⟩
        · simp
        · have hDD : D' ≠ D := (hnodup.mem_erase_iff.mp hD').1
          simp [hDD]
      | files D' =>
        have hDD : D' ≠ D := by
          rintro rfl
          simp [ListTable.Live] at hi
        simp only [ListId.head, ListTable.nodes, List.mem_cons, List.mem_map] at he
        rcases he with rfl | ⟨F, -, rfl⟩
        · simp [hDD]
        · simp
      | mappings F =>
        simp only [ListId.head, ListTable.nodes, List.mem_cons, List.mem_map] at he
        rcases he with rfl | ⟨a, -, rfl⟩
        · simp
        · simp
      | pinnings F =>
        simp only [ListId.head, ListTable.nodes, List.mem_cons, List.mem_map] at he
        rcases he with rfl | ⟨a, -, rfl⟩
        · simp
        · simp
    · intro e he
      cases e with
      | device D' => by_cases hDD : D' = D <;> simp [ListTable.hasContext, hDD]
      | files D' => by_cases hDD : D' = D <;> simp [ListTable.hasContext, hDD]
      | _ => simp [ListTable.hasContext]
    · exact fun F hF => .inl hF
    · intro D' hD'
      by_cases hDD : D' = D
      · exact .inr (hDD ▸ hfiles)
      · left
        rw [Function.update_of_ne hDD]
        exact hD'
    · intro D' hD'
      obtain ⟨hDD, hmem⟩ := hnodup.mem_erase_iff.mp hD'
      rw [Function.update_of_ne hDD]
      exact h.added D' hmem
    · exact fun D' hD' => h₁.opened D' hD'

/-- The memory of a file context comes, with the heads of two empty lists in it. -/
theorem Refines.fileMemory (h : Refines w t mapAt pinAt) (hF : t.opened F = false) :
    ∃ m', (((((w.entries.allocate (.file F)).allocate (.mappings F)).allocate
        (.pinnings F)).initializeListHead (.mappings F)).bind fun m =>
          m.initializeListHead (.pinnings F)) = some m' ∧
      m'.Circles ListId.head (fun i => (t.Live i ∨ i = .mappings F) ∨ i = .pinnings F)
        (Function.update (Function.update (t.nodes mapAt pinAt) (.mappings F) [])
          (.pinnings F) []) ∧
      m'.allocated = (((w.entries.allocate (.file F)).allocate (.mappings F)).allocate
        (.pinnings F)).allocated := by
  have hfile := h.fresh ((h.contexts (.file F) (by simp)).trans hF)
  have hmappings := h.fresh ((h.contexts (.mappings F) (by simp)).trans hF)
  have hpinnings := h.fresh ((h.contexts (.pinnings F) (by simp)).trans hF)
  have hcs₀ := ((h.circles.allocate hfile).allocate hmappings).allocate hpinnings
  have hal₀ : (((w.entries.allocate (.file F)).allocate (.mappings F)).allocate
      (.pinnings F)).allocated (.mappings F) = true := by
    simp [Entries.allocated_allocate]
  obtain ⟨m₁, hrun₁, hc₁, hw₁, hal₁⟩ := Entries.circle_initializeListHead _ hal₀
  have hcs₁ : m₁.Circles ListId.head (fun i => t.Live i ∨ i = .mappings F)
      (Function.update (t.nodes mapAt pinAt) (.mappings F) []) := by
    have hw₁' : Entries.Within [(ListId.mappings F).head] _ m₁ := hw₁
    apply hcs₀.add hw₁' hc₁ hmappings
    · exact fun i hi => hi.symm
    · simp
    · exact fun i _ hne => Function.update_of_ne hne _ _
  have hal₁' : m₁.allocated (.pinnings F) = true := by
    rw [hal₁]
    simp [Entries.allocated_allocate]
  obtain ⟨m₂, hrun₂, hc₂, hw₂, hal₂⟩ := Entries.circle_initializeListHead _ hal₁'
  refine ⟨m₂, by simp [hrun₁, hrun₂], ?_, hal₂.trans hal₁⟩
  have hw₂' : Entries.Within [(ListId.pinnings F).head] m₁ m₂ := hw₂
  apply hcs₁.add hw₂' hc₂
  · intro i hi
    rcases hi with hi | rfl
    · by_cases hmap : i = .mappings F
      · simp [hmap, ListId.head]
      · rw [Function.update_of_ne hmap]
        exact hpinnings i hi
    · simp [ListId.head]
  · exact fun i hi => hi.symm
  · simp
  · exact fun i _ hne => Function.update_of_ne hne _ _

/-- A file context comes, with empty lists of its own; it is not in the list of a device yet. -/
theorem Refines.fileContext (h : Refines w t mapAt pinAt) (hF : t.opened F = false)
    (opener : Process) :
    ∃ m', (((((w.entries.allocate (.file F)).allocate (.mappings F)).allocate
        (.pinnings F)).initializeListHead (.mappings F)).bind fun m =>
          m.initializeListHead (.pinnings F)) = some m' ∧
      Refines
        { w with
          entries := m'
          onDeviceList := Function.update w.onDeviceList F false
          creatorProcess := Function.update w.creatorProcess F opener }
        { t with
          opened := Function.update t.opened F true
          creatorProcess := Function.update t.creatorProcess F opener
          mappings := Function.update t.mappings F []
          pinnings := Function.update t.pinnings F [] }
        (Function.update mapAt F []) (Function.update pinAt F []) := by
  obtain ⟨m', hrun, hcircles, hal⟩ := h.fileMemory hF
  refine ⟨m', hrun, ?_⟩
  exact {
    circles := by
      apply hcircles.restrict
      · intro i hi
        cases i with
        | devices => exact .inl (.inl trivial)
        | files D => exact .inl (.inl hi)
        | mappings G =>
          by_cases hGF : G = F
          · exact .inl (.inr (congrArg _ hGF))
          · left
            left
            simpa [ListTable.Live, Function.update_of_ne hGF] using hi
        | pinnings G =>
          by_cases hGF : G = F
          · exact .inr (congrArg _ hGF)
          · left
            left
            simpa [ListTable.Live, Function.update_of_ne hGF] using hi
      · intro i _
        cases i with
        | mappings G => by_cases hGF : G = F <;> simp [ListTable.nodes, hGF]
        | pinnings G => by_cases hGF : G = F <;> simp [ListTable.nodes, hGF]
        | _ => simp [ListTable.nodes]
    mappings := by
      intro G hG
      by_cases hGF : G = F
      · simp [hGF]
      · simp only [Function.update_of_ne hGF] at hG ⊢
        exact h.mappings G hG
    pinnings := by
      intro G hG
      by_cases hGF : G = F
      · simp [hGF]
      · simp only [Function.update_of_ne hGF] at hG ⊢
        exact h.pinnings G hG
    contexts := by
      intro e he
      have hold := h.contexts e he
      simp only [hal, Entries.allocate]
      cases e with
      | file G =>
        by_cases hGF : G = F
        · simp [ListTable.hasContext, hGF]
        · simpa [ListTable.hasContext, Function.update_apply, hGF] using hold
      | mappings G =>
        by_cases hGF : G = F
        · simp [ListTable.hasContext, hGF]
        · simpa [ListTable.hasContext, Function.update_apply, hGF] using hold
      | pinnings G =>
        by_cases hGF : G = F
        · simp [ListTable.hasContext, hGF]
        · simpa [ListTable.hasContext, Function.update_apply, hGF] using hold
      | _ => simpa [ListTable.hasContext, Function.update_apply] using hold
    records := by
      intro a ha
      have hold : w.entries.allocated (.record a) = true := by
        simpa [hal, Entries.allocate, Function.update_apply] using ha
      obtain ⟨G, hG, hmem⟩ := h.records a hold
      have hGF : G ≠ F := by
        rintro rfl
        rw [hF] at hG
        cases hG
      refine ⟨G, ?_, ?_⟩
      · simpa [Function.update_of_ne hGF] using hG
      · simpa [Function.update_of_ne hGF] using hmem
    onDriverList := h.onDriverList
    onDeviceList := by
      intro G hG
      by_cases hGF : G = F
      · have hout : ∀ D, t.added D = true → F ∉ t.files D := by
          intro D hD hmem
          rw [h.opened D hD F hmem] at hF
          cases hF
        simpa [hGF] using hout
      · simp only [Function.update_of_ne hGF] at hG ⊢
        exact h.onDeviceList G hG
    creatorProcess := by
      intro G hG
      by_cases hGF : G = F
      · simp [hGF]
      · simp only [Function.update_of_ne hGF] at hG ⊢
        exact h.creatorProcess G hG
    added := h.added
    opened := by
      intro D hD G hG
      by_cases hGF : G = F
      · simp [hGF]
      · simp only [Function.update_of_ne hGF]
        exact h.opened D hD G hG }

/-- The files of one device are replaced. -/
theorem nodes_files (fs : List Handle) :
    ListTable.nodes { t with files := Function.update t.files D fs } mapAt pinAt =
      Function.update (t.nodes mapAt pinAt) (.files D) (fs.map .file) := by
  funext i
  cases i with
  | files D' => by_cases hDD : D' = D <;> simp [ListTable.nodes, hDD]
  | _ => simp [ListTable.nodes]

/-- A file that is in no list is put into the list of a device. -/
theorem Refines.enlist (h : Refines w t mapAt pinAt) (hD : t.added D = true)
    (hF : t.opened F = true) (hout : ∀ D', t.added D' = true → F ∉ t.files D') :
    ∃ m', w.entries.insertTailList (.files D) (.file F) = some m' ∧
      Refines { w with entries := m', onDeviceList := Function.update w.onDeviceList F true }
        { t with files := Function.update t.files D (t.files D ++ [F]) } mapAt pinAt := by
  have hlive : t.Live (.files D) := hD
  have hfree : ∀ i, t.Live i → ListNode.file F ∉ i.head :: t.nodes mapAt pinAt i := by
    intro i hi
    cases i with
    | files D' => simpa [ListId.head, ListTable.nodes] using hout D' hi
    | _ => simp [ListId.head, ListTable.nodes]
  have hal : w.entries.allocated (.file F) = true := (h.contexts (.file F) (by simp)).trans hF
  obtain ⟨m', hrun, hcircles, hal'⟩ := h.circles.insertTailList hlive hfree hal
  refine ⟨m', hrun, ?_⟩
  exact {
    circles := by
      rw [nodes_files, List.map_append]
      exact hcircles
    mappings := h.mappings
    pinnings := h.pinnings
    contexts := fun e he => (congrFun hal' e).trans (h.contexts e he)
    records := fun a ha => h.records a ((congrFun hal' _).symm.trans ha)
    onDriverList := h.onDriverList
    onDeviceList := by
      intro G hG
      by_cases hGF : G = F
      · simp only [hGF, Function.update_self, true_iff]
        exact ⟨D, hD, by simp⟩
      · simp only [Function.update_of_ne hGF]
        apply (h.onDeviceList G hG).trans
        apply exists_congr
        intro D'
        by_cases hDD : D' = D
        · simp [hDD, hGF]
        · simp [Function.update_of_ne hDD]
    creatorProcess := h.creatorProcess
    added := h.added
    opened := by
      intro D' hD' G hG
      by_cases hDD : D' = D
      · simp only [hDD, Function.update_self, List.mem_append, List.mem_singleton] at hG
        rcases hG with hG | rfl
        · exact h.opened D hD G hG
        · exact hF
      · simp only [Function.update_of_ne hDD] at hG
        exact h.opened D' hD' G hG }

/-- The lists in `TtEvtDeviceFileCreate`. -/
theorem Refines.createFile (h : Refines w t mapAt pinAt) (hD : t.added D = true)
    (hF : t.opened F = false) (opener : Process) :
    ∃ w', TtKmd.createFile w D F opener = some w' ∧
      Refines w' (t.perform (.create D F opener)) (Function.update mapAt F [])
        (Function.update pinAt F []) := by
  have hout : ∀ D', t.added D' = true → F ∉ t.files D' := by
    intro D' hD' hmem
    rw [h.opened D' hD' F hmem] at hF
    cases hF
  obtain ⟨m₂, hrun, h₂⟩ := h.fileContext hF opener
  obtain ⟨m₁, hrun₁, hrun₂⟩ := Option.bind_eq_some_iff.mp hrun
  obtain ⟨m₃, hrun₃, h₃⟩ := h₂.enlist hD (by simp) hout
  refine ⟨_, ?_, h₃⟩
  simp [TtKmd.createFile, hrun₁, hrun₂, hrun₃]

/-- No file is twice in the list of a device. -/
theorem Refines.files_nodup (h : Refines w t mapAt pinAt) (hD : t.added D = true) :
    (t.files D).Nodup := by
  have hlive : t.Live (.files D) := hD
  exact (List.nodup_cons.mp (h.circles.circle _ hlive).nodup).2.of_map _

/-- A file is in the list of one device, and in none when it is taken out there. -/
theorem Refines.not_mem_erase (h : Refines w t mapAt pinAt) (hD : t.added D = true)
    (hF : F ∈ t.files D) {D' : ℕ} (hD' : t.added D' = true) :
    F ∉ Function.update t.files D ((t.files D).erase F) D' := by
  by_cases hDD : D' = D
  · simp [hDD, (h.files_nodup hD).mem_erase_iff]
  · rw [Function.update_of_ne hDD]
    intro hmem
    have hne : ListId.files D' ≠ .files D := fun heq => hDD (ListId.files.inj heq)
    apply h.circles.apart (.files D') (.files D) hD' hD hne (.file F)
    · exact List.mem_cons_of_mem _ (List.mem_map_of_mem hmem)
    · exact List.mem_cons_of_mem _ (List.mem_map_of_mem hF)

/-- The part of `TtEvtFileCleanup` under `FileListLock`, for a file in the list. -/
theorem Refines.delistFile (h : Refines w t mapAt pinAt) (hD : t.added D = true)
    (hF : F ∈ t.files D) :
    ∃ w', TtKmd.delistFile w F = some w' ∧
      Refines w' { t with files := Function.update t.files D ((t.files D).erase F) } mapAt
        pinAt := by
  have hlive : t.Live (.files D) := hD
  have hopened := h.opened D hD F hF
  have hnodup := h.files_nodup hD
  obtain ⟨pre, post, -, hsplit, herase⟩ := List.exists_erase_eq hF
  have hnodes : t.nodes mapAt pinAt (.files D) = pre.map .file ++ .file F :: post.map .file := by
    simp [ListTable.nodes, hsplit]
  obtain ⟨m', hrun, hcircles, hal, -⟩ := h.circles.removeEntryList hlive hnodes
  have hflag : w.onDeviceList F = true := (h.onDeviceList F hopened).mpr ⟨D, hD, hF⟩
  refine ⟨_, by rw [TtKmd.delistFile, if_pos hflag, hrun, Option.map_some], ?_⟩
  exact {
    circles := by
      rw [nodes_files, herase, List.map_append]
      exact hcircles
    mappings := h.mappings
    pinnings := h.pinnings
    contexts := fun e he => (congrFun hal e).trans (h.contexts e he)
    records := fun a ha => h.records a ((congrFun hal _).symm.trans ha)
    onDriverList := h.onDriverList
    onDeviceList := by
      intro G hG
      by_cases hGF : G = F
      · simp only [hGF, Function.update_self, Bool.false_eq_true, false_iff, not_exists, not_and]
        exact fun D' hD' => h.not_mem_erase hD hF hD'
      · simp only [Function.update_of_ne hGF]
        apply (h.onDeviceList G hG).trans
        apply exists_congr
        intro D'
        by_cases hDD : D' = D
        · simp [hDD, hnodup.mem_erase_iff, hGF]
        · simp [Function.update_of_ne hDD]
    creatorProcess := h.creatorProcess
    added := h.added
    opened := by
      intro D' hD' G hG
      by_cases hDD : D' = D
      · simp only [hDD, Function.update_self] at hG
        exact h.opened D hD G (List.mem_of_mem_erase hG)
      · simp only [Function.update_of_ne hDD] at hG
        exact h.opened D' hD' G hG }

/-- The file context goes, when its lists are empty and it is in none. -/
theorem Refines.freeFile (h : Refines w t mapAt pinAt) (hF : t.opened F = true)
    (hout : ∀ D, t.added D = true → F ∉ t.files D) (hmap : mapAt F = []) (hpin : pinAt F = []) :
    ∃ m, ((w.entries.free (.file F)).bind fun m =>
        (m.free (.mappings F)).bind fun m => m.free (.pinnings F)) = some m ∧
      Refines (w.withEntries m) { t with opened := Function.update t.opened F false } mapAt
        pinAt := by
  have hal : ∀ e ∈ [ListNode.file F, .mappings F, .pinnings F], w.entries.allocated e = true := by
    intro e he
    simp only [List.mem_cons, List.not_mem_nil, or_false] at he
    rcases he with rfl | rfl | rfl
    · exact (h.contexts (.file F) (by simp)).trans hF
    · exact (h.contexts (.mappings F) (by simp)).trans hF
    · exact (h.contexts (.pinnings F) (by simp)).trans hF
  obtain ⟨m₁, hfree₁, hw₁, hal₁⟩ := Entries.within_free (hal (.file F) (by simp))
  have hmappings : m₁.allocated (.mappings F) = true := by
    simpa [hal₁] using hal (.mappings F) (by simp)
  obtain ⟨m₂, hfree₂, hw₂, hal₂⟩ := Entries.within_free hmappings
  have hpinnings : m₂.allocated (.pinnings F) = true := by
    simpa [hal₁, hal₂] using hal (.pinnings F) (by simp)
  obtain ⟨m₃, hfree₃, hw₃, hal₃⟩ := Entries.within_free hpinnings
  refine ⟨m₃, by simp [hfree₁, hfree₂, hfree₃], ?_⟩
  have hw : Entries.Within [.file F, .mappings F, .pinnings F] w.entries m₃ := by
    have hw₁' : Entries.Within [.file F, .mappings F, .pinnings F] w.entries m₁ :=
      hw₁.mono (by simp)
    exact (hw₁'.trans hw₂ (by simp)).trans hw₃ (by simp)
  have hfreed : w.entries.Freed m₃ [.file F, .mappings F, .pinnings F] := by
    intro e
    rw [hal₃, hal₂, hal₁]
    simp only [Function.update_apply, List.mem_cons, List.not_mem_nil, or_false]
    by_cases hpin : e = .pinnings F
    · simp [hpin]
    · by_cases hmap : e = .mappings F
      · simp [hmap]
      · by_cases hfile : e = .file F
        · simp [hfile]
        · simp [hpin, hmap, hfile]
  apply h.forget hw hfreed
  · exact fun D hD => hD
  · intro G hG
    by_cases hGF : G = F
    · simp [hGF] at hG
    · simpa [Function.update_of_ne hGF] using hG
  · intro i hi e he
    cases i with
    | devices =>
      simp only [ListId.head, ListTable.nodes, List.mem_cons, List.mem_map] at he
      rcases he with rfl | ⟨D, -, rfl⟩
      · simp
      · simp
    | files D =>
      simp only [ListId.head, ListTable.nodes, List.mem_cons, List.mem_map] at he
      rcases he with rfl | ⟨G, hG, rfl⟩
      · simp
      · have hGF : G ≠ F := by
          rintro rfl
          exact hout D hi hG
        simp [hGF]
    | mappings G =>
      have hGF : G ≠ F := by
        rintro rfl
        simp [ListTable.Live] at hi
      simp only [ListId.head, ListTable.nodes, List.mem_cons, List.mem_map] at he
      rcases he with rfl | ⟨a, -, rfl⟩
      · simp [hGF]
      · simp
    | pinnings G =>
      have hGF : G ≠ F := by
        rintro rfl
        simp [ListTable.Live] at hi
      simp only [ListId.head, ListTable.nodes, List.mem_cons, List.mem_map] at he
      rcases he with rfl | ⟨a, -, rfl⟩
      · simp [hGF]
      · simp
  · intro e he
    cases e with
    | file G => by_cases hGF : G = F <;> simp [ListTable.hasContext, hGF]
    | mappings G => by_cases hGF : G = F <;> simp [ListTable.hasContext, hGF]
    | pinnings G => by_cases hGF : G = F <;> simp [ListTable.hasContext, hGF]
    | _ => simp [ListTable.hasContext]
  · intro G hG
    by_cases hGF : G = F
    · exact .inr ⟨hGF ▸ hmap, hGF ▸ hpin⟩
    · left
      rw [Function.update_of_ne hGF]
      exact hG
  · exact fun D hD => .inl hD
  · exact h.added
  · intro D hD G hG
    have hGF : G ≠ F := by
      rintro rfl
      exact hout D hD hG
    rw [Function.update_of_ne hGF]
    exact h.opened D hD G hG

end Contexts

end TtKmd
