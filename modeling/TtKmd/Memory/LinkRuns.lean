import TtKmd.Memory.LinkContexts

/-!
# Runs over the lists in memory

The loops over several files and over all devices run the operation on each file in the order
of the list, with the list itself left in place. With them every operation of the driver is
covered, and a run of any length has no fault: a loop makes at most one round more than there
were operations before it, and the memory that is allocated after a run is that of the contexts
and of the records in their lists.
-/

namespace TtKmd

open Lib

/-- Only the records of files became fewer. -/
structure Narrows (t t' : ListTable) : Prop where
  /-- The device contexts are the same. -/
  added : t'.added = t.added
  /-- The devices are the same. -/
  devices : t'.devices = t.devices
  /-- The files of the devices are the same. -/
  files : t'.files = t.files
  /-- The file contexts are the same. -/
  opened : t'.opened = t.opened
  /-- There are not more mappings. -/
  mappings : ∀ F, (t'.mappings F).length ≤ (t.mappings F).length
  /-- There are not more pinnings. -/
  pinnings : ∀ F, (t'.pinnings F).length ≤ (t.pinnings F).length

/-- Every list is shorter than a bound. -/
structure ListTable.Bounded (n : ℕ) (t : ListTable) : Prop where
  /-- The list of the devices. -/
  devices : t.devices.length < n
  /-- The list of the files of a device. -/
  files : ∀ D, (t.files D).length < n
  /-- The list of the mappings of a file. -/
  mappings : ∀ F, (t.mappings F).length < n
  /-- The list of the pinnings of a file. -/
  pinnings : ∀ F, (t.pinnings F).length < n

section Loops

variable {w : ListWorld} {t t' : ListTable} {mapAt pinAt : Handle → List ℕ} {F : Handle} {D n : ℕ}

/-- Nothing became fewer. -/
theorem Narrows.refl (t : ListTable) : Narrows t t :=
  ⟨rfl, rfl, rfl, rfl, fun _ => le_rfl, fun _ => le_rfl⟩

/-- Two operations in a row. -/
theorem Narrows.trans {t'' : ListTable} (h : Narrows t t') (h' : Narrows t' t'') :
    Narrows t t'' where
  added := h'.added.trans h.added
  devices := h'.devices.trans h.devices
  files := h'.files.trans h.files
  opened := h'.opened.trans h.opened
  mappings := fun F => (h'.mappings F).trans (h.mappings F)
  pinnings := fun F => (h'.pinnings F).trans (h.pinnings F)

/-- A fold of operations that take records. -/
theorem narrows_foldl {α : Type} {f : ListTable → α → ListTable}
    (hf : ∀ t x, Narrows t (f t x)) (xs : List α) (t : ListTable) :
    Narrows t (xs.foldl f t) := by
  induction xs generalizing t with
  | nil => exact .refl t
  | cons x xs ih => exact (hf t x).trans (ih (f t x))

/-- A larger bound. -/
theorem ListTable.Bounded.mono {b : ℕ} (h : t.Bounded b) (hle : b ≤ n) : t.Bounded n where
  devices := h.devices.trans_le hle
  files := fun D => (h.files D).trans_le hle
  mappings := fun F => (h.mappings F).trans_le hle
  pinnings := fun F => (h.pinnings F).trans_le hle

/-- The bound of the lists stays. -/
theorem Narrows.bounded (h : Narrows t t') (hn : t.Bounded n) : t'.Bounded n where
  devices := h.devices ▸ hn.devices
  files := h.files ▸ hn.files
  mappings := fun F => (h.mappings F).trans_lt (hn.mappings F)
  pinnings := fun F => (h.pinnings F).trans_lt (hn.pinnings F)

/-- The mappings of a file become fewer. -/
theorem narrows_setMappings {vs : List UserMapping} (hvs : vs.length ≤ (t.mappings F).length) :
    Narrows t (t.setMappings F vs) := by
  refine ⟨rfl, rfl, rfl, rfl, ?_, fun _ => le_rfl⟩
  intro G
  by_cases hGF : G = F
  · simpa [ListTable.setMappings, hGF] using hvs
  · simp [ListTable.setMappings, hGF]

/-- The pinnings of a file become fewer. -/
theorem narrows_setPinnings {ps : List Pinning} (hps : ps.length ≤ (t.pinnings F).length) :
    Narrows t (t.setPinnings F ps) := by
  refine ⟨rfl, rfl, rfl, rfl, fun _ => le_rfl, ?_⟩
  intro G
  by_cases hGF : G = F
  · simpa [ListTable.setPinnings, hGF] using hps
  · simp [ListTable.setPinnings, hGF]

/-- A file is drained. -/
theorem narrows_drain (t : ListTable) (F : Handle) : Narrows t (t.drain F) :=
  (narrows_setMappings (Nat.zero_le _)).trans (narrows_setPinnings (Nat.zero_le _))

/-- The mappings that a reset takes go. -/
theorem narrows_zapFile (t : ListTable) (F : Handle) : Narrows t (t.zapFile F) :=
  narrows_setMappings (List.length_filter_le _ _)

/-- A file is drained or not. -/
theorem narrows_notifyFile (process : Process) (t : ListTable) (F : Handle) :
    Narrows t (t.notifyFile process F) := by
  unfold ListTable.notifyFile
  split
  · exact narrows_drain t F
  · exact .refl t

/-- The files of a device are drained or not. -/
theorem narrows_notifyDevice (process : Process) (t : ListTable) (D : ℕ) :
    Narrows t (t.notifyDevice process D) := narrows_foldl (narrows_notifyFile process) _ t

/-- The addresses of the mappings are as many as the mappings. -/
theorem Refines.length_mapAt (h : Refines w t mapAt pinAt) (hF : t.opened F = true) :
    (mapAt F).length = (t.mappings F).length := by
  rw [← h.mappings F hF, List.length_map]

/-- The addresses of the pinnings are as many as the pinnings. -/
theorem Refines.length_pinAt (h : Refines w t mapAt pinAt) (hF : t.opened F = true) :
    (pinAt F).length = (t.pinnings F).length := by
  rw [← h.pinnings F hF, List.length_map]

/-- A loop over a list whose body does not change the list, but may take records: it does for
the values, entry after entry, what the body does. -/
theorem Refines.forEach {α : Type} (entry : α → ListNode) (head : ListId) {xs : List α}
    {f : ListTable → α → ListTable} {body : ListWorld → ListNode → Option ListWorld}
    (hentry : Function.Injective entry) (hf : ∀ t x, Narrows t (f t x))
    (hlive : ∀ t', Narrows t t' → t'.Live head)
    (hnodes : ∀ t' mapAt pinAt, Narrows t t' → t'.nodes mapAt pinAt head = xs.map entry)
    (hbody : ∀ w t' mapAt pinAt x, Narrows t t' → Refines w t' mapAt pinAt → x ∈ xs →
      ∃ w' mapAt' pinAt', body w (entry x) = some w' ∧ Refines w' (f t' x) mapAt' pinAt')
    (h : Refines w t mapAt pinAt) (hn : xs.length < n) :
    ∃ w' mapAt' pinAt', Entries.forEach ListWorld.entries head.head body n w = some w' ∧
      Refines w' (xs.foldl f t) mapAt' pinAt' := by
  -- the entries that are done belong to a prefix of the list
  let inv : List ListNode → ListWorld → Prop := fun done s =>
    ∃ (ys : List α) (mapAt' pinAt' : Handle → List ℕ),
      done = ys.map entry ∧ Refines s (ys.foldl f t) mapAt' pinAt'
  have hlist : ∀ done s, inv done s → s.entries.Circle head.head (xs.map entry) := by
    rintro done s ⟨ys, mapAt', pinAt', -, hs⟩
    have hnarrows := narrows_foldl hf ys t
    have hc := hs.circles.circle head (hlive _ hnarrows)
    rwa [hnodes _ _ _ hnarrows] at hc
  have hstep : ∀ done e rest s, xs.map entry = done ++ e :: rest → inv done s →
      ∃ s', body s e = some s' ∧ inv (done ++ [e]) s' := by
    rintro done e rest s hsplit ⟨ys, mapAt', pinAt', rfl, hs⟩
    have hmem : e ∈ xs.map entry := by
      rw [hsplit]
      simp
    obtain ⟨x, hx, rfl⟩ := List.mem_map.mp hmem
    obtain ⟨s', mapAt'', pinAt'', hrun, hs'⟩ :=
      hbody s _ mapAt' pinAt' x (narrows_foldl hf ys t) hs hx
    refine ⟨s', hrun, ys ++ [x], mapAt'', pinAt'', by simp, ?_⟩
    rw [List.foldl_append]
    exact hs'
  have hstart : inv [] w := ⟨[], mapAt, pinAt, rfl, h⟩
  obtain ⟨w', hrun, ys, mapAt', pinAt', hys, hw'⟩ :=
    Entries.Circle.forEach hlist hstep hstart (by simpa using hn)
  obtain rfl : xs = ys := List.map_injective_iff.mpr hentry hys
  exact ⟨w', mapAt', pinAt', hrun, hw'⟩

/-- `TtResetZapMappings`. -/
theorem Refines.resetZap (h : Refines w t mapAt pinAt) (hn : t.Bounded n)
    (hD : t.added D = true) :
    ∃ w' mapAt' pinAt', TtKmd.resetZap n w D = some w' ∧
      Refines w' (t.perform (.zap D)) mapAt' pinAt' := by
  apply h.forEach .file (.files D) _ narrows_zapFile _ _ _ (hn.files D)
  · exact fun _ _ heq => ListNode.file.inj heq
  · intro t' ht'
    simpa [ListTable.Live, ht'.added] using hD
  · intro t' _ _ ht'
    simp [ListTable.nodes, ht'.files]
  · intro w₁ t' mapAt' pinAt' F ht' h' hF
    have hopened : t'.opened F = true := by
      rw [ht'.opened]
      exact h.opened D hD F hF
    have hlt : (mapAt' F).length < n := by
      rw [h'.length_mapAt hopened]
      exact (ht'.bounded hn).mappings F
    obtain ⟨w', hrun, hw'⟩ := h'.zapFile hopened hlt
    exact ⟨w', _, _, hrun, hw'⟩

/-- The body of the inner loop of `TtProcessNotify`. -/
theorem Refines.notifyFile (h : Refines w t mapAt pinAt) (hn : t.Bounded n)
    (hF : t.opened F = true) (process : Process) :
    ∃ w' mapAt' pinAt', TtKmd.notifyFile n process w (.file F) = some w' ∧
      Refines w' (t.notifyFile process F) mapAt' pinAt' := by
  have hcreator := h.creatorProcess F hF
  by_cases hprocess : t.creatorProcess F = process
  · have hmap : (mapAt F).length < n := by
      rw [h.length_mapAt hF]
      exact hn.mappings F
    have hpin : (pinAt F).length < n := by
      rw [h.length_pinAt hF]
      exact hn.pinnings F
    obtain ⟨w', hrun, hw'⟩ := h.drainFile hF hmap hpin
    refine ⟨w', Function.update mapAt F [], Function.update pinAt F [], ?_, ?_⟩
    · simp [TtKmd.notifyFile, hcreator, hprocess, hrun]
    · rw [ListTable.notifyFile, if_pos hprocess]
      exact hw'
  · refine ⟨w, mapAt, pinAt, ?_, ?_⟩
    · simp [TtKmd.notifyFile, hcreator, hprocess]
    · rw [ListTable.notifyFile, if_neg hprocess]
      exact h

/-- The body of the outer loop of `TtProcessNotify`. -/
theorem Refines.notifyDevice (h : Refines w t mapAt pinAt) (hn : t.Bounded n)
    (hD : t.added D = true) (process : Process) :
    ∃ w' mapAt' pinAt', TtKmd.notifyDevice n process w (.device D) = some w' ∧
      Refines w' (t.notifyDevice process D) mapAt' pinAt' := by
  apply h.forEach .file (.files D) _ (narrows_notifyFile process) _ _ _
    (hn.files D)
  · exact fun _ _ heq => ListNode.file.inj heq
  · intro t' ht'
    simpa [ListTable.Live, ht'.added] using hD
  · intro t' _ _ ht'
    simp [ListTable.nodes, ht'.files]
  · intro w₁ t' mapAt' pinAt' F ht' h' hF
    apply h'.notifyFile (ht'.bounded hn)
    rw [ht'.opened]
    exact h.opened D hD F hF

/-- `TtProcessNotify`. -/
theorem Refines.processNotify (h : Refines w t mapAt pinAt) (hn : t.Bounded n)
    (process : Process) :
    ∃ w' mapAt' pinAt', TtKmd.processNotify n w process = some w' ∧
      Refines w' (t.perform (.processNotify process)) mapAt' pinAt' := by
  apply h.forEach .device .devices _ (narrows_notifyDevice process) _ _ _
    hn.devices
  · exact fun _ _ heq => ListNode.device.inj heq
  · exact fun _ _ => trivial
  · intro t' _ _ ht'
    simp [ListTable.nodes, ht'.devices]
  · intro w₁ t' mapAt' pinAt' D ht' h' hD
    apply h'.notifyDevice (ht'.bounded hn)
    rw [ht'.added]
    exact h.added D hD

/-- The lists in `TtEvtFileCleanup`. -/
theorem Refines.cleanupFile (h : Refines w t mapAt pinAt) (hn : t.Bounded n)
    (hD : t.added D = true) (hF : F ∈ t.files D) :
    ∃ w' mapAt' pinAt', TtKmd.cleanupFile n w F = some w' ∧
      Refines w' (t.perform (.cleanup D F)) mapAt' pinAt' := by
  have hopened := h.opened D hD F hF
  obtain ⟨w₁, hrun₁, h₁⟩ := h.delistFile hD hF
  have hmap : (mapAt F).length < n := by
    rw [h.length_mapAt hopened]
    exact hn.mappings F
  have hpin : (pinAt F).length < n := by
    rw [h.length_pinAt hopened]
    exact hn.pinnings F
  obtain ⟨w₂, hrun₂, h₂⟩ := h₁.drainFile hopened hmap hpin
  obtain ⟨m, hrun₃, h₃⟩ :=
    h₂.freeFile hopened (fun D' hD' => h.not_mem_erase hD hF hD') (by simp) (by simp)
  refine ⟨w₂.withEntries m, _, _, ?_, h₃⟩
  obtain ⟨m₁, hfree₁, hrest⟩ := Option.bind_eq_some_iff.mp hrun₃
  obtain ⟨m₂, hfree₂, hfree₃⟩ := Option.bind_eq_some_iff.mp hrest
  simp [TtKmd.cleanupFile, hrun₁, hrun₂, hfree₁, hfree₂, hfree₃]

/-- A search over the mappings of a file finds the first of the values. -/
theorem Refines.findMapping (h : Refines w t mapAt pinAt) (hn : t.Bounded n)
    (hF : t.opened F = true) (test : UserMapping → Bool) :
    TtKmd.findMapping n w F test = some ((t.mappings F).find? test) := by
  have hlive : t.Live (.mappings F) := hF
  have hlt : ((mapAt F).map ListNode.record).length < n := by
    rw [List.length_map, h.length_mapAt hF]
    exact hn.mappings F
  have hfind : w.entries.findEntry (.mappings F) (w.testMapping test) n =
      some (((mapAt F).map .record).find? (w.testMapping test)) :=
    (h.circles.circle _ hlive).findEntry hlt
  rw [find_record _ (fun a => test (w.mapping a)) fun _ => rfl] at hfind
  rw [TtKmd.findMapping, hfind, ← h.mappings F hF, List.find?_map, Option.map_some]
  congr 1
  change _ = ((mapAt F).find? fun a => test (w.mapping a)).map w.mapping
  cases (mapAt F).find? fun a => test (w.mapping a) with
  | none => rfl
  | some a => rfl

/-- A search over the pinnings of a file finds the first of the values. -/
theorem Refines.findPinning (h : Refines w t mapAt pinAt) (hn : t.Bounded n)
    (hF : t.opened F = true) (test : Pinning → Bool) :
    TtKmd.findPinning n w F test = some ((t.pinnings F).find? test) := by
  have hlive : t.Live (.pinnings F) := hF
  have hlt : ((pinAt F).map ListNode.record).length < n := by
    rw [List.length_map, h.length_pinAt hF]
    exact hn.pinnings F
  have hfind : w.entries.findEntry (.pinnings F) (w.testPinning test) n =
      some (((pinAt F).map .record).find? (w.testPinning test)) :=
    (h.circles.circle _ hlive).findEntry hlt
  rw [find_record _ (fun a => test (w.pinning a)) fun _ => rfl] at hfind
  rw [TtKmd.findPinning, hfind, ← h.pinnings F hF, List.find?_map, Option.map_some]
  congr 1
  change _ = ((pinAt F).find? fun a => test (w.pinning a)).map w.pinning
  cases (pinAt F).find? fun a => test (w.pinning a) with
  | none => rfl
  | some a => rfl

/-- The loop over the files of a device visits them in their order. -/
theorem Refines.visitFiles (h : Refines w t mapAt pinAt) (hn : t.Bounded n)
    (hD : t.added D = true) : TtKmd.visitFiles n w D = some (t.files D) := by
  have hlive : t.Live (.files D) := hD
  let inv : List ListNode → ListWorld × List Handle → Prop := fun done s =>
    s.1 = w ∧ done = s.2.map .file
  have hlist : ∀ done s, inv done s → s.1.entries.Circle (.files D) ((t.files D).map .file) := by
    rintro done s ⟨hw, -⟩
    rw [hw]
    exact h.circles.circle _ hlive
  have hstep : ∀ done e rest s, (t.files D).map .file = done ++ e :: rest → inv done s →
      ∃ s', visitFile s e = some s' ∧ inv (done ++ [e]) s' := by
    rintro done e rest s hsplit ⟨hw, hdone⟩
    have hmem : e ∈ (t.files D).map ListNode.file := by
      rw [hsplit]
      simp
    obtain ⟨F, -, rfl⟩ := List.mem_map.mp hmem
    exact ⟨_, rfl, hw, by simp [hdone]⟩
  have hlt : ((t.files D).map ListNode.file).length < n := by
    rw [List.length_map]
    exact hn.files D
  have hstart : inv [] (w, []) := ⟨rfl, rfl⟩
  obtain ⟨s', hrun, -, hvisited⟩ := Entries.Circle.forEach hlist hstep hstart hlt
  have hfiles : t.files D = s'.2 :=
    List.map_injective_iff.mpr (fun _ _ heq => ListNode.file.inj heq) hvisited
  rw [hfiles, TtKmd.visitFiles, hrun, Option.map_some]

/-- The bound on the lists grows by at most one with an operation. -/
theorem ListTable.Bounded.perform (hn : t.Bounded n) (op : ListOp) :
    (t.perform op).Bounded (n + 1) := by
  have hold : t.Bounded (n + 1) := hn.mono (Nat.le_succ n)
  cases op with
  | addDevice D registers =>
    refine ⟨?_, ?_, hold.mappings, hold.pinnings⟩
    · have hlt := hn.devices
      cases registers <;> simp [ListTable.perform] <;> omega
    · intro D'
      by_cases hDD : D' = D
      · simp [ListTable.perform, hDD]
      · simpa [ListTable.perform, hDD] using hold.files D'
  | removeDevice D =>
    exact ⟨(List.length_erase_le).trans_lt hold.devices, hold.files, hold.mappings, hold.pinnings⟩
  | create D F opener =>
    refine ⟨hold.devices, ?_, ?_, ?_⟩
    · intro D'
      by_cases hDD : D' = D
      · simpa [ListTable.perform, hDD] using hn.files D
      · simpa [ListTable.perform, hDD] using hold.files D'
    · intro G
      by_cases hGF : G = F
      · simp [ListTable.perform, hGF]
      · simpa [ListTable.perform, hGF] using hold.mappings G
    · intro G
      by_cases hGF : G = F
      · simp [ListTable.perform, hGF]
      · simpa [ListTable.perform, hGF] using hold.pinnings G
  | cleanup D F =>
    have hdrain := (narrows_drain t F).bounded hold
    refine ⟨hold.devices, ?_, hdrain.mappings, hdrain.pinnings⟩
    intro D'
    by_cases hDD : D' = D
    · have hle := List.length_erase_le (a := F) (l := t.files D)
      simpa [ListTable.perform, hDD] using hle.trans_lt (hold.files D)
    · simpa [ListTable.perform, hDD] using hold.files D'
  | map F a v =>
    refine ⟨hold.devices, hold.files, ?_, hold.pinnings⟩
    intro G
    by_cases hGF : G = F
    · simpa [ListTable.perform, ListTable.setMappings, hGF] using hn.mappings F
    · simpa [ListTable.perform, ListTable.setMappings, hGF] using hold.mappings G
  | unmap F userVa => exact (narrows_setMappings (List.length_eraseP_le)).bounded hold
  | pin F a p =>
    refine ⟨hold.devices, hold.files, hold.mappings, ?_⟩
    intro G
    by_cases hGF : G = F
    · simpa [ListTable.perform, ListTable.setPinnings, hGF] using hn.pinnings F
    · simpa [ListTable.perform, ListTable.setPinnings, hGF] using hold.pinnings G
  | unpin F va size =>
    simp only [ListTable.perform]
    split
    · exact hold
    · split
      · exact (narrows_setPinnings (List.length_eraseP_le)).bounded hold
      · exact hold
  | zap D => exact (narrows_foldl narrows_zapFile _ t).bounded hold
  | processNotify process => exact (narrows_foldl (narrows_notifyDevice process) _ t).bounded hold

/-- An operation that is allowed ends without a fault, and does to the lists in memory what it
does to their values. -/
theorem Refines.perform (h : Refines w t mapAt pinAt) (hn : t.Bounded n) {op : ListOp}
    (hop : op.Allowed w t) :
    ∃ w' mapAt' pinAt', w.perform n op = some w' ∧ Refines w' (t.perform op) mapAt' pinAt' := by
  cases op with
  | addDevice D registers =>
    obtain ⟨w', hrun, hw'⟩ := h.addDevice hop registers
    exact ⟨w', _, _, hrun, hw'⟩
  | removeDevice D =>
    obtain ⟨w', hrun, hw'⟩ := h.removeDevice hop.1 hop.2
    exact ⟨w', _, _, hrun, hw'⟩
  | create D F opener =>
    obtain ⟨w', hrun, hw'⟩ := h.createFile hop.1 hop.2 opener
    exact ⟨w', _, _, hrun, hw'⟩
  | cleanup D F => exact h.cleanupFile hn hop.1 hop.2
  | map F a v =>
    obtain ⟨w', hrun, hw'⟩ := h.insertMapping hop.1 hop.2 v
    exact ⟨w', _, _, hrun, hw'⟩
  | unmap F userVa =>
    obtain ⟨w', mapAt', hrun, hw'⟩ :=
      h.unmapEntry hop (by rw [h.length_mapAt hop]; exact hn.mappings F) userVa
    exact ⟨w', mapAt', _, hrun, hw'⟩
  | pin F a p =>
    obtain ⟨w', hrun, hw'⟩ := h.insertPinning hop.1 hop.2 p
    exact ⟨w', _, _, hrun, hw'⟩
  | unpin F va size =>
    obtain ⟨w', pinAt', hrun, hw'⟩ :=
      h.unpinEntry hop (by rw [h.length_pinAt hop]; exact hn.pinnings F) va size
    exact ⟨w', _, pinAt', hrun, hw'⟩
  | zap D => exact h.resetZap hn hop
  | processNotify process => exact h.processNotify hn process

end Loops

/-! ## Runs -/

/-- The list in `DriverEntry`. -/
def ListWorld.driverEntry (w : ListWorld) : Option ListWorld :=
  ((w.entries.allocate .devices).initializeListHead .devices).map w.withEntries

/-- The memory and the values go the same way; a loop of more than `n` rounds is no step. -/
def listStep (n : ℕ) (s : ListWorld × ListTable) (op : ListOp) (s' : ListWorld × ListTable) :
    Prop :=
  op.Allowed s.1 s.2 ∧ s.1.perform n op = some s'.1 ∧ s'.2 = s.2.perform op

/-- The loaded driver has its list, and nothing else. -/
theorem refines_driverEntry {w w' : ListWorld} (hempty : ∀ e, w.entries.allocated e = false)
    (hload : w.driverEntry = some w') :
    Refines w' ListTable.init (fun _ => []) fun _ => [] := by
  have hal : (w.entries.allocate .devices).allocated .devices = true := by
    rw [Entries.allocated_allocate]
    exact .inl rfl
  obtain ⟨m, hrun, hc, -, hal'⟩ := Entries.circle_initializeListHead _ hal
  obtain rfl : w.withEntries m = w' := by simpa [ListWorld.driverEntry, hrun] using hload
  exact {
    circles := by
      constructor
      · intro i hi
        cases i with
        | devices => exact hc
        | _ => cases hi
      · intro i j hi hj hij
        cases i with
        | devices =>
          cases j with
          | devices => exact absurd rfl hij
          | _ => cases hj
        | _ => cases hi
    mappings := nofun
    pinnings := nofun
    contexts := by
      intro e _
      rw [withEntries_entries, hal']
      cases e <;> simp [Entries.allocate, hempty, ListTable.hasContext, ListTable.init]
    records := by
      intro a ha
      rw [withEntries_entries, hal', Entries.allocated_allocate] at ha
      rcases ha with ha | ha
      · cases ha
      · rw [hempty] at ha
        cases ha
    onDriverList := nofun
    onDeviceList := nofun
    creatorProcess := nofun
    added := nofun
    opened := nofun }

/-- The relation, and a bound on the lists that grows with the operations, hold after a run. -/
theorem refines_of_run {n b : ℕ} {s s' : ListWorld × ListTable} {ops : List ListOp}
    (hs : ∃ mapAt pinAt, Refines s.1 s.2 mapAt pinAt) (hb : s.2.Bounded b)
    (hrun : Run (listStep n) s ops s') (hn : b + ops.length ≤ n) :
    (∃ mapAt pinAt, Refines s'.1 s'.2 mapAt pinAt) ∧ s'.2.Bounded (b + ops.length) := by
  induction hrun generalizing b with
  | nil s => exact ⟨hs, hb⟩
  | @cons s s₁ s₂ op ops hstep _ ih =>
    obtain ⟨hop, hperform, hvalue⟩ := hstep
    obtain ⟨mapAt, pinAt, h⟩ := hs
    have hbn : s.2.Bounded n := hb.mono ((Nat.le_add_right b _).trans hn)
    obtain ⟨w', mapAt', pinAt', hperform', h'⟩ := h.perform hbn hop
    obtain rfl : s₁.1 = w' := Option.some.inj (hperform.symm.trans hperform')
    have hlength : b + (op :: ops).length = b + 1 + ops.length := by
      simp only [List.length_cons]
      omega
    rw [hlength] at hn ⊢
    rw [← hvalue] at h'
    exact ih ⟨mapAt', pinAt', h'⟩ (hvalue ▸ hb.perform op) hn

/-- After a run of any length the lists in memory are those of the values and no memory is
lost. Every operation that is allowed next ends without a fault, and the loops that only read
find what the values have; a loop takes at most one round more than there were operations. -/
theorem lists_never_fault {n : ℕ} {w₀ w₁ w : ListWorld} {t : ListTable} {ops : List ListOp}
    (hempty : ∀ e, w₀.entries.allocated e = false) (hload : w₀.driverEntry = some w₁)
    (hrun : Run (listStep n) (w₁, ListTable.init) ops (w, t)) (hn : ops.length < n) :
    (∃ mapAt pinAt, Refines w t mapAt pinAt) ∧
      (∀ op, op.Allowed w t → ∃ w', w.perform n op = some w') ∧
      (∀ F, t.opened F = true →
        (∀ test, findMapping n w F test = some ((t.mappings F).find? test)) ∧
        ∀ test, findPinning n w F test = some ((t.pinnings F).find? test)) ∧
      ∀ D, t.added D = true → visitFiles n w D = some (t.files D) := by
  have hinit : ListTable.init.Bounded 1 :=
    ⟨Nat.one_pos, fun _ => Nat.one_pos, fun _ => Nat.one_pos, fun _ => Nat.one_pos⟩
  have hn' : 1 + ops.length ≤ n := by omega
  obtain ⟨hrefines, hbounded⟩ :=
    refines_of_run ⟨_, _, refines_driverEntry hempty hload⟩ hinit hrun hn'
  have hbn : t.Bounded n := hbounded.mono hn'
  refine ⟨hrefines, ?_⟩
  obtain ⟨mapAt, pinAt, h⟩ := hrefines
  refine ⟨?_, ?_, ?_⟩
  · intro op hop
    obtain ⟨w', -, -, hperform, -⟩ := h.perform hbn hop
    exact ⟨w', hperform⟩
  · intro F hF
    exact ⟨h.findMapping hbn hF, h.findPinning hbn hF⟩
  · exact fun D hD => h.visitFiles hbn hD

/-- A memory with nothing in it. -/
def emptyListWorld : ListWorld where
  entries := ⟨fun _ => .devices, fun _ => .devices, fun _ => false⟩
  mapping := fun _ => ⟨0, 0, 0, none, false, none, 0⟩
  pinning := fun _ => ⟨0, 0, none, none, none⟩
  onDriverList := fun _ => false
  onDeviceList := fun _ => false
  creatorProcess := fun _ => 0

/-- A device with one file, a mapping and a pinning; the process exits and the file is closed. -/
def exitOps : List ListOp :=
  [.addDevice 0 true, .create 0 5 7, .map 5 100 ⟨4096, 4096, 0, none, false, none, 7⟩,
    .pin 5 200 ⟨8192, 4096, some 3, none, none⟩, .processNotify 7, .cleanup 0 5]

/-- The device can go then. -/
theorem lists_never_fault_exit : ∃ w₁ w t, emptyListWorld.driverEntry = some w₁ ∧
    Run (listStep 7) (w₁, ListTable.init) exitOps (w, t) ∧
    ∃ w', w.perform 7 (.removeDevice 0) = some w' := by
  have hrun : ∃ w₁ w t, emptyListWorld.driverEntry = some w₁ ∧
      Run (listStep 7) (w₁, ListTable.init) exitOps (w, t) ∧ t.added 0 = true ∧
      t.files 0 = [] := by
    refine ⟨_, ?w, ?t, rfl, ?hrun, ?hadded, ?hfiles⟩
    case hrun =>
      apply Run.cons (t := (_, _)) ⟨rfl, rfl, rfl⟩
      apply Run.cons (t := (_, _)) ⟨⟨rfl, rfl⟩, rfl, rfl⟩
      apply Run.cons (t := (_, _)) ⟨⟨rfl, rfl⟩, rfl, rfl⟩
      apply Run.cons (t := (_, _)) ⟨⟨rfl, rfl⟩, rfl, rfl⟩
      apply Run.cons (t := (_, _)) ⟨trivial, rfl, rfl⟩
      apply Run.cons (t := (_, _)) ⟨⟨rfl, List.mem_singleton.mpr rfl⟩, rfl, rfl⟩
      exact .nil _
    case hadded => rfl
    case hfiles => rfl
  obtain ⟨w₁, w, t, hload, hops, hadded, hfiles⟩ := hrun
  have hnext := (lists_never_fault (fun _ => rfl) hload hops (by decide)).2.1
  exact ⟨w₁, w, t, hload, hops, hnext _ ⟨hadded, hfiles⟩⟩

end TtKmd
