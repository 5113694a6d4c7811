import TtKmd.Memory.Links

/-!
# The lists in memory are those of the values

`Refines` relates the memory behind the lists of the driver to their values. Every operation on
the memory that the framework and the pool allow ends without a fault, and keeps the relation
to what the operation does to the values. So the loops over the lists end, no entry is used
after its memory is gone, none is freed twice, and no record is lost.
-/

namespace TtKmd

open Lib

/-- The lists that have a head. -/
def ListTable.Live (t : ListTable) : ListId → Prop
  | .devices => True
  | .files D => t.added D = true
  | .mappings F => t.opened F = true
  | .pinnings F => t.opened F = true

/-- The entries of the lists, when the records of a file are at these addresses. -/
def ListTable.nodes (t : ListTable) (mapAt pinAt : Handle → List ℕ) : ListId → List ListNode
  | .devices => t.devices.map .device
  | .files D => (t.files D).map .file
  | .mappings F => (mapAt F).map .record
  | .pinnings F => (pinAt F).map .record

/-- Which memory other than that of the records there is. -/
def ListTable.hasContext (t : ListTable) : ListNode → Bool
  | .devices => true
  | .device D => t.added D
  | .files D => t.added D
  | .file F => t.opened F
  | .mappings F => t.opened F
  | .pinnings F => t.opened F
  | .record _ => false

/-- The lists in memory have these values, the flags of the contexts say which lists they are
in, and there is no memory but that of the contexts and of the records in the lists. -/
structure Refines (w : ListWorld) (t : ListTable) (mapAt pinAt : Handle → List ℕ) : Prop where
  /-- The circles of the lists. -/
  circles : w.entries.Circles ListId.head t.Live (t.nodes mapAt pinAt)
  /-- The records of the mappings. -/
  mappings : ∀ F, t.opened F = true → (mapAt F).map w.mapping = t.mappings F
  /-- The records of the pinnings. -/
  pinnings : ∀ F, t.opened F = true → (pinAt F).map w.pinning = t.pinnings F
  /-- The memory of the contexts. -/
  contexts : ∀ e, (∀ a, e ≠ .record a) → w.entries.allocated e = t.hasContext e
  /-- The memory of the records. -/
  records : ∀ a, w.entries.allocated (.record a) = true →
    ∃ F, t.opened F = true ∧ (a ∈ mapAt F ∨ a ∈ pinAt F)
  /-- The flag of a device. -/
  onDriverList : ∀ D, t.added D = true → (w.onDriverList D = true ↔ D ∈ t.devices)
  /-- The flag of a file. -/
  onDeviceList : ∀ F, t.opened F = true →
    (w.onDeviceList F = true ↔ ∃ D, t.added D = true ∧ F ∈ t.files D)
  /-- The opener of a file. -/
  creatorProcess : ∀ F, t.opened F = true → w.creatorProcess F = t.creatorProcess F
  /-- Only devices that are there are listed. -/
  added : ∀ D ∈ t.devices, t.added D = true
  /-- Only files that are open are listed. -/
  opened : ∀ D, t.added D = true → ∀ F ∈ t.files D, t.opened F = true

/-! ## The two kinds of records -/

/-- The kinds of records that a file has a list of. -/
inductive RecordKind
  /-- `TT_USER_MAPPING`. -/
  | mapping
  /-- `TT_PINNING`. -/
  | pinning
  deriving DecidableEq

namespace RecordKind

/-- What a record says. -/
def Value : RecordKind → Type
  | .mapping => UserMapping
  | .pinning => Pinning

/-- The list of a file. -/
def list (F : Handle) : RecordKind → ListId
  | .mapping => .mappings F
  | .pinning => .pinnings F

/-- The record at an address. -/
def value (w : ListWorld) : (k : RecordKind) → ℕ → k.Value
  | .mapping => w.mapping
  | .pinning => w.pinning

/-- The values of a list. -/
def values (t : ListTable) : (k : RecordKind) → Handle → List k.Value
  | .mapping => t.mappings
  | .pinning => t.pinnings

/-- The addresses of the records. -/
def addresses (mapAt pinAt : Handle → List ℕ) : RecordKind → Handle → List ℕ
  | .mapping => mapAt
  | .pinning => pinAt

/-- The addresses of the mappings when those of the records of one kind are replaced. -/
def putMap (mapAt : Handle → List ℕ) (F : Handle) (as : List ℕ) : RecordKind → Handle → List ℕ
  | .mapping => Function.update mapAt F as
  | .pinning => mapAt

/-- The addresses of the pinnings when those of the records of one kind are replaced. -/
def putPin (pinAt : Handle → List ℕ) (F : Handle) (as : List ℕ) : RecordKind → Handle → List ℕ
  | .mapping => pinAt
  | .pinning => Function.update pinAt F as

/-- The mappings when the values of one kind are replaced. -/
def setMappings (t : ListTable) (F : Handle) :
    (k : RecordKind) → List k.Value → Handle → List UserMapping
  | .mapping, vs => Function.update t.mappings F vs
  | .pinning, _ => t.mappings

/-- The pinnings when the values of one kind are replaced. -/
def setPinnings (t : ListTable) (F : Handle) :
    (k : RecordKind) → List k.Value → Handle → List Pinning
  | .mapping, _ => t.pinnings
  | .pinning, ps => Function.update t.pinnings F ps

/-- The values of one kind are replaced. -/
def set (t : ListTable) (F : Handle) (k : RecordKind) (vs : List k.Value) : ListTable :=
  { t with mappings := setMappings t F k vs, pinnings := setPinnings t F k vs }

end RecordKind

section Refinement

variable {w : ListWorld} {t : ListTable} {mapAt pinAt : Handle → List ℕ} {F : Handle} {D n : ℕ}
  {m : Entries ListNode}

/-- The addresses of one kind are replaced. -/
theorem RecordKind.addresses_put (k : RecordKind) (as : List ℕ) :
    k.addresses (putMap mapAt F as k) (putPin pinAt F as k) =
      Function.update (k.addresses mapAt pinAt) F as := by
  cases k <;> rfl

/-- The values of one kind are replaced. -/
theorem RecordKind.values_set (k : RecordKind) (vs : List k.Value) :
    k.values (set t F k vs) = Function.update (k.values t) F vs := by
  cases k <;> rfl

/-- The addresses of the other kind stay. -/
theorem RecordKind.addresses_put_of_ne {k k' : RecordKind} (hk : k' ≠ k) (as : List ℕ) :
    k'.addresses (putMap mapAt F as k) (putPin pinAt F as k) = k'.addresses mapAt pinAt := by
  cases k <;> cases k' <;> first | exact absurd rfl hk | rfl

/-- The values of the other kind stay. -/
theorem RecordKind.values_set_of_ne {k k' : RecordKind} (hk : k' ≠ k) (vs : List k.Value) :
    k'.values (set t F k vs) = k'.values t := by
  cases k <;> cases k' <;> first | exact absurd rfl hk | rfl

/-- The entries of a list of records. -/
theorem RecordKind.nodes_list (k : RecordKind) :
    t.nodes mapAt pinAt (k.list F) = (k.addresses mapAt pinAt F).map .record := by
  cases k <;> rfl

/-- An open file has both lists. -/
theorem RecordKind.live_list (k : RecordKind) (hF : t.opened F = true) : t.Live (k.list F) := by
  cases k <;> exact hF

/-- The lists of records are those of the files. -/
theorem RecordKind.list_injective {k k' : RecordKind} {G : Handle} (h : k'.list G = k.list F) :
    k' = k ∧ G = F := by
  cases k <;> cases k' <;> cases h <;> exact ⟨rfl, rfl⟩

/-- A list of records of another file, or of the other kind, is as it was. -/
theorem RecordKind.nodes_set (k : RecordKind) (vs : List k.Value) (as : List ℕ) :
    (set t F k vs).nodes (putMap mapAt F as k) (putPin pinAt F as k) =
      Function.update (t.nodes mapAt pinAt) (k.list F) (as.map .record) := by
  have hrecords : ∀ (k' : RecordKind) (G : Handle),
      (set t F k vs).nodes (putMap mapAt F as k) (putPin pinAt F as k) (k'.list G) =
        Function.update (t.nodes mapAt pinAt) (k.list F) (as.map .record) (k'.list G) := by
    intro k' G
    rw [nodes_list]
    by_cases hlist : k'.list G = k.list F
    · obtain ⟨rfl, rfl⟩ := list_injective hlist
      rw [addresses_put, Function.update_self, Function.update_self]
    · rw [Function.update_of_ne hlist, nodes_list]
      by_cases hk : k' = k
      · subst hk
        have hG : G ≠ F := fun heq => hlist (by rw [heq])
        rw [addresses_put, Function.update_of_ne hG]
      · rw [addresses_put_of_ne hk]
  funext i
  cases i with
  | mappings G => exact hrecords .mapping G
  | pinnings G => exact hrecords .pinning G
  | devices =>
    rw [Function.update_of_ne (by cases k <;> nofun)]
    rfl
  | files D =>
    rw [Function.update_of_ne (by cases k <;> nofun)]
    rfl

/-- The records have the values of the lists. -/
theorem Refines.values (h : Refines w t mapAt pinAt) (k : RecordKind) (hF : t.opened F = true) :
    (k.addresses mapAt pinAt F).map (k.value w) = k.values t F := by
  cases k with
  | mapping => exact h.mappings F hF
  | pinning => exact h.pinnings F hF

/-- Memory other than that of records is allocated as before. -/
def KeepsContexts (m m' : Entries ListNode) : Prop :=
  ∀ e, (∀ a, e ≠ .record a) → m'.allocated e = m.allocated e

/-- Of the records at some addresses only some are left, and there are no others that were not
there before. -/
def KeepsRecords (m m' : Entries ListNode) (before after : List ℕ) : Prop :=
  ∀ a, m'.allocated (.record a) = true →
    a ∈ after ∨ m.allocated (.record a) = true ∧ a ∉ before

/-- Freeing records keeps the contexts. -/
theorem keepsContexts_of_freed {m' : Entries ListNode} {gone : List ℕ}
    (hfreed : Entries.Freed m m' (gone.map .record)) : KeepsContexts m m' := by
  intro e he
  rw [hfreed e]
  have hout : e ∉ gone.map ListNode.record := by
    intro hmem
    obtain ⟨a, -, rfl⟩ := List.mem_map.mp hmem
    exact he a rfl
  simp [hout]

/-- Freeing records leaves the others. -/
theorem keepsRecords_of_freed {m' : Entries ListNode} {gone before after : List ℕ}
    (hfreed : Entries.Freed m m' (gone.map .record))
    (hafter : ∀ a ∈ before, a ∉ gone → a ∈ after) : KeepsRecords m m' before after := by
  intro a ha
  rw [hfreed, Bool.and_eq_true, decide_eq_true_eq] at ha
  obtain ⟨hal, hgone⟩ := ha
  by_cases hbefore : a ∈ before
  · left
    apply hafter a hbefore
    intro hmem
    exact hgone (List.mem_map_of_mem hmem)
  · exact .inr ⟨hal, hbefore⟩

/-- The records of one kind of a file are replaced: the circles are right, and nothing but records
was allocated or freed. -/
theorem Refines.withRecords (k : RecordKind) {w' : ListWorld} {vs : List k.Value} {as : List ℕ}
    (h : Refines w t mapAt pinAt) (hF : t.opened F = true)
    (hcircles : w'.entries.Circles ListId.head t.Live
      (Function.update (t.nodes mapAt pinAt) (k.list F) (as.map .record)))
    (hkeeps : KeepsContexts w.entries w'.entries)
    (hrecords : KeepsRecords w.entries w'.entries (k.addresses mapAt pinAt F) as)
    (hvs : as.map (k.value w') = vs)
    (hother : ∀ G, t.opened G = true → G ≠ F →
      (k.addresses mapAt pinAt G).map (k.value w') = (k.addresses mapAt pinAt G).map (k.value w))
    (hkinds : ∀ k', k' ≠ k → k'.value w' = k'.value w)
    (hdriver : w'.onDriverList = w.onDriverList) (hdevice : w'.onDeviceList = w.onDeviceList)
    (hcreator : w'.creatorProcess = w.creatorProcess) :
    Refines w' (k.set t F vs) (k.putMap mapAt F as) (k.putPin pinAt F as) := by
  have hvalues : ∀ k' G, t.opened G = true →
      (RecordKind.addresses (k.putMap mapAt F as) (k.putPin pinAt F as) k' G).map (k'.value w') =
        k'.values (k.set t F vs) G := by
    intro k' G hG
    by_cases hk : k' = k
    · subst hk
      rw [RecordKind.addresses_put, RecordKind.values_set]
      by_cases hGF : G = F
      · subst hGF
        rw [Function.update_self, Function.update_self, hvs]
      · rw [Function.update_of_ne hGF, Function.update_of_ne hGF, hother G hG hGF, h.values k' hG]
    · rw [RecordKind.addresses_put_of_ne hk, RecordKind.values_set_of_ne hk, hkinds k' hk,
        h.values k' hG]
  have hlisted : ∀ a, w'.entries.allocated (.record a) = true → ∃ k' G, t.opened G = true ∧
      a ∈ RecordKind.addresses (k.putMap mapAt F as) (k.putPin pinAt F as) k' G := by
    intro a ha
    rcases hrecords a ha with hnew | ⟨hold, hnot⟩
    · refine ⟨k, F, hF, ?_⟩
      rw [RecordKind.addresses_put, Function.update_self]
      exact hnew
    · obtain ⟨k', G, hG, hmem⟩ : ∃ (k' : RecordKind) (G : Handle), t.opened G = true ∧
          a ∈ k'.addresses mapAt pinAt G := by
        obtain ⟨G, hG, hmem | hmem⟩ := h.records a hold
        · exact ⟨.mapping, G, hG, hmem⟩
        · exact ⟨.pinning, G, hG, hmem⟩
      refine ⟨k', G, hG, ?_⟩
      by_cases hk : k' = k
      · subst hk
        have hGF : G ≠ F := fun heq => hnot (heq ▸ hmem)
        rw [RecordKind.addresses_put, Function.update_of_ne hGF]
        exact hmem
      · rw [RecordKind.addresses_put_of_ne hk]
        exact hmem
  exact
    { circles := by
        rw [RecordKind.nodes_set]
        exact hcircles
      mappings := hvalues .mapping
      pinnings := hvalues .pinning
      contexts := fun e he => (hkeeps e he).trans (h.contexts e he)
      records := by
        intro a ha
        obtain ⟨k', G, hG, hmem⟩ := hlisted a ha
        cases k' with
        | mapping => exact ⟨G, hG, .inl hmem⟩
        | pinning => exact ⟨G, hG, .inr hmem⟩
      onDriverList := by
        rw [hdriver]
        exact h.onDriverList
      onDeviceList := by
        rw [hdevice]
        exact h.onDeviceList
      creatorProcess := by
        rw [hcreator]
        exact h.creatorProcess
      added := h.added
      opened := h.opened }

/-- Both loops over the records of a file free them all. -/
theorem Refines.drainFile (h : Refines w t mapAt pinAt) (hF : t.opened F = true)
    (hmap : (mapAt F).length < n) (hpin : (pinAt F).length < n) :
    ∃ w', TtKmd.drainFile n w F = some w' ∧
      Refines w' (t.drain F) (Function.update mapAt F []) (Function.update pinAt F []) := by
  have hlive : t.Live (.mappings F) := hF
  have hc := h.circles.circle _ hlive
  obtain ⟨m₁, hrun₁, hc₁, hw₁, hfreed₁⟩ := hc.drain (n := n) (by simpa [ListTable.nodes] using hmap)
  have hkeeps₁ : KeepsContexts w.entries m₁ := keepsContexts_of_freed hfreed₁
  have h₁ : Refines (w.withEntries m₁) (t.setMappings F []) (Function.update mapAt F []) pinAt := by
    have hrecords₁ : KeepsRecords w.entries m₁ (mapAt F) [] :=
      keepsRecords_of_freed hfreed₁ fun a ha hnot => absurd ha hnot
    refine h.withRecords .mapping hF ?_ hkeeps₁ hrecords₁ rfl (fun _ _ _ => rfl)
      (fun k' _ => by cases k' <;> rfl) rfl rfl rfl
    exact h.circles.shrink hlive hc₁ hw₁ (by simp)
  have hlive' : (t.setMappings F []).Live (.pinnings F) := hF
  have hc' := h₁.circles.circle _ hlive'
  obtain ⟨m₂, hrun₂, hc₂, hw₂, hfreed₂⟩ :=
    hc'.drain (n := n) (by simpa [ListTable.nodes] using hpin)
  have hrun : Entries.drain (.pinnings F) n m₁ = some (m₂, (pinAt F).map .record) := hrun₂
  have hrun' : Entries.drain (.mappings F) n w.entries = some (m₁, (mapAt F).map .record) := hrun₁
  have hkeeps₂ : KeepsContexts m₁ m₂ := keepsContexts_of_freed hfreed₂
  have hrecords₂ : KeepsRecords m₁ m₂ (pinAt F) [] :=
    keepsRecords_of_freed hfreed₂ fun a ha hnot => absurd ha hnot
  refine ⟨w.withEntries m₂, ?_, ?_⟩
  · simp [TtKmd.drainFile, hrun', hrun]
  · refine h₁.withRecords .pinning hF ?_ hkeeps₂ hrecords₂ rfl (fun _ _ _ => rfl)
      (fun k' _ => by cases k' <;> rfl) rfl rfl rfl
    exact h₁.circles.shrink hlive' hc₂ hw₂ (by simp)

/-- The inner loop of `TtResetZapMappings` on one file. -/
theorem Refines.zapFile (h : Refines w t mapAt pinAt) (hF : t.opened F = true)
    (hmap : (mapAt F).length < n) :
    ∃ w', zapEntries n w (.file F) = some w' ∧
      Refines w' (t.zapFile F)
        (Function.update mapAt F ((mapAt F).filter fun a => (w.mapping a).isDmaBuf)) pinAt := by
  have hlive : t.Live (.mappings F) := hF
  have hc := h.circles.circle _ hlive
  obtain ⟨m', hrun, hc', hw, hfreed⟩ : ∃ m', w.entries.sweep _ (w.testMapping (·.isDmaBuf)) n =
      some (m', _) ∧ _ := hc.sweep (by simpa [ListTable.nodes] using hmap)
  have hkept : (t.nodes mapAt pinAt (.mappings F)).filter (w.testMapping (·.isDmaBuf)) =
      ((mapAt F).filter fun a => (w.mapping a).isDmaBuf).map .record := by
    rw [ListTable.nodes, List.filter_map]
    rfl
  have hgone : (t.nodes mapAt pinAt (.mappings F)).filter
      (fun e => !w.testMapping (·.isDmaBuf) e) =
      ((mapAt F).filter fun a => !(w.mapping a).isDmaBuf).map .record := by
    rw [ListTable.nodes, List.filter_map]
    rfl
  rw [hgone] at hfreed
  rw [hkept] at hc'
  have hrun' : w.entries.sweep (.mappings F) (w.testMapping (·.isDmaBuf)) n = some (m', _) := hrun
  refine ⟨w.withEntries m', ?_, ?_⟩
  · rw [zapEntries, hrun']
    rfl
  · have hkeeps : KeepsContexts w.entries m' := keepsContexts_of_freed hfreed
    refine h.withRecords .mapping hF ?_ hkeeps ?_ ?_ (fun _ _ _ => rfl)
      (fun k' _ => by cases k' <;> rfl) rfl rfl rfl
    · refine h.circles.shrink hlive hc' hw ?_
      intro e he
      rw [← hkept] at he
      exact List.mem_of_mem_filter he
    · apply keepsRecords_of_freed hfreed
      intro a ha hnot
      rw [List.mem_filter]
      rw [List.mem_filter] at hnot
      refine ⟨ha, ?_⟩
      by_contra hdma
      exact hnot ⟨ha, by simpa using hdma⟩
    · rw [← h.mappings F hF, List.filter_map]
      rfl

/-- Memory that is not allocated is in no list. -/
theorem Refines.fresh (h : Refines w t mapAt pinAt) {e : ListNode}
    (he : w.entries.allocated e = false) (i : ListId) (hi : t.Live i) :
    e ∉ i.head :: t.nodes mapAt pinAt i := by
  intro hmem
  rw [(h.circles.circle i hi).allocated e hmem] at he
  cases he

/-- A new record is put at the end of one of the lists. -/
theorem Refines.link (h : Refines w t mapAt pinAt) {i : ListId} (hi : t.Live i) {a : ℕ}
    (ha : w.entries.allocated (.record a) = false) :
    ∃ m', (w.entries.allocate (.record a)).insertTailList i.head (.record a) = some m' ∧
      m'.Circles ListId.head t.Live
        (Function.update (t.nodes mapAt pinAt) i (t.nodes mapAt pinAt i ++ [.record a])) ∧
      m'.allocated = (w.entries.allocate (.record a)).allocated := by
  have hout := h.fresh ha
  have hal : (w.entries.allocate (.record a)).allocated (.record a) = true := by
    rw [Entries.allocated_allocate]
    exact .inl rfl
  exact (h.circles.allocate hout).insertTailList hi hout hal

/-- One more record. -/
theorem keepsContexts_of_allocate {m' : Entries ListNode} {a : ℕ}
    (hal : m'.allocated = (m.allocate (.record a)).allocated) : KeepsContexts m m' := by
  intro e he
  rw [hal]
  exact Function.update_of_ne (he a) _ _

/-- The records are the ones there were and the new one. -/
theorem keepsRecords_of_allocate {m' : Entries ListNode} {a : ℕ} {before : List ℕ}
    (hal : m'.allocated = (m.allocate (.record a)).allocated) :
    KeepsRecords m m' before (before ++ [a]) := by
  intro b hb
  rw [hal, Entries.allocated_allocate, ListNode.record.injEq] at hb
  by_cases hbefore : b ∈ before
  · exact .inl (List.mem_append_left _ hbefore)
  · rcases hb with rfl | hb
    · exact .inl (List.mem_append_right _ (List.mem_singleton_self _))
    · exact .inr ⟨hb, hbefore⟩

/-- A record that is not allocated is no record of an open file. -/
theorem Refines.not_mem_addresses (h : Refines w t mapAt pinAt) (k : RecordKind)
    (hF : t.opened F = true) {a : ℕ} (ha : w.entries.allocated (.record a) = false) :
    a ∉ k.addresses mapAt pinAt F := by
  intro hmem
  apply h.fresh ha (k.list F) (k.live_list hF)
  rw [k.nodes_list]
  exact List.mem_cons_of_mem _ (List.mem_map_of_mem hmem)

/-- What is stored at a new address is seen at no other. -/
theorem map_update_of_not_mem {β : Type} {as : List ℕ} {a : ℕ} (f : ℕ → β) (v : β)
    (ha : a ∉ as) : as.map (Function.update f a v) = as.map f := by
  apply List.map_congr_left
  intro b hb
  apply Function.update_of_ne
  rintro rfl
  exact ha hb

/-- A new record is filled and put at the end of its list. -/
theorem Refines.insertRecord (h : Refines w t mapAt pinAt) (k : RecordKind) (hF : t.opened F = true)
    {a : ℕ} (ha : w.entries.allocated (.record a) = false) (v : k.Value) :
    ∃ m', (w.entries.allocate (.record a)).insertTailList (k.list F).head (.record a) = some m' ∧
      ∀ w' : ListWorld, w'.entries = m' → k.value w' = Function.update (k.value w) a v →
        (∀ k', k' ≠ k → k'.value w' = k'.value w) → w'.onDriverList = w.onDriverList →
        w'.onDeviceList = w.onDeviceList → w'.creatorProcess = w.creatorProcess →
          Refines w' (k.set t F (k.values t F ++ [v]))
            (k.putMap mapAt F (k.addresses mapAt pinAt F ++ [a]))
            (k.putPin pinAt F (k.addresses mapAt pinAt F ++ [a])) := by
  obtain ⟨m', hrun, hcircles, hal⟩ := h.link (k.live_list hF) ha
  refine ⟨m', hrun, fun w' hentries hvalue hkinds hdriver hdevice hcreator => ?_⟩
  subst hentries
  refine h.withRecords k hF ?_ (keepsContexts_of_allocate hal) (keepsRecords_of_allocate hal) ?_
    ?_ hkinds hdriver hdevice hcreator
  · rw [k.nodes_list] at hcircles
    rw [List.map_append]
    exact hcircles
  · rw [hvalue, List.map_append, map_update_of_not_mem _ _ (h.not_mem_addresses k hF ha),
      h.values k hF]
    simp
  · intro G hG _
    rw [hvalue, map_update_of_not_mem _ _ (h.not_mem_addresses k hG ha)]

/-- The end of `TtIoctlMap`. -/
theorem Refines.insertMapping (h : Refines w t mapAt pinAt) (hF : t.opened F = true) {a : ℕ}
    (ha : w.entries.allocated (.record a) = false) (v : UserMapping) :
    ∃ w', TtKmd.insertMapping w F a v = some w' ∧
      Refines w' (t.setMappings F (t.mappings F ++ [v]))
        (Function.update mapAt F (mapAt F ++ [a])) pinAt := by
  obtain ⟨m', hrun, hrefines⟩ := h.insertRecord .mapping hF ha v
  have hrun' : (w.entries.allocate (.record a)).insertTailList (.mappings F) (.record a) =
      some m' := hrun
  refine ⟨_, by rw [TtKmd.insertMapping, hrun', Option.map_some], ?_⟩
  exact hrefines _ rfl rfl (fun k' hk => by cases k' <;> first | rfl | exact absurd rfl hk)
    rfl rfl rfl

/-- The end of `TtIoctlPinPages`. -/
theorem Refines.insertPinning (h : Refines w t mapAt pinAt) (hF : t.opened F = true) {a : ℕ}
    (ha : w.entries.allocated (.record a) = false) (p : Pinning) :
    ∃ w', TtKmd.insertPinning w F a p = some w' ∧
      Refines w' (t.setPinnings F (t.pinnings F ++ [p])) mapAt
        (Function.update pinAt F (pinAt F ++ [a])) := by
  obtain ⟨m', hrun, hrefines⟩ := h.insertRecord .pinning hF ha p
  have hrun' : (w.entries.allocate (.record a)).insertTailList (.pinnings F) (.record a) =
      some m' := hrun
  refine ⟨_, by rw [TtKmd.insertPinning, hrun', Option.map_some], ?_⟩
  exact hrefines _ rfl rfl (fun k' hk => by cases k' <;> first | rfl | exact absurd rfl hk)
    rfl rfl rfl

/-- A record is taken out of its list and freed. -/
theorem Refines.unlinkAndFree (h : Refines w t mapAt pinAt) {i : ListId} (hi : t.Live i)
    {pre post : List ℕ} {a : ℕ}
    (hsplit : t.nodes mapAt pinAt i = (pre ++ a :: post).map .record) :
    ∃ m', TtKmd.unlinkAndFree w (.record a) = some (w.withEntries m') ∧
      m'.Circles ListId.head t.Live
        (Function.update (t.nodes mapAt pinAt) i ((pre ++ post).map .record)) ∧
      w.entries.Freed m' [.record a] := by
  have hmem : ListNode.record a ∈ t.nodes mapAt pinAt i := by
    rw [hsplit]
    simp
  rw [List.map_append, List.map_cons] at hsplit
  obtain ⟨m₁, hremove, hcircles, hal₁, hout⟩ := h.circles.removeEntryList hi hsplit
  have hala : m₁.allocated (.record a) = true := by
    rw [hal₁]
    exact (h.circles.circle i hi).allocated _ (List.mem_cons_of_mem _ hmem)
  obtain ⟨m₂, hfree, hw, hal₂⟩ := Entries.within_free hala
  refine ⟨m₂, ?_, ?_, ?_⟩
  · simp [TtKmd.unlinkAndFree, hremove, hfree, ListWorld.withEntries]
  · rw [List.map_append]
    apply hcircles.outside hw
    intro j hj b hb hba
    rw [List.mem_singleton.mp hba] at hb
    exact hout j hj hb
  · intro b
    rw [hal₂, hal₁]
    by_cases hba : b = .record a
    · simp [hba]
    · simp [hba]

/-- The first record with a property, in memory and as a value. -/
theorem find_record {as : List ℕ} (test : ListNode → Bool) (test' : ℕ → Bool)
    (htest : ∀ a, test (.record a) = test' a) :
    (as.map .record).find? test = (as.find? test').map .record := by
  rw [List.find?_map]
  congr 2
  funext a
  exact htest a

/-- Where the first element with a property is. -/
theorem split_of_find {β : Type} {as : List β} {test : β → Bool} {a : β}
    (ha : as.find? test = some a) :
    test a = true ∧ ∃ pre post, as = pre ++ a :: post ∧ as.eraseP test = pre ++ post := by
  obtain ⟨htest, pre, post, rfl, hpre⟩ := List.find?_eq_some_iff_append.mp ha
  refine ⟨htest, pre, post, rfl, ?_⟩
  rw [List.eraseP_append_right _ (by simpa using hpre), List.eraseP_cons_of_pos htest]

/-- A record is taken out of the list of its file. -/
theorem Refines.unlinkRecord (h : Refines w t mapAt pinAt) (k : RecordKind)
    (hF : t.opened F = true) {pre post : List ℕ} {a : ℕ}
    (hsplit : k.addresses mapAt pinAt F = pre ++ a :: post) :
    ∃ w', TtKmd.unlinkAndFree w (.record a) = some w' ∧
      Refines w' (k.set t F ((pre ++ post).map (k.value w)))
        (k.putMap mapAt F (pre ++ post)) (k.putPin pinAt F (pre ++ post)) := by
  have hnodes : t.nodes mapAt pinAt (k.list F) = (pre ++ a :: post).map .record := by
    rw [k.nodes_list, hsplit]
  obtain ⟨m', hrun, hcircles, hfreed⟩ := h.unlinkAndFree (k.live_list hF) hnodes
  have hfreed' : w.entries.Freed m' ([a].map .record) := hfreed
  have hvalue : ∀ k' : RecordKind, k'.value (w.withEntries m') = k'.value w := by
    intro k'
    cases k' <;> rfl
  refine ⟨_, hrun, ?_⟩
  refine h.withRecords k hF hcircles (keepsContexts_of_freed hfreed') ?_ (by rw [hvalue])
    (fun _ _ _ => by rw [hvalue]) (fun k' _ => hvalue k') rfl rfl rfl
  apply keepsRecords_of_freed hfreed'
  intro b hb hba
  rw [hsplit] at hb
  simp only [List.mem_append, List.mem_cons] at hb hba ⊢
  tauto

/-- `TtIoctlUnmap` takes the first mapping at the address. -/
theorem Refines.unmapEntry (h : Refines w t mapAt pinAt) (hF : t.opened F = true)
    (hmap : (mapAt F).length < n) (userVa : ℕ) :
    ∃ w' mapAt', TtKmd.unmapEntry n w F userVa = some w' ∧
      Refines w' (t.setMappings F ((t.mappings F).eraseP fun v => v.userVa == userVa)) mapAt'
        pinAt := by
  have hlive : t.Live (.mappings F) := hF
  have hfind : w.entries.findEntry (.mappings F) (w.testMapping fun v => v.userVa == userVa) n =
      some (((mapAt F).map .record).find? (w.testMapping fun v => v.userVa == userVa)) :=
    (h.circles.circle _ hlive).findEntry (by simpa [ListTable.nodes] using hmap)
  rw [find_record _ (fun a => (w.mapping a).userVa == userVa) fun _ => rfl] at hfind
  have herase : (t.mappings F).eraseP (fun v => v.userVa == userVa) =
      ((mapAt F).eraseP fun a => (w.mapping a).userVa == userVa).map w.mapping := by
    rw [← h.mappings F hF, List.eraseP_map]
    rfl
  cases ha : (mapAt F).find? fun a => (w.mapping a).userVa == userVa with
  | none =>
    refine ⟨w, mapAt, ?_, ?_⟩
    · simp [TtKmd.unmapEntry, hfind, ha]
    · have hnone := List.find?_eq_none.mp ha
      rw [herase, List.eraseP_of_forall_not (by simpa using hnone), h.mappings F hF,
        ListTable.setMappings, Function.update_eq_self]
      exact h
  | some a =>
    obtain ⟨-, pre, post, hsplit, hpost⟩ := split_of_find ha
    obtain ⟨w', hrun, hrefines⟩ := h.unlinkRecord .mapping hF hsplit
    have hvalues : (pre ++ post).map (RecordKind.value w .mapping) =
        (t.mappings F).eraseP fun v => v.userVa == userVa := by
      rw [herase, hpost]
      rfl
    rw [hvalues] at hrefines
    exact ⟨w', _, by simp [TtKmd.unmapEntry, hfind, ha, hrun], hrefines⟩

/-- `TtIoctlUnpinPages` takes the first pinning at the address, if it has the size. -/
theorem Refines.unpinEntry (h : Refines w t mapAt pinAt) (hF : t.opened F = true)
    (hpin : (pinAt F).length < n) (va size : ℕ) :
    ∃ w' pinAt', TtKmd.unpinEntry n w F va size = some w' ∧
      Refines w' (t.perform (.unpin F va size)) mapAt pinAt' := by
  have hlive : t.Live (.pinnings F) := hF
  have hfind : w.entries.findEntry (.pinnings F)
      (w.testPinning fun p => p.virtualAddress == va) n =
      some (((pinAt F).map .record).find? (w.testPinning fun p => p.virtualAddress == va)) :=
    (h.circles.circle _ hlive).findEntry (by simpa [ListTable.nodes] using hpin)
  rw [find_record _ (fun a => (w.pinning a).virtualAddress == va) fun _ => rfl] at hfind
  have hvalue : (t.pinnings F).find? (fun p => p.virtualAddress == va) =
      ((pinAt F).find? fun a => (w.pinning a).virtualAddress == va).map w.pinning := by
    rw [← h.pinnings F hF, List.find?_map]
    rfl
  cases ha : (pinAt F).find? fun a => (w.pinning a).virtualAddress == va with
  | none =>
    refine ⟨w, pinAt, ?_, ?_⟩
    · simp [TtKmd.unpinEntry, hfind, ha]
    · simp only [ListTable.perform, hvalue, ha, Option.map_none]
      exact h
  | some a =>
    obtain ⟨-, pre, post, hsplit, hpost⟩ := split_of_find ha
    by_cases hsize : (w.pinning a).size = size
    · obtain ⟨w', hrun, hrefines⟩ := h.unlinkRecord .pinning hF hsplit
      have herase : (t.pinnings F).eraseP (fun p => p.virtualAddress == va) =
          (pre ++ post).map (RecordKind.value w .pinning) := by
        rw [← h.pinnings F hF, List.eraseP_map, ← hpost]
        rfl
      rw [← herase] at hrefines
      refine ⟨w', Function.update pinAt F (pre ++ post), ?_, ?_⟩
      · simp [TtKmd.unpinEntry, hfind, ha, ListWorld.testPinning, hsize, hrun]
      · simp only [ListTable.perform, hvalue, ha, Option.map_some, if_pos hsize]
        exact hrefines
    · refine ⟨w, pinAt, ?_, ?_⟩
      · simp [TtKmd.unpinEntry, hfind, ha, ListWorld.testPinning, hsize]
      · simp only [ListTable.perform, hvalue, ha, Option.map_some, if_neg hsize]
        exact h

end Refinement

end TtKmd
