import TtKmd.Lib.Strings
import TtKmd.Shim.Views

/-!
# Finding a device by its number

On Linux device `N` is `/dev/tenstorrent/N`. Here the driver counts the devices it is asked to
serve, and registers an interface for each with the reference string `TT` and the number in
decimal. The shim asks the system for the paths of all interfaces, one string after another in one
block of memory, and reads the number back out of each path.

This file puts the two together: what the driver prints is what the shim reads, for every history
of devices that come and go, and the shim reads nothing behind the block.
-/

namespace TtKmd

open Lib

/-! ## The driver -/

/-- `InterlockedIncrement` of a `LONG`. -/
def interlockedIncrement (x : ℤ) : ℤ := if x = 2 ^ 31 - 1 then -2 ^ 31 else x + 1

/-- The devices with an interface. -/
structure InterfaceWorld where
  /-- `g_TtNextOrdinal`. -/
  nextOrdinal : ℤ
  /-- The number of devices that were added. -/
  nextDevice : ℕ
  /-- The devices that are present, with their ordinals. -/
  present : List (ℕ × ℤ)

/-- Devices come and go. -/
inductive InterfaceEvent
  /-- `TtEvtDeviceAdd`. -/
  | add
  /-- `TtEvtDeviceAdd` fails, before or behind the increment. -/
  | addFails (counted : Bool)
  /-- A device is removed. -/
  | remove (D : ℕ)

/-- The driver counts a device that is added, and one whose adding fails behind the increment. -/
def InterfaceEvent.counted : InterfaceEvent → Bool
  | .add => true
  | .addFails counted => counted
  | .remove _ => false

/-- The driver is loaded. -/
def InterfaceWorld.loaded : InterfaceWorld := ⟨-1, 0, []⟩

/-- One event. -/
def InterfaceWorld.next (w : InterfaceWorld) : InterfaceEvent → InterfaceWorld
  | .add =>
      { nextOrdinal := interlockedIncrement w.nextOrdinal
        nextDevice := w.nextDevice + 1
        present := w.present ++ [(w.nextDevice, interlockedIncrement w.nextOrdinal)] }
  | .addFails counted =>
      { w with
        nextOrdinal := if counted then interlockedIncrement w.nextOrdinal else w.nextOrdinal }
  | .remove D => { w with present := w.present.filter fun p => p.1 != D }

/-- The decimal numeral of `%d`. -/
def printOrdinal (ordinal : ℤ) : List ℕ :=
  if ordinal < 0 then 45 :: decimal ordinal.natAbs else decimal ordinal.natAbs

/-- The reference string, `TT%d`. -/
def refString (ordinal : ℤ) : List ℕ := [84, 84] ++ printOrdinal ordinal

/-- The path of an interface: the symbolic name that the system gives the device, a backslash and
the reference string. -/
def interfacePath (name : ℕ → List ℕ) (p : ℕ × ℤ) : List ℕ := name p.1 ++ [92] ++ refString p.2

/-! ## The shim -/

/-- `ERROR_NO_MORE_ITEMS`. -/
def errorNoMoreItems : ℕ := 259

/-- `ERROR_FILE_NOT_FOUND`. -/
def errorFileNotFound : ℕ := 2

/-- `_wtoi` of a string that begins with a digit. -/
def wtoi (s : List ℕ) : ℤ := min (decimalValue s) (2 ^ 31 - 1)

/-- `tt_ordinal_from_path`. -/
def ttOrdinalFromPath (path : List ℕ) : Option ℤ :=
  (firstOccurrence [92, 84, 84] path).bind fun tt =>
    if (tt.drop 3).head?.any isDigit then some (wtoi (tt.drop 3)) else none

/-- What the system answers to `tt_interface_list`. -/
structure InterfaceAnswers where
  /-- `CM_Get_Device_Interface_List_SizeW`. -/
  size : Option ℕ
  /-- `calloc`. -/
  calloc : Bool
  /-- What `CM_Get_Device_Interface_ListW` writes. -/
  list : Option (List ℕ)

/-- `tt_interface_list`: the block of memory, or what `g_last_error` is set to. -/
def ttInterfaceList (answers : InterfaceAnswers) : Except ℕ (List ℕ) :=
  match answers.size with
  | none => .error errorNoMoreItems
  | some len =>
      if len ≤ 1 then .error errorNoMoreItems
      else if answers.calloc = false then .error errorNotEnoughMemory
      else
        match answers.list with
        | none => .error errorNoMoreItems
        | some written => .ok (written ++ List.replicate (len - written.length) 0)

/-- The body of the loop of `tt_enumerate`, on `count` and `ids`. -/
def enumerateBody (hasIds : Bool) (maxIds : ℤ) (s : ℕ × (ℕ → ℤ)) (path : List ℕ) :
    (ℕ × (ℕ → ℤ)) × Bool :=
  match ttOrdinalFromPath path with
  | none => (s, false)
  | some ordinal =>
      ((s.1 + 1, if hasIds = true ∧ (s.1 : ℤ) < maxIds then Function.update s.2 s.1 ordinal
        else s.2), false)

/-- `tt_enumerate`: the count and the array, or a fault. -/
def ttEnumerate (answers : InterfaceAnswers) (hasIds : Bool) (maxIds : ℤ) (ids : ℕ → ℤ) :
    Option (ℕ × (ℕ → ℤ)) :=
  match ttInterfaceList answers with
  | .error _ => some (0, ids)
  | .ok list => walkStrings (enumerateBody hasIds maxIds) (list.length + 1) (0, ids) list

/-- The body of the loop of `tt_open`, on `file`. -/
def openBody (createFile : List ℕ → Option ℕ) (deviceId : ℤ) (file : Option ℕ) (path : List ℕ) :
    Option ℕ × Bool :=
  if ttOrdinalFromPath path = some deviceId then (createFile path, true) else (file, false)

/-- The first half of `tt_open`: the handle of the driver or the error, or a fault. -/
def openFile (answers : InterfaceAnswers) (createFile : List ℕ → Option ℕ) (getLastError : ℕ)
    (deviceId : ℤ) : Option (Except ℕ ℕ) :=
  match ttInterfaceList answers with
  | .error err => some (.error err)
  | .ok list =>
      (walkStrings (openBody createFile deviceId) (list.length + 1) none list).map fun file =>
        file.elim (.error (if getLastError ≠ 0 then getLastError else errorFileNotFound)) .ok

/-! ## What is printed is read -/

section RoundTrip

/-- A name that the system gives a device: a string in which no reference string begins. -/
def SymbolicName (s : List ℕ) : Prop := 0 ∉ s ∧ ¬[92, 84, 84] <:+: s

variable {name : ℕ → List ℕ} {p : ℕ × ℤ}

/-- No reference string begins in the name of the device. -/
theorem SymbolicName.not_prefix {s t digits : List ℕ} (hs : SymbolicName s) (ht : t <:+ s)
    (hne : t ≠ []) : ¬[92, 84, 84] <+: t ++ ([92, 84, 84] ++ digits) := by
  intro hprefix
  rcases t with _ | ⟨a, _ | ⟨b, _ | ⟨c, t⟩⟩⟩
  · exact hne rfl
  · simp at hprefix
  · simp at hprefix
  · simp only [List.cons_append, List.cons_prefix_cons] at hprefix
    obtain ⟨rfl, rfl, rfl, -⟩ := hprefix
    exact hs.2 ((List.prefix_append [92, 84, 84] t).isInfix.trans ht.isInfix)

/-- The ordinal is read back from the path. -/
theorem ttOrdinalFromPath_interfacePath (hname : SymbolicName (name p.1)) (hnonneg : 0 ≤ p.2)
    (hlt : p.2 < 2 ^ 31) : ttOrdinalFromPath (interfacePath name p) = some p.2 := by
  have hpath : interfacePath name p = name p.1 ++ ([92, 84, 84] ++ decimal p.2.natAbs) := by
    simp [interfacePath, refString, printOrdinal, Int.not_lt.mpr hnonneg]
  have hfound : firstOccurrence [92, 84, 84] (interfacePath name p) =
      some ([92, 84, 84] ++ decimal p.2.natAbs) := by
    rw [hpath, firstOccurrence_append fun t ht hne => hname.not_prefix ht hne]
    exact firstOccurrence_self (List.cons_ne_nil 92 _) _
  have hdigit : (decimal p.2.natAbs).head?.any isDigit = true := by
    obtain ⟨c, s, hs⟩ := List.exists_cons_of_ne_nil (decimal_ne_nil p.2.natAbs)
    rw [hs]
    exact isDigit_of_mem_decimal (hs ▸ List.mem_cons_self)
  rw [ttOrdinalFromPath, hfound, Option.bind_some]
  show (if (decimal p.2.natAbs).head?.any isDigit then some (wtoi (decimal p.2.natAbs)) else none) =
    some p.2
  rw [if_pos hdigit, wtoi, decimalValue_decimal]
  congr 1
  omega

/-- A path is a string. -/
theorem interfacePath_string (hname : SymbolicName (name p.1)) :
    interfacePath name p ≠ [] ∧ 0 ∉ interfacePath name p := by
  have hdecimal : ∀ n, 0 ∉ decimal n := by
    intro n hmem
    have hdigit := isDigit_of_mem_decimal hmem
    cases hdigit
  have hprint : 0 ∉ printOrdinal p.2 := by
    unfold printOrdinal
    split
    · simp [hdecimal]
    · exact hdecimal _
  constructor
  · simp [interfacePath]
  · simp [interfacePath, refString, hname.1, hprint]

end RoundTrip

/-! ## The ordinals -/

section Ordinals

variable {w w' : InterfaceWorld} {es : List InterfaceEvent}

/-- Every device that is present has an ordinal of its own, and the counter is not behind. -/
structure InterfaceWorld.Distinct (w : InterfaceWorld) : Prop where
  /-- The counter. -/
  counter : -1 ≤ w.nextOrdinal
  /-- The ordinals. -/
  ordinals : ∀ p ∈ w.present, 0 ≤ p.2 ∧ p.2 ≤ w.nextOrdinal
  /-- No ordinal is given twice. -/
  nodup : (w.present.map Prod.snd).Nodup

/-- A step keeps the ordinals apart until the counter comes round, and counts what it counts. -/
theorem InterfaceWorld.Distinct.next (h : w.Distinct) (e : InterfaceEvent)
    (hlt : e.counted = true → w.nextOrdinal < 2 ^ 31 - 1) :
    (w.next e).Distinct ∧
      (w.next e).nextOrdinal = w.nextOrdinal + if e.counted then 1 else 0 := by
  have hincrement : e.counted = true →
      interlockedIncrement w.nextOrdinal = w.nextOrdinal + 1 :=
    fun he => if_neg (Int.ne_of_lt (hlt he))
  have hcounter := h.counter
  cases e with
  | add =>
    have hnext := hincrement rfl
    refine ⟨⟨?_, ?_, ?_⟩, hnext⟩
    · show -1 ≤ interlockedIncrement w.nextOrdinal
      omega
    · intro p hp
      show 0 ≤ p.2 ∧ p.2 ≤ interlockedIncrement w.nextOrdinal
      rcases List.mem_append.mp hp with hold | hnew
      · have hp' := h.ordinals p hold
        omega
      · obtain rfl := List.mem_singleton.mp hnew
        exact ⟨by omega, Int.le_refl _⟩
    · show ((w.present ++ [(w.nextDevice, interlockedIncrement w.nextOrdinal)]).map Prod.snd).Nodup
      rw [List.map_append, List.map_singleton]
      refine h.nodup.append (List.nodup_singleton _) ?_
      intro o hold hnew
      obtain ⟨p, hp, rfl⟩ := List.mem_map.mp hold
      have hp' := h.ordinals p hp
      have heq := List.mem_singleton.mp hnew
      omega
  | addFails counted =>
    cases counted with
    | false => exact ⟨h, (Int.add_zero _).symm⟩
    | true =>
      have hnext : (w.next (.addFails true)).nextOrdinal = w.nextOrdinal + 1 := hincrement rfl
      refine ⟨⟨by omega, ?_, h.nodup⟩, hnext⟩
      intro p hp
      have hp' := h.ordinals p hp
      omega
  | remove D =>
    refine ⟨⟨hcounter, fun p hp => h.ordinals p (List.mem_of_mem_filter hp), ?_⟩,
      (Int.add_zero _).symm⟩
    exact h.nodup.sublist (List.filter_sublist.map _)

/-- A run keeps the ordinals apart until the counter comes round. -/
theorem InterfaceWorld.Distinct.run (h : w.Distinct)
    (hrun : Run (graph InterfaceWorld.next) w es w')
    (hcount : w.nextOrdinal + es.countP InterfaceEvent.counted < 2 ^ 31) :
    w'.Distinct ∧ w'.nextOrdinal < 2 ^ 31 := by
  induction hrun with
  | nil w => exact ⟨h, by simpa using hcount⟩
  | @cons w t w' e es hstep _ ih =>
    obtain rfl := hstep
    have hnonneg : (0 : ℤ) ≤ es.countP InterfaceEvent.counted := Int.natCast_nonneg _
    rw [List.countP_cons] at hcount
    push_cast at hcount
    obtain ⟨hnext, hordinal⟩ := h.next e fun he => by
      rw [if_pos he] at hcount
      omega
    apply ih hnext
    rw [hordinal]
    omega

end Ordinals

/-! ## The two loops -/

section Loops

variable {name : ℕ → List ℕ} {ds : List (ℕ × ℤ)}

/-- Paths whose ordinals can be read. -/
def Readable (name : ℕ → List ℕ) (ds : List (ℕ × ℤ)) : Prop :=
  ∀ p ∈ ds, ttOrdinalFromPath (interfacePath name p) = some p.2

/-- The loop of `tt_enumerate` counts the devices, and puts the first ordinals into the array. -/
theorem loop_enumerate (hread : Readable name ds) (hasIds : Bool) (maxIds : ℤ) (n : ℕ)
    (ids : ℕ → ℤ) :
    ∃ ids', loopStrings (enumerateBody hasIds maxIds) (n, ids) (ds.map (interfacePath name)) =
        (n + ds.length, ids') ∧
      ∀ i, ids' i = if hasIds = true ∧ (i : ℤ) < maxIds ∧ n ≤ i then
        (ds[i - n]?.map Prod.snd).getD (ids i) else ids i := by
  induction ds generalizing n ids with
  | nil => exact ⟨ids, rfl, fun i => by simp⟩
  | cons p ds ih =>
    let ids₁ := if hasIds = true ∧ (n : ℤ) < maxIds then Function.update ids n p.2 else ids
    have hbody : enumerateBody hasIds maxIds (n, ids) (interfacePath name p) =
        ((n + 1, ids₁), false) := by
      rw [enumerateBody, hread p List.mem_cons_self]
    obtain ⟨ids', hloop, hids⟩ := ih (fun q hq => hread q (List.mem_cons_of_mem p hq)) (n + 1) ids₁
    refine ⟨ids', ?_, fun i => ?_⟩
    · rw [List.map_cons, loopStrings, hbody]
      rw [if_neg Bool.false_ne_true, hloop, List.length_cons]
      congr 1
      omega
    · have hother : i ≠ n → ids₁ i = ids i := by
        intro hi
        by_cases hroom : hasIds = true ∧ (n : ℤ) < maxIds
        · simp [ids₁, hroom, hi]
        · simp [ids₁, hroom]
      rw [hids i]
      rcases Nat.lt_trichotomy i n with hlt | rfl | hgt
      · rw [if_neg (fun h => by omega), if_neg (fun h => by omega), hother (by omega)]
      · rw [if_neg (fun h => by omega)]
        by_cases hroom : hasIds = true ∧ (i : ℤ) < maxIds
        · rw [if_pos ⟨hroom.1, hroom.2, Nat.le_refl i⟩]
          simp [ids₁, hroom]
        · rw [if_neg (fun h => hroom ⟨h.1, h.2.1⟩)]
          simp [ids₁, hroom]
      · have hindex : (p :: ds)[i - n]? = ds[i - (n + 1)]? := by
          have hsucc : i - n = i - (n + 1) + 1 := by omega
          rw [hsucc, List.getElem?_cons_succ]
        rw [hindex, hother (by omega)]
        simp only [Nat.succ_le_iff, hgt, Nat.le_of_lt hgt]

/-- The loop of `tt_open` finds the first device with the ordinal. -/
theorem loop_open (hread : Readable name ds) (createFile : List ℕ → Option ℕ) (deviceId : ℤ) :
    loopStrings (openBody createFile deviceId) none (ds.map (interfacePath name)) =
      (ds.find? fun p => p.2 = deviceId).bind fun p => createFile (interfacePath name p) := by
  induction ds with
  | nil => rfl
  | cons p ds ih =>
    rw [List.map_cons, loopStrings, List.find?_cons, openBody, hread p List.mem_cons_self]
    by_cases hp : p.2 = deviceId
    · simp [hp]
    · rw [if_neg (fun h => hp (Option.some.inj h))]
      simp [hp, ih fun q hq => hread q (List.mem_cons_of_mem p hq)]

end Loops

/-! ## Every history -/

section History

/-- The system lists these paths, in memory that is as large as it had said. -/
def InterfaceAnswers.Lists (answers : InterfaceAnswers) (paths : List (List ℕ)) : Prop :=
  ∃ len, answers = ⟨some len, true, some (multiString paths)⟩ ∧ (multiString paths).length ≤ len

variable {name : ℕ → List ℕ} {ds : List (ℕ × ℤ)} {answers : InterfaceAnswers}

/-- Either there is no list, because there is nothing to list, or a loop walks through it. -/
theorem ttInterfaceList_of_lists (hlists : answers.Lists (ds.map (interfacePath name)))
    (hname : ∀ p ∈ ds, SymbolicName (name p.1)) :
    (ds = [] ∧ ttInterfaceList answers = .error errorNoMoreItems) ∨
      ∃ list, ttInterfaceList answers = .ok list ∧
        ∀ {α : Type} (body : α → List ℕ → α × Bool) (a : α),
          walkStrings body (list.length + 1) a list =
            some (loopStrings body a (ds.map (interfacePath name))) := by
  obtain ⟨len, rfl, hlen⟩ := hlists
  have hstrings : ∀ s ∈ ds.map (interfacePath name), s ≠ [] ∧ 0 ∉ s := by
    intro s hs
    obtain ⟨p, hp, rfl⟩ := List.mem_map.mp hs
    exact interfacePath_string (hname p hp)
  have hlong : ds.length < (multiString (ds.map (interfacePath name))).length := by
    have hone : ∀ ss : List (List ℕ), ss.length < (multiString ss).length := by
      intro ss
      induction ss with
      | nil => decide
      | cons s ss ih =>
        have hcons : multiString (s :: ss) = s ++ 0 :: multiString ss := by simp [multiString]
        rw [hcons, List.length_append, List.length_cons, List.length_cons]
        omega
    simpa using hone (ds.map (interfacePath name))
  by_cases hsmall : len ≤ 1
  · refine .inl ⟨List.length_eq_zero_iff.mp (by omega), ?_⟩
    simp [ttInterfaceList, hsmall]
  · refine .inr ⟨_, by simp [ttInterfaceList, hsmall]; rfl, fun body a => ?_⟩
    exact walkStrings_multiString body hstrings (by
      rw [List.length_map, List.length_append]
      omega) a _

/-- In every history of devices that are added, fail to be added and are removed, while the driver
has counted no more than 2 ^ 31 of them: no two devices that are present have one ordinal; and when
the system lists their interfaces, in any order, `tt_enumerate` counts them all and fills the array
with their ordinals in that order, as far as it goes, and `tt_open` opens exactly the interface of
the device with the ordinal, or fails when there is none. No read is behind the list. -/
theorem devices_enumerated {es : List InterfaceEvent} {w : InterfaceWorld}
    (hrun : Run (graph InterfaceWorld.next) .loaded es w)
    (hcount : es.countP InterfaceEvent.counted ≤ 2 ^ 31)
    (hname : ∀ D, SymbolicName (name D)) (hds : ds.Perm w.present)
    (hlists : answers.Lists (ds.map (interfacePath name))) :
    (w.present.map Prod.snd).Nodup ∧
      (∀ hasIds maxIds ids, ∃ ids',
        ttEnumerate answers hasIds maxIds ids = some (ds.length, ids') ∧
          ∀ i, ids' i = if hasIds = true ∧ (i : ℤ) < maxIds then
            (ds[i]?.map Prod.snd).getD (ids i) else ids i) ∧
      (∀ p ∈ w.present, ∀ createFile lastError,
        openFile answers createFile lastError p.2 =
          some ((createFile (interfacePath name p)).elim
            (.error (if lastError ≠ 0 then lastError else errorFileNotFound)) .ok)) ∧
      ∀ deviceId, (∀ p ∈ w.present, p.2 ≠ deviceId) → ∀ createFile lastError,
        ∃ err, openFile answers createFile lastError deviceId = some (.error err) := by
  have hloaded : InterfaceWorld.loaded.Distinct := by
    refine ⟨Int.le_refl _, ?_, List.nodup_nil⟩
    intro p hp
    cases hp
  obtain ⟨hdistinct, hcounter⟩ := hloaded.run hrun (by
    show (-1 : ℤ) + es.countP InterfaceEvent.counted < 2 ^ 31
    omega)
  have hread : Readable name ds := by
    intro p hp
    obtain ⟨hnonneg, hle⟩ := hdistinct.ordinals p (hds.mem_iff.mp hp)
    exact ttOrdinalFromPath_interfacePath (hname p.1) hnonneg (by omega)
  have hnodup : (ds.map Prod.snd).Nodup := (hds.map Prod.snd).nodup_iff.mpr hdistinct.nodup
  refine ⟨hdistinct.nodup, ?_, ?_, ?_⟩
  · intro hasIds maxIds ids
    unfold ttEnumerate
    rcases ttInterfaceList_of_lists hlists fun p _ => hname p.1 with
      ⟨rfl, hnone⟩ | ⟨list, hlist, hwalk⟩
    · rw [hnone]
      exact ⟨ids, rfl, fun i => by simp⟩
    · rw [hlist]
      obtain ⟨ids', hloop, hids⟩ := loop_enumerate hread hasIds maxIds 0 ids
      refine ⟨ids', ?_, fun i => ?_⟩
      · show walkStrings _ _ _ _ = _
        rw [hwalk, hloop, Nat.zero_add]
      · rw [hids i, Nat.sub_zero]
        simp only [Nat.zero_le, and_true]
  · intro p hp createFile lastError
    have hmem := hds.mem_iff.mpr hp
    -- the first device with the ordinal is the only one
    obtain ⟨q, hfind⟩ : ∃ q, (ds.find? fun q => q.2 = p.2) = some q := by
      apply Option.isSome_iff_exists.mp
      exact List.find?_isSome.mpr ⟨p, hmem, by simp⟩
    have hq : q.2 = p.2 := by simpa using List.find?_some hfind
    obtain rfl := List.inj_on_of_nodup_map hnodup (List.mem_of_find?_eq_some hfind) hmem hq
    unfold openFile
    rcases ttInterfaceList_of_lists hlists fun p _ => hname p.1 with
      ⟨rfl, -⟩ | ⟨list, hlist, hwalk⟩
    · cases hmem
    · rw [hlist]
      show (walkStrings _ _ _ _).map _ = _
      rw [hwalk, loop_open hread, hfind]
      rfl
  · intro deviceId hnone createFile lastError
    have hfind : (ds.find? fun q => q.2 = deviceId) = none := by
      rw [List.find?_eq_none]
      intro p hp
      simpa using hnone p (hds.mem_iff.mp hp)
    unfold openFile
    rcases ttInterfaceList_of_lists hlists fun p _ => hname p.1 with
      ⟨rfl, hempty⟩ | ⟨list, hlist, hwalk⟩
    · rw [hempty]
      exact ⟨_, rfl⟩
    · rw [hlist]
      refine ⟨if lastError ≠ 0 then lastError else errorFileNotFound, ?_⟩
      show (walkStrings _ _ _ _).map _ = _
      rw [hwalk, loop_open hread, hfind]
      rfl

/-- Two devices come, a third one fails to, the first one goes and comes back. -/
def replugged : List InterfaceEvent := [.add, .add, .addFails true, .remove 0, .add]

/-- The name of a device in the slot `1`. -/
def slotName (_ : ℕ) : List ℕ := "\\\\?\\PCI#VEN_1E52&DEV_B140#1".toList.map Char.toNat

/-- The system lists the device that came back first. -/
def repluggedPaths : List (List ℕ) := [(2, 3), (1, 1)].map (interfacePath slotName)

/-- The block of strings with its length. -/
def repluggedAnswers : InterfaceAnswers :=
  ⟨some (multiString repluggedPaths).length, true, some (multiString repluggedPaths)⟩

/-- The device that came back has another ordinal, is listed first, and is opened by it. -/
theorem devices_enumerated_replugged :
    (∃ w, Run (graph InterfaceWorld.next) .loaded replugged w ∧ w.present = [(1, 1), (2, 3)]) ∧
      (∃ ids, ttEnumerate repluggedAnswers true 2 (fun _ => 0) = some (2, ids) ∧ ids 0 = 3 ∧
        ids 1 = 1) ∧
      openFile repluggedAnswers
        (fun path => if path = interfacePath slotName (2, 3) then some 7 else none) 0 3 =
          some (.ok 7) := by
  have hrun : Run (graph InterfaceWorld.next) .loaded replugged ⟨3, 3, [(1, 1), (2, 3)]⟩ :=
    .cons rfl (.cons rfl (.cons rfl (.cons rfl (.cons rfl (.nil _)))))
  have hplain : SymbolicName (slotName 0) := ⟨by decide, by decide⟩
  have hname : ∀ D, SymbolicName (slotName D) := fun _ => hplain
  have hlists : repluggedAnswers.Lists repluggedPaths := ⟨_, rfl, Nat.le_refl _⟩
  obtain ⟨-, henumerate, hopen, -⟩ :=
    devices_enumerated hrun (by decide) hname (List.Perm.swap _ _ []) hlists
  obtain ⟨ids, hcount, hids⟩ := henumerate true 2 fun _ => 0
  exact ⟨⟨_, hrun, rfl⟩, ⟨ids, hcount, hids 0, hids 1⟩, hopen (2, 3) (by simp) _ 0⟩

end History

end TtKmd
