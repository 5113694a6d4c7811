import TtKmd.Lib.ListEntry
import TtKmd.Lib.Runs
import TtKmd.Memory.State

/-!
# The lists of the driver in memory

The driver keeps four kinds of lists: of its devices, of the open files of a device, and of the
user mappings and the pinnings of a file. They are `LIST_ENTRY` circles, and the entries lie in
the device contexts, in the file contexts and in the records themselves, all of which come and
go. `ListWorld` is that memory, with the loops and the list operations of the source on it; an
access to memory that is gone, a failed check of the links and a loop that does not end within
its bound are faults.

`ListTable` has the same lists as values, which is how the rest of this development sees them.
Each operation of the driver ends without a fault and does to the lists in memory what it does
to their values.
-/

namespace TtKmd

open Lib

/-- A `LIST_ENTRY` of the driver. -/
inductive ListNode
  /-- `g_TtDeviceList`. -/
  | devices
  /-- `DriverLink` of a device context. -/
  | device (D : ℕ)
  /-- `FileList` of a device context. -/
  | files (D : ℕ)
  /-- `DeviceLink` of a file context. -/
  | file (F : Handle)
  /-- `Mappings` of a file context. -/
  | mappings (F : Handle)
  /-- `Pinnings` of a file context. -/
  | pinnings (F : Handle)
  /-- `Entry` of the `TT_USER_MAPPING` or `TT_PINNING` at an address of the pool. -/
  | record (a : ℕ)
  deriving DecidableEq

/-- The lists of the driver. -/
inductive ListId
  | devices
  | files (D : ℕ)
  | mappings (F : Handle)
  | pinnings (F : Handle)
  deriving DecidableEq

/-- The head of a list. -/
def ListId.head : ListId → ListNode
  | .devices => .devices
  | .files D => .files D
  | .mappings F => .mappings F
  | .pinnings F => .pinnings F

/-- The memory behind the lists. -/
structure ListWorld where
  /-- All `LIST_ENTRY` fields. -/
  entries : Entries ListNode
  /-- The `TT_USER_MAPPING` at an address of the pool. -/
  mapping : ℕ → UserMapping
  /-- The `TT_PINNING` at an address of the pool. -/
  pinning : ℕ → Pinning
  /-- `OnDriverList` of a device context. -/
  onDriverList : ℕ → Bool
  /-- `OnDeviceList` of a file context. -/
  onDeviceList : Handle → Bool
  /-- `CreatorProcess` of a file context. -/
  creatorProcess : Handle → Process

/-- The entries are replaced. -/
def ListWorld.withEntries (w : ListWorld) (m : Entries ListNode) : ListWorld :=
  { w with entries := m }

/-- `TtDeviceListRegister`. -/
def ttDeviceListRegister (w : ListWorld) (D : ℕ) : Option ListWorld :=
  (w.entries.insertTailList .devices (.device D)).map fun m =>
    { w with entries := m, onDriverList := Function.update w.onDriverList D true }

/-- `TtDeviceListUnregister`. -/
def ttDeviceListUnregister (w : ListWorld) (D : ℕ) : Option ListWorld :=
  if w.onDriverList D then
    (w.entries.removeEntryList (.device D)).map fun m =>
      { w with entries := m, onDriverList := Function.update w.onDriverList D false }
  else some w

/-- The lists in `TtEvtDeviceAdd`: the context comes zeroed, its file list is initialised, and
the last thing that a device which could be set up does is to register. -/
def addDevice (w : ListWorld) (D : ℕ) (registers : Bool) : Option ListWorld :=
  (((w.entries.allocate (.device D)).allocate (.files D)).initializeListHead (.files D)).bind
    fun m =>
      let w := { w with entries := m, onDriverList := Function.update w.onDriverList D false }
      if registers then ttDeviceListRegister w D else some w

/-- The lists in `TtEvtDeviceContextCleanup`; then the context goes. -/
def removeDevice (w : ListWorld) (D : ℕ) : Option ListWorld :=
  (ttDeviceListUnregister w D).bind fun w =>
    (w.entries.free (.device D)).bind fun m => (m.free (.files D)).map w.withEntries

/-- The lists in `TtEvtDeviceFileCreate`, with those in `TtFileContextInitMemory`. -/
def createFile (w : ListWorld) (D : ℕ) (F : Handle) (opener : Process) : Option ListWorld :=
  ((((w.entries.allocate (.file F)).allocate (.mappings F)).allocate
    (.pinnings F)).initializeListHead (.mappings F)).bind fun m =>
      (m.initializeListHead (.pinnings F)).bind fun m =>
        (m.insertTailList (.files D) (.file F)).map fun m =>
          { w with
            entries := m
            onDeviceList := Function.update w.onDeviceList F true
            creatorProcess := Function.update w.creatorProcess F opener }

/-- The loops of `TtMemoryProcessExit`, which are also the first two of `TtMemoryFileCleanup`;
`n` bounds the rounds. -/
def drainFile (n : ℕ) (w : ListWorld) (F : Handle) : Option ListWorld :=
  (Entries.drain (.mappings F) n w.entries).bind fun res =>
    (Entries.drain (.pinnings F) n res.1).map fun res => w.withEntries res.1

/-- The part of `TtEvtFileCleanup` under `FileListLock`. -/
def delistFile (w : ListWorld) (F : Handle) : Option ListWorld :=
  if w.onDeviceList F then
    (w.entries.removeEntryList (.file F)).map fun m =>
      { w with entries := m, onDeviceList := Function.update w.onDeviceList F false }
  else some w

/-- The lists in `TtEvtFileCleanup`; then the context goes. -/
def cleanupFile (n : ℕ) (w : ListWorld) (F : Handle) : Option ListWorld :=
  (delistFile w F).bind fun w =>
    (drainFile n w F).bind fun w =>
      (w.entries.free (.file F)).bind fun m =>
        (m.free (.mappings F)).bind fun m => (m.free (.pinnings F)).map w.withEntries

/-- The end of `TtIoctlMap`: a record the pool gave is filled and put into the list. -/
def insertMapping (w : ListWorld) (F : Handle) (a : ℕ) (v : UserMapping) : Option ListWorld :=
  ((w.entries.allocate (.record a)).insertTailList (.mappings F) (.record a)).map fun m =>
    { w with entries := m, mapping := Function.update w.mapping a v }

/-- The end of `TtIoctlPinPages`. -/
def insertPinning (w : ListWorld) (F : Handle) (a : ℕ) (p : Pinning) : Option ListWorld :=
  ((w.entries.allocate (.record a)).insertTailList (.pinnings F) (.record a)).map fun m =>
    { w with entries := m, pinning := Function.update w.pinning a p }

/-- A test of the mapping an entry is in. -/
def ListWorld.testMapping (w : ListWorld) (test : UserMapping → Bool) : ListNode → Bool
  | .record a => test (w.mapping a)
  | _ => false

/-- A test of the pinning an entry is in. -/
def ListWorld.testPinning (w : ListWorld) (test : Pinning → Bool) : ListNode → Bool
  | .record a => test (w.pinning a)
  | _ => false

/-- An entry is unlinked and its record freed. -/
def unlinkAndFree (w : ListWorld) (e : ListNode) : Option ListWorld :=
  (w.entries.removeEntryList e).bind fun m => (m.free e).map w.withEntries

/-- The loop of `TtIoctlUnmap`, with the `TtDestroyUserMapping` behind it. -/
def unmapEntry (n : ℕ) (w : ListWorld) (F : Handle) (userVa : ℕ) : Option ListWorld :=
  (w.entries.findEntry (.mappings F) (w.testMapping fun v => v.userVa == userVa) n).bind
    fun
    | none => some w
    | some e => unlinkAndFree w e

/-- The loop of `TtIoctlUnpinPages`, with the `TtDestroyPinning` behind it. The first pinning at
the address ends the loop; it goes when its size is the right one. -/
def unpinEntry (n : ℕ) (w : ListWorld) (F : Handle) (va size : ℕ) : Option ListWorld :=
  (w.entries.findEntry (.pinnings F) (w.testPinning fun p => p.virtualAddress == va) n).bind
    fun
    | none => some w
    | some e => if w.testPinning (fun p => p.size == size) e then unlinkAndFree w e else some w

/-- The inner loop of `TtResetZapMappings`. -/
def zapEntries (n : ℕ) (w : ListWorld) : ListNode → Option ListWorld
  | .file F =>
      (w.entries.sweep (.mappings F) (w.testMapping (·.isDmaBuf)) n).map fun res =>
        w.withEntries res.1
  | _ => none

/-- `TtResetZapMappings`. -/
def resetZap (n : ℕ) (w : ListWorld) (D : ℕ) : Option ListWorld :=
  Entries.forEach ListWorld.entries (.files D) (zapEntries n) n w

/-- The body of the inner loop of `TtProcessNotify`. -/
def notifyFile (n : ℕ) (process : Process) (w : ListWorld) : ListNode → Option ListWorld
  | .file F => if w.creatorProcess F = process then drainFile n w F else some w
  | _ => none

/-- The body of the outer loop of `TtProcessNotify`. -/
def notifyDevice (n : ℕ) (process : Process) (w : ListWorld) : ListNode → Option ListWorld
  | .device D => Entries.forEach ListWorld.entries (.files D) (notifyFile n process) n w
  | _ => none

/-- `TtProcessNotify`: all files of all devices. -/
def processNotify (n : ℕ) (w : ListWorld) (process : Process) : Option ListWorld :=
  Entries.forEach ListWorld.entries .devices (notifyDevice n process) n w

/-- The mapping an entry is in. -/
def ListWorld.mappingAt (w : ListWorld) : ListNode → Option UserMapping
  | .record a => some (w.mapping a)
  | _ => none

/-- The pinning an entry is in. -/
def ListWorld.pinningAt (w : ListWorld) : ListNode → Option Pinning
  | .record a => some (w.pinning a)
  | _ => none

/-- The loops of `TtIoctlFreeTlb`, `TtIoctlFreeDmaBuf` and `TtFindDmaBufView` over the mappings
of a file, each with its own test. -/
def findMapping (n : ℕ) (w : ListWorld) (F : Handle) (test : UserMapping → Bool) :
    Option (Option UserMapping) :=
  (w.entries.findEntry (.mappings F) (w.testMapping test) n).map fun e => e.bind w.mappingAt

/-- The loops of `TtIoctlFreeDmaBuf` and `TtIoctlPinPages` over the pinnings of a file. -/
def findPinning (n : ℕ) (w : ListWorld) (F : Handle) (test : Pinning → Bool) :
    Option (Option Pinning) :=
  (w.entries.findEntry (.pinnings F) (w.testPinning test) n).map fun e => e.bind w.pinningAt

/-- A file is visited, and the lists stay as they are. -/
def visitFile (s : ListWorld × List Handle) : ListNode → Option (ListWorld × List Handle)
  | .file F => some (s.1, s.2 ++ [F])
  | _ => none

/-- The loop of `TtPowerAggregate`: the files of a device as they are visited. -/
def visitFiles (n : ℕ) (w : ListWorld) (D : ℕ) : Option (List Handle) :=
  (Entries.forEach (fun s : ListWorld × List Handle => s.1.entries) (.files D) visitFile n
    (w, [])).map Prod.snd

/-- What the driver does to its lists. -/
inductive ListOp
  /-- `TtEvtDeviceAdd`, with whether the device registers. -/
  | addDevice (D : ℕ) (registers : Bool)
  /-- `TtEvtDeviceContextCleanup`. -/
  | removeDevice (D : ℕ)
  /-- `TtEvtDeviceFileCreate`. -/
  | create (D : ℕ) (F : Handle) (opener : Process)
  /-- `TtEvtFileCleanup`. -/
  | cleanup (D : ℕ) (F : Handle)
  /-- `TtIoctlMap`, with the address of the record. -/
  | map (F : Handle) (a : ℕ) (v : UserMapping)
  /-- `TtIoctlUnmap`. -/
  | unmap (F : Handle) (userVa : ℕ)
  /-- `TtIoctlPinPages`, with the address of the record. -/
  | pin (F : Handle) (a : ℕ) (p : Pinning)
  /-- `TtIoctlUnpinPages`. -/
  | unpin (F : Handle) (va size : ℕ)
  /-- `TtResetZapMappings`. -/
  | zap (D : ℕ)
  /-- `TtProcessNotify`. -/
  | processNotify (process : Process)

/-- An operation on the memory; `none` is a fault, or a loop of more than `n` rounds. -/
def ListWorld.perform (n : ℕ) (w : ListWorld) : ListOp → Option ListWorld
  | .addDevice D registers => TtKmd.addDevice w D registers
  | .removeDevice D => TtKmd.removeDevice w D
  | .create D F opener => createFile w D F opener
  | .cleanup _ F => cleanupFile n w F
  | .map F a v => insertMapping w F a v
  | .unmap F userVa => unmapEntry n w F userVa
  | .pin F a p => insertPinning w F a p
  | .unpin F va size => unpinEntry n w F va size
  | .zap D => resetZap n w D
  | .processNotify process => TtKmd.processNotify n w process

/-! ## The lists as values -/

/-- The lists of the driver as values. -/
structure ListTable where
  /-- The device contexts there are. -/
  added : ℕ → Bool
  /-- The devices in `g_TtDeviceList`. -/
  devices : List ℕ
  /-- The files in the `FileList` of a device. -/
  files : ℕ → List Handle
  /-- The file contexts there are. -/
  opened : Handle → Bool
  /-- `CreatorProcess` of a file. -/
  creatorProcess : Handle → Process
  /-- The mappings of a file. -/
  mappings : Handle → List UserMapping
  /-- The pinnings of a file. -/
  pinnings : Handle → List Pinning

/-- A loaded driver without devices. -/
def ListTable.init : ListTable :=
  ⟨fun _ => false, [], fun _ => [], fun _ => false, fun _ => 0, fun _ => [], fun _ => []⟩

/-- The mappings of a file are replaced. -/
def ListTable.setMappings (t : ListTable) (F : Handle) (vs : List UserMapping) : ListTable :=
  { t with mappings := Function.update t.mappings F vs }

/-- The pinnings of a file are replaced. -/
def ListTable.setPinnings (t : ListTable) (F : Handle) (ps : List Pinning) : ListTable :=
  { t with pinnings := Function.update t.pinnings F ps }

/-- A file has no mappings and no pinnings any more. -/
def ListTable.drain (t : ListTable) (F : Handle) : ListTable :=
  (t.setMappings F []).setPinnings F []

/-- The mappings of a file that a reset takes are gone. -/
def ListTable.zapFile (t : ListTable) (F : Handle) : ListTable :=
  t.setMappings F ((t.mappings F).filter (·.isDmaBuf))

/-- A file is drained when it was opened by a process. -/
def ListTable.notifyFile (process : Process) (t : ListTable) (F : Handle) : ListTable :=
  if t.creatorProcess F = process then t.drain F else t

/-- `TtProcessNotify` on one device. -/
def ListTable.notifyDevice (process : Process) (t : ListTable) (D : ℕ) : ListTable :=
  (t.files D).foldl (ListTable.notifyFile process) t

/-- An operation on the values. -/
def ListTable.perform (t : ListTable) : ListOp → ListTable
  | .addDevice D registers =>
      { t with
        added := Function.update t.added D true
        files := Function.update t.files D []
        devices := if registers then t.devices ++ [D] else t.devices }
  | .removeDevice D =>
      { t with added := Function.update t.added D false, devices := t.devices.erase D }
  | .create D F opener =>
      { t with
        opened := Function.update t.opened F true
        files := Function.update t.files D (t.files D ++ [F])
        creatorProcess := Function.update t.creatorProcess F opener
        mappings := Function.update t.mappings F []
        pinnings := Function.update t.pinnings F [] }
  | .cleanup D F =>
      { t.drain F with
        opened := Function.update t.opened F false
        files := Function.update t.files D ((t.files D).erase F) }
  | .map F _ v => t.setMappings F (t.mappings F ++ [v])
  | .unmap F userVa => t.setMappings F ((t.mappings F).eraseP fun v => v.userVa == userVa)
  | .pin F _ p => t.setPinnings F (t.pinnings F ++ [p])
  | .unpin F va size =>
      match (t.pinnings F).find? fun p => p.virtualAddress == va with
      | none => t
      | some p =>
          if p.size = size then
            t.setPinnings F ((t.pinnings F).eraseP fun p => p.virtualAddress == va)
          else t
  | .zap D => (t.files D).foldl ListTable.zapFile t
  | .processNotify process => t.devices.foldl (ListTable.notifyDevice process) t

/-- What the framework and the pool keep to: a context is created once and goes once, a device
goes when its files are closed, a request comes on an open file, and the pool gives memory
that is not in use. -/
def ListOp.Allowed (w : ListWorld) (t : ListTable) : ListOp → Prop
  | .addDevice D _ => t.added D = false
  | .removeDevice D => t.added D = true ∧ t.files D = []
  | .create D F _ => t.added D = true ∧ t.opened F = false
  | .cleanup D F => t.added D = true ∧ F ∈ t.files D
  | .map F a _ => t.opened F = true ∧ w.entries.allocated (.record a) = false
  | .unmap F _ => t.opened F = true
  | .pin F a _ => t.opened F = true ∧ w.entries.allocated (.record a) = false
  | .unpin F _ _ => t.opened F = true
  | .zap D => t.added D = true
  | .processNotify _ => True

end TtKmd
