import TtKmd.Device.Isolation
import TtKmd.Device.Pool
import TtKmd.Device.Regions
import TtKmd.Memory.Mapping
import TtKmd.Memory.References

/-!
# Views across a stop and a restart of the device

To rebalance resources the framework calls `EvtDeviceReleaseHardware` and then
`EvtDevicePrepareHardware`, with handles open and perhaps with other addresses. The two
callbacks write the BARs and the pool of windows from scratch. The views of a handle are in
its own list, which neither of them looks at: they stay valid exactly when no handle has a
view of a BAR or of a window at the time of the release.
-/

namespace TtKmd

open Lib

/-- What `EvtDevicePrepareHardware` keeps of `PCI_COMMON_HEADER`. -/
structure PciHeader where
  /-- `VendorID`. -/
  vendorId : ℕ
  /-- `DeviceID`. -/
  deviceId : ℕ
  /-- `SubVendorID`. -/
  subsysVendorId : ℕ
  /-- `SubSystemID`. -/
  subsysId : ℕ

/-- `TT_PCI_VENDOR_ID` and `TT_PCI_DEVICE_ID_BLACKHOLE`. -/
def PciHeader.isBlackhole (header : PciHeader) : Bool :=
  header.vendorId == 0x1E52 && header.deviceId == 0xB140

/-- `TT_MAX_BARS`. -/
def maxBars : ℕ := 6

/-- What `EvtDevicePrepareHardware` is given and finds. -/
structure HardwareFound where
  /-- The configuration header, when the bus interface is there. -/
  header : Option PciHeader
  /-- The start of the resource that matches a BAR register. -/
  barBase : ℕ → ℕ
  /-- The length of the resource that matches a BAR register; zero when none does. -/
  barLength : ℕ → ℕ
  /-- `TtMapBlackholeBars` succeeds. -/
  mapsBars : Bool
  /-- `WdfDmaEnablerCreate` succeeds. -/
  createsDmaEnabler : Bool
  /-- The probe of the DMA domain: whether it is an identity, when there is a buffer. -/
  dmaIdentity : Option Bool
  /-- `TtBhInitHardware`. -/
  bhInitHardware : Bool

namespace DeviceContext

/-- `TtEvtDeviceAdd`: a device whose hardware was never prepared. -/
def added (dmaBufLimitBytes : ℕ) (regs : Fin 16 → AtuRegs) : DeviceContext :=
  .started
    { isBlackhole := false
      barLength := fun _ => 0
      barBase := fun _ => 0
      dmaEnabler := false
      dmaIdentityKnown := false
      dmaIdentityMapped := false
      dmaBufLimitBytes } 0 0 false regs

/-- The first part of `TtEvtDevicePrepareHardware`: the identity and the BARs. -/
def discover (d : DeviceContext) (found : HardwareFound) : DeviceContext :=
  { d with
    config := { d.config with
      isBlackhole := found.header.elim d.config.isBlackhole PciHeader.isBlackhole
      barLength := fun bar => if bar < maxBars then found.barLength bar else 0
      barBase := fun bar => if bar < maxBars then found.barBase bar else 0 }
    subsysVendorId := found.header.elim d.subsysVendorId PciHeader.subsysVendorId
    subsysId := found.header.elim d.subsysId PciHeader.subsysId }

/-- The second part, for a Blackhole whose BARs are mapped: the pool of windows, the DMA
enabler, the probe of the DMA domain and the initialization. -/
def bringUp (d : DeviceContext) (found : HardwareFound) : DeviceContext :=
  let dmaEnabler := d.config.dmaEnabler || found.createsDmaEnabler
  { d with
    config := { d.config with
      dmaEnabler
      dmaIdentityKnown := dmaEnabler && found.dmaIdentity.isSome
      dmaIdentityMapped := dmaEnabler && found.dmaIdentity.getD false }
    needsHwInit := !found.bhInitHardware
    mem := { d.mem with
      tlbUsed := fun id => id == kernelTlbIndex
      tlbOwner := fun _ => none } }

/-- `TtEvtDevicePrepareHardware`: whether it succeeds, and what it leaves. -/
def ttEvtDevicePrepareHardware (d : DeviceContext) (found : HardwareFound) :
    Bool × DeviceContext :=
  let d := d.discover found
  if !d.config.isBlackhole then (true, d)
  else if !found.mapsBars then (false, d)
  else (true, d.bringUp found)

/-- `TtEvtDeviceReleaseHardware`. -/
def ttEvtDeviceReleaseHardware (d : DeviceContext) : DeviceContext :=
  { d with
    config := { d.config with
      barLength := fun _ => 0
      barBase := fun _ => 0
      dmaIdentityKnown := false
      dmaIdentityMapped := false } }

end DeviceContext

/-- Where the framework stands with the hardware of the device. -/
inductive PnpPhase
  /-- Before the first preparation, or after a release. -/
  | stopped
  /-- The preparation has failed; the release follows. -/
  | failed
  /-- The hardware is prepared. -/
  | started
  deriving DecidableEq

/-- A device and its phase. -/
structure PnpWorld where
  /-- The device. -/
  device : DeviceContext
  /-- The phase. -/
  phase : PnpPhase

/-- The callbacks of the framework, and everything else. -/
inductive PnpEvent
  /-- `EvtDevicePrepareHardware`. -/
  | prepareHardware (found : HardwareFound)
  /-- `EvtDeviceReleaseHardware`. -/
  | releaseHardware
  /-- An event of the device. -/
  | device (e : Event)

/-- The events that come through the queue of the device, which the framework holds back while
the hardware is not prepared. -/
def Event.queued : Event → Bool
  | .request _ _ r => !r.inCallerContext
  | _ => false

/-- One step; `none` is an event that cannot happen. -/
def PnpWorld.next (w : PnpWorld) : PnpEvent → Option PnpWorld
  | .prepareHardware found =>
      if w.phase = .stopped then
        let prepared := w.device.ttEvtDevicePrepareHardware found
        some ⟨prepared.2, if prepared.1 then .started else .failed⟩
      else none
  | .releaseHardware =>
      if w.phase ≠ .stopped then some ⟨w.device.ttEvtDeviceReleaseHardware, .stopped⟩ else none
  | .device e =>
      if e.queued = false ∨ w.phase = .started then
        (w.device.next e).map fun device => ⟨device, w.phase⟩
      else none

/-- The view shows a range inside of a BAR that is assigned to the device. -/
def InAssignedBar (c : MemoryConfig) (v : UserMapping) : Prop :=
  ∃ bar < maxBars, c.barLength bar ≠ 0 ∧ c.barBase bar ≤ v.physical ∧
    v.physical + v.length ≤ c.barBase bar + c.barLength bar

/-- The window of a view is owned by the handle. -/
def WindowOwned (m : MemoryState) (F : Handle) (v : UserMapping) : Prop :=
  ∀ id, v.tlbId = some id → m.tlbUsed id = true ∧ m.tlbOwner id = some F

/-- Every view of a BAR or of a window shows an assigned BAR, and its window is owned by the
handle that mapped it. -/
def ViewsValid (d : DeviceContext) : Prop :=
  ∀ F, ∀ v ∈ (d.mem.file F).mappings, v.isDmaBuf = false →
    InAssignedBar d.config v ∧ WindowOwned d.mem F v

/-- No handle has a view of a BAR or of a window. -/
def NoPlainViews (d : DeviceContext) : Prop :=
  ∀ F, ∀ v ∈ (d.mem.file F).mappings, v.isDmaBuf = true

/-- A release comes when no handle has a view of a BAR or of a window. -/
def ReleasedBare (w : PnpWorld) : PnpEvent → Prop
  | .releaseHardware => NoPlainViews w.device
  | _ => True

section Requests

variable {d d' : DeviceContext} {F G : Handle} {v : UserMapping}

/-- A view that `MAP` adds for the handle. -/
def MappedHere (d : DeviceContext) (F : Handle) (v : UserMapping) : Prop :=
  v.isDmaBuf = false → 0 < v.length ∧ InAssignedBar d.config v ∧ WindowOwned d.mem F v

/-- A BAR that has a length is one of the six. -/
def BarsBounded (c : MemoryConfig) : Prop := ∀ bar, c.barLength bar ≠ 0 → bar < maxBars

/-- What `MAP` validates can be mapped. -/
theorem mappedHere_of_validate (hbars : BarsBounded d.config) {i : MapIn} {target : MapTarget}
    (h : mapValidate d.config d.mem F i = .ok target) (userVa : ℕ) (process : Process) :
    MappedHere d F ⟨userVa, i.length, target.physical, target.tlbId,
      decide (i.mmapOffset ≥ mmapOffsetDmaBuf), target.dmaBuf, process⟩ := by
  obtain ⟨⟨hpos, -⟩, hresolve⟩ := mapValidate_eq_ok.mp h
  intro hplain
  have hview : ViewOk d.mem F ⟨userVa, i.length, target.physical, target.tlbId,
      decide (i.mmapOffset ≥ mmapOffsetDmaBuf), target.dmaBuf, process⟩ :=
    viewOk_of_resolve hresolve
  rcases hview with ⟨hdma, -⟩ | ⟨-, hnone, hwindow⟩
  · rw [hplain] at hdma
    cases hdma
  refine ⟨Nat.pos_of_ne_zero hpos, ?_, fun id hid => (hwindow id hid).2⟩
  rcases rangeConfined_of_resolve hresolve with ⟨bar, hlo, hhi⟩ | ⟨_, b, _, _, _, hsome, _⟩
  · have hlength : d.config.barLength bar ≠ 0 := by omega
    exact ⟨bar, hbars bar hlength, hlength, hlo, hhi⟩
  · have hnone' : target.dmaBuf = none := hnone
    rw [hnone'] at hsome
    cases hsome

/-- The views `MAP` leaves. -/
theorem views_map (hbars : BarsBounded d.config) (io : Io) (i : MapIn) (env : MapEnv)
    (hv : v ∈ ((ttIoctlMap d.config d.mem F io i env).mem.file G).mappings) :
    v ∈ (d.mem.file G).mappings ∨ (G = F ∧ MappedHere d F v) := by
  rw [ttIoctlMap_eq] at hv
  split at hv
  · exact .inl hv
  split at hv
  · exact .inl hv
  rename_i target htarget
  unfold mapView at hv
  split at hv
  · exact .inl hv
  split at hv
  · exact .inl hv
  rename_i userVa _
  split at hv
  · exact .inl hv
  by_cases hG : G = F
  · subst hG
    rw [MemoryState.setFile_self] at hv
    rcases List.mem_append.mp hv with hold | hnew
    · exact .inl hold
    · rw [List.mem_singleton.mp hnew]
      exact .inr ⟨rfl, mappedHere_of_validate hbars htarget userVa env.process⟩
  · rw [MemoryState.setFile_of_ne hG] at hv
    exact .inl hv

/-- The views a request leaves: they were there before, or it adds one and leaves the pool of
windows alone. -/
theorem views_handle (h : Resources d) (hbars : BarsBounded d.config) (caller : Process)
    (r : Request) (hv : v ∈ ((handle d F caller r).device.mem.file G).mappings) :
    v ∈ (d.mem.file G).mappings ∨
      (G = F ∧ MappedHere d F v ∧ SamePool d.mem (handle d F caller r).device.mem) := by
  have hok := h.books.apertures.ok
  have hsame : ∀ m : MemoryState, (∀ G, (m.file G).mappings = (d.mem.file G).mappings) →
      v ∈ (m.file G).mappings → v ∈ (d.mem.file G).mappings := fun m hm hv => (hm G) ▸ hv
  by_cases hr : r.creates = false
  · exact .inl ((handle_tearsDown d F caller r hr).views G v hv)
  cases r with
  | allocateDmaBuf io i env =>
    left
    refine hsame (ttIoctlAllocateDmaBuf d.config d.detached d.mem F io i env).mem ?_ hv
    rcases ttIoctlAllocateDmaBuf_cases d.config d.detached F io hok i env with
      (hm | ⟨_, u', _, _, _, hm⟩) | ⟨_, b, u', hall⟩
    · rw [hm]
      exact fun _ => rfl
    · rw [hm]
      exact fun _ => rfl
    · rw [hall.mem]
      exact MemoryState.setFile_proj FileMemory.mappings rfl
  | map io i env =>
    refine (views_map hbars io i _ hv).imp_right fun hnew => ⟨hnew.1, hnew.2, ?_⟩
    exact ttIoctlMap_windows d.config d.mem F io i _
  | pinPages io i env =>
    left
    refine hsame (ttIoctlPinPages d.config d.detached d.mem F io i env).mem ?_ hv
    rcases ttIoctlPinPages_cases d.config d.detached F io hok i env with
      (hm | ⟨_, u', _, _, _, hm⟩) | ⟨_, p, target, u', hpin⟩
    · rw [hm]
      exact fun _ => rfl
    · rw [hm]
      exact fun _ => rfl
    · rw [hpin.mem]
      exact MemoryState.setFile_proj FileMemory.mappings rfl
  | _ => exact absurd rfl hr

/-- A request leaves what the hardware set-up fixed. -/
theorem config_handle (caller : Process) (r : Request) :
    (handle d F caller r).device.config = d.config := by
  cases r with
  | resetDevice io i env =>
    show (ttIoctlResetDevice d F io i env).device.config = d.config
    rcases ttIoctlResetDevice_cases d F io i env with ⟨_, hd' | hd' | hd'⟩ | ⟨_, hw, hd'⟩
    all_goals exact (congrArg DeviceContext.config hd').trans rfl
  | _ => rfl

/-- A window of a handle that has a view of it stays with the handle. -/
theorem windowOwned_handle (h : Resources d) (caller : Process) (r : Request)
    (hv : v ∈ (d.mem.file G).mappings) (howned : WindowOwned d.mem G v) :
    WindowOwned (handle d F caller r).device.mem G v := by
  have hok := h.books.apertures.ok
  by_cases halloc : ∃ io size, r = .allocateTlb io size
  · obtain ⟨io, size, rfl⟩ := halloc
    show WindowOwned (ttIoctlAllocateTlb d.config d.mem F io size).mem G v
    rcases ttIoctlAllocateTlb_cases d.config d.mem F io size with
      ⟨_, _, hreply⟩ | ⟨_, _, ⟨_, hreply⟩ | ⟨id, _, hfree, _, hreply⟩⟩
    · rw [hreply]
      exact howned
    · rw [hreply]
      exact howned
    · intro id' hid'
      obtain ⟨hused, howner⟩ := howned id' hid'
      have hne : id' ≠ id := by
        rintro rfl
        rw [hfree] at hused
        cases hused
      rw [hreply]
      split
      · simp [holdTlb, hne, hused, howner]
      · simp [Reply.fail, holdTlb, releaseTlb, hne, hused, howner]
  by_cases hfree : ∃ io id, r = .freeTlb io id
  · obtain ⟨io, id, rfl⟩ := hfree
    show WindowOwned (ttIoctlFreeTlb d.mem F io id).mem G v
    rcases ttIoctlFreeTlb_cases d.mem F io id with ⟨_, hm⟩ | ⟨_, hF, hunmapped, hm⟩
    · rw [hm]
      exact howned
    · intro id' hid'
      obtain ⟨hused, howner⟩ := howned id' hid'
      have hne : id' ≠ id := by
        rintro rfl
        obtain rfl : G = F := Option.some.inj (howner.symm.trans hF)
        exact hunmapped v hv hid'
      rw [hm]
      simp [releaseTlb, hne, hused, howner]
  · have hpool := samePool_handle (F := F) hok caller (fun io size hr => halloc ⟨io, size, hr⟩)
      fun io id hr => hfree ⟨io, id, hr⟩
    intro id hid
    rw [hpool.1, hpool.2]
    exact howned id hid

/-- A window stays with the handle through steps that leave the pool alone. -/
theorem WindowOwned.same {m m' : MemoryState} (h : WindowOwned m F v) (hsame : SamePool m m') :
    WindowOwned m' F v := by
  intro id hid
  rw [hsame.1, hsame.2]
  exact h id hid

end Requests

/-- The invariant of a device between two steps. -/
structure Viewed (d : DeviceContext) : Prop where
  /-- The resources are accounted for. -/
  resources : Resources d
  /-- The BARs that have a length are among the six. -/
  bars : BarsBounded d.config
  /-- A view of a BAR or of a window is not empty. -/
  sized : ∀ F, ∀ v ∈ (d.mem.file F).mappings, v.isDmaBuf = false → 0 < v.length
  /-- Such a view is valid. -/
  valid : ViewsValid d
  /-- There is none on a detached device. -/
  detached : d.detached = true → NoPlainViews d

section Steps

variable {d d' : DeviceContext} {F G : Handle}

/-- A device without views of BARs and windows has none that is not valid. -/
theorem NoPlainViews.viewed (hnone : NoPlainViews d) (hres : Resources d)
    (hbars : BarsBounded d.config) : Viewed d := by
  have habsurd : ∀ F, ∀ v ∈ (d.mem.file F).mappings, v.isDmaBuf = false → False := by
    intro F v hv hplain
    rw [hnone F v hv] at hplain
    cases hplain
  exact ⟨hres, hbars, fun F v hv hplain => (habsurd F v hv hplain).elim,
    fun F v hv hplain => (habsurd F v hv hplain).elim, fun _ => hnone⟩

/-- Only the open handles can have views. -/
theorem Resources.noPlainViews (h : Resources d)
    (hlisted : ∀ F ∈ d.fileList, ∀ v ∈ (d.mem.file F).mappings, v.isDmaBuf = true) :
    NoPlainViews d := by
  intro F v hv
  by_cases hF : F ∈ d.fileList
  · exact hlisted F hF v hv
  · rw [h.no_views hF] at hv
    cases hv

/-- A step that only takes views away, and no window of a view that it leaves. -/
theorem Viewed.fewer (h : Viewed d) (hres : Resources d') (hconfig : d'.config = d.config)
    (hviews : ∀ F, ∀ v ∈ (d'.mem.file F).mappings, v ∈ (d.mem.file F).mappings)
    (hwindows : ∀ F, ∀ v ∈ (d'.mem.file F).mappings, WindowOwned d.mem F v →
      WindowOwned d'.mem F v)
    (hdetached : d'.detached = true → d.detached = true) : Viewed d' where
  resources := hres
  bars := by
    rw [hconfig]
    exact h.bars
  sized := fun F v hv => h.sized F v (hviews F v hv)
  valid := fun F v hv hplain => by
    obtain ⟨hbar, howned⟩ := h.valid F v (hviews F v hv) hplain
    rw [hconfig]
    exact ⟨hbar, hwindows F v hv howned⟩
  detached := fun hdet F v hv => h.detached (hdetached hdet) F v (hviews F v hv)

/-- A request keeps the invariant. -/
theorem Viewed.dispatch (h : Viewed d) (hopen : d.isOpen F = true) (caller : Process)
    (r : Request) : Viewed (dispatch d F caller r).device := by
  have hres := h.resources.dispatch hopen caller r
  have hdet := dispatch_detached d F caller r
  unfold TtKmd.dispatch at hres hdet ⊢
  split
  · exact h
  rename_i hgate
  split
  · exact h
  rename_i hcaller
  rw [if_neg hgate, if_neg hcaller] at hres hdet
  have hviews := fun G v hv =>
    views_handle (G := G) (v := v) h.resources h.bars (F := F) caller r hv
  have hattached : d.detached = false := by
    by_contra hgone
    rw [Bool.not_eq_false] at hgone
    exact hgate (by simp [ttCheckIoGates, hgone])
  refine ⟨hres, by rw [config_handle]; exact h.bars, ?_, ?_, ?_⟩
  · intro G v hv hplain
    rcases hviews G v hv with hold | ⟨rfl, hnew, _⟩
    · exact h.sized G v hold hplain
    · exact (hnew hplain).1
  · intro G v hv hplain
    rw [config_handle]
    rcases hviews G v hv with hold | ⟨rfl, hnew, hpool⟩
    · obtain ⟨hbar, howned⟩ := h.valid G v hold hplain
      exact ⟨hbar, windowOwned_handle h.resources caller r hold howned⟩
    · obtain ⟨-, hbar, howned⟩ := hnew hplain
      exact ⟨hbar, howned.same hpool⟩
  · intro hgone
    rw [hdet, hattached] at hgone
    cases hgone

/-- The windows of the other handles stay with them when a handle is closed. -/
theorem windowOwned_cleanup {v : UserMapping} (detached : Bool) (m : MemoryState) (hne : G ≠ F)
    (h : WindowOwned m G v) : WindowOwned (ttMemoryFileCleanup detached m F) G v := by
  have hsection := h.same (cleanupFileSection_windows detached m F)
  intro id hid
  obtain ⟨hused, howner⟩ := hsection id hid
  have hother : ¬ (id < tlbTotal ∧ (cleanupFileSection detached m F).tlbOwner id = some F) := by
    rintro ⟨-, hF⟩
    exact hne (Option.some.inj (howner.symm.trans hF))
  simp [ttMemoryFileCleanup, cleanupTlbSection, hused, howner, hne]

/-- No event of the device changes what the hardware set-up fixed. -/
theorem config_next {e : Event} (hstep : d.next e = some d') : d'.config = d.config := by
  cases e with
  | request F caller r =>
    obtain ⟨_, rfl⟩ := DeviceContext.next_request hstep
    unfold TtKmd.dispatch
    split
    · rfl
    split
    · rfl
    · exact config_handle caller r
  | cleanup F =>
    obtain ⟨_, rfl⟩ := DeviceContext.next_cleanup hstep
    rfl
  | _ =>
    cases hstep
    rfl

/-- Every event of the device keeps the invariant. -/
theorem Viewed.next (h : Viewed d) {e : Event} (hstep : d.next e = some d') : Viewed d' := by
  have hres := h.resources.next hstep
  cases e with
  | create opener =>
    cases hstep
    exact h.fewer hres rfl (fun _ _ hv => hv) (fun _ _ _ howned => howned) id
  | request F caller r =>
    obtain ⟨hopen, rfl⟩ := DeviceContext.next_request hstep
    exact h.dispatch hopen caller r
  | cleanup F =>
    obtain ⟨hopen, rfl⟩ := DeviceContext.next_cleanup hstep
    obtain ⟨hempty, hothers⟩ := h.resources.books.fileCleanup_files d.detached
      (DeviceContext.lt_of_isOpen hopen)
    have hne : ∀ G, ∀ v ∈ ((ttMemoryFileCleanup d.detached d.mem F).file G).mappings, G ≠ F := by
      rintro G v hv rfl
      rw [hempty.mappings] at hv
      cases hv
    refine h.fewer hres rfl (fun G v hv => ?_) (fun G v hv howned => ?_) id
    · rw [← hothers G (hne G v hv)]
      exact hv
    · exact windowOwned_cleanup d.detached d.mem (hne G v hv) howned
  | processExit process =>
    cases hstep
    refine h.fewer hres rfl (tearsDown_processExits _ d.mem).views
      (fun _ _ _ howned => howned.same (samePool_processExits _ _ _)) id
  | surpriseRemoval =>
    cases hstep
    exact NoPlainViews.viewed (fun _ _ hv => h.resources.no_plain_views hv) hres h.bars
  | cancel k =>
    cases hstep
    exact h.fewer hres rfl (fun _ _ hv => hv) (fun _ _ _ howned => howned) id

end Steps

/-- The invariant of a device and its phase. -/
structure PnpViewed (w : PnpWorld) : Prop where
  /-- The device. -/
  viewed : Viewed w.device
  /-- No BAR is assigned to a device that is stopped. -/
  stopped : w.phase = .stopped → ∀ bar, w.device.config.barLength bar = 0

section Callbacks

variable {d : DeviceContext} {w w' : PnpWorld}

/-- Where no BAR is assigned the only valid views are those of DMA buffers. -/
theorem ViewsValid.bare (h : ViewsValid d) (hnone : ∀ bar, d.config.barLength bar = 0) :
    NoPlainViews d := by
  intro F v hv
  by_contra hplain
  obtain ⟨⟨bar, _, hlength, _⟩, _⟩ := h F v hv (Bool.not_eq_true _ ▸ hplain)
  exact hlength (hnone bar)

/-- A device that was added and never prepared. -/
theorem PnpViewed.added (dmaBufLimitBytes : ℕ) (regs : Fin 16 → AtuRegs) :
    PnpViewed ⟨.added dmaBufLimitBytes regs, .stopped⟩ := by
  have hbare : NoPlainViews (.added dmaBufLimitBytes regs) := fun _ _ hv => by cases hv
  exact ⟨hbare.viewed (Resources.started _ 0 0 false regs) (fun _ hlength => absurd rfl hlength),
    fun _ _ => rfl⟩

/-- A preparation of a device without views of BARs and windows. -/
theorem NoPlainViews.prepareHardware (hbare : NoPlainViews d) (h : Resources d)
    (found : HardwareFound) : Viewed (d.ttEvtDevicePrepareHardware found).2 := by
  have hdiscover : Resources (d.discover found) := h.congr rfl rfl rfl rfl
  have hbars : BarsBounded (d.discover found).config := by
    intro bar hlength
    by_contra hbar
    exact hlength (if_neg hbar)
  unfold DeviceContext.ttEvtDevicePrepareHardware
  dsimp only
  split
  · exact NoPlainViews.viewed hbare hdiscover hbars
  split
  · exact NoPlainViews.viewed hbare hdiscover hbars
  · have hbringUp : Resources ((d.discover found).bringUp found) :=
      ⟨hdiscover.books.windows _ _, hdiscover.listed, hdiscover.nodup, hdiscover.known,
        hdiscover.gone⟩
    exact NoPlainViews.viewed hbare hbringUp hbars

/-- A release leaves the views valid exactly when there are none of BARs and windows. -/
theorem viewsValid_release_iff :
    ViewsValid d.ttEvtDeviceReleaseHardware ↔ NoPlainViews d := by
  refine ⟨fun h => h.bare fun _ => rfl, fun hbare F v hv hplain => ?_⟩
  have hdma : v.isDmaBuf = true := hbare F v hv
  rw [hplain] at hdma
  cases hdma

/-- Every step that meets the condition keeps the invariant. -/
theorem PnpViewed.next (h : PnpViewed w) {e : PnpEvent} (hcond : ReleasedBare w e)
    (hstep : w.next e = some w') : PnpViewed w' := by
  cases e with
  | prepareHardware found =>
    obtain ⟨hphase, rfl⟩ := guard_of_eq_some hstep
    have hbare := h.viewed.valid.bare (h.stopped hphase)
    refine ⟨hbare.prepareHardware h.viewed.resources found, fun hstopped => ?_⟩
    dsimp only at hstopped
    split at hstopped <;> cases hstopped
  | releaseHardware =>
    obtain ⟨_, rfl⟩ := guard_of_eq_some hstep
    have hbare : NoPlainViews w.device.ttEvtDeviceReleaseHardware := hcond
    exact ⟨hbare.viewed (h.viewed.resources.congr rfl rfl rfl rfl)
      fun _ hlength => absurd rfl hlength, fun _ _ => rfl⟩
  | device e =>
    simp only [PnpWorld.next] at hstep
    split at hstep
    swap
    · cases hstep
    obtain ⟨device, hdevice, rfl⟩ := Option.map_eq_some_iff.mp hstep
    refine ⟨h.viewed.next hdevice, fun hstopped bar => ?_⟩
    rw [show device.config = w.device.config from config_next hdevice]
    exact h.stopped hstopped bar

/-- Every run whose steps meet the condition keeps the invariant. -/
theorem PnpViewed.run {dmaBufLimitBytes : ℕ} {regs : Fin 16 → AtuRegs} {es : List PnpEvent}
    (hrun : Run (restrict (partialGraph PnpWorld.next) ReleasedBare)
      ⟨.added dmaBufLimitBytes regs, .stopped⟩ es w) : PnpViewed w :=
  hrun.invariant (fun _ _ _ h hstep => h.next hstep.1 hstep.2)
    (PnpViewed.added dmaBufLimitBytes regs)

end Callbacks

/-- The first preparation of a Blackhole gives the started device of the other results. -/
theorem prepareHardware_added (dmaBufLimitBytes : ℕ) (regs : Fin 16 → AtuRegs)
    {found : HardwareFound} {header : PciHeader} (hheader : found.header = some header)
    (hblackhole : header.isBlackhole = true) (hmaps : found.mapsBars = true) :
    ∃ config : MemoryConfig, config.isBlackhole = true ∧
      DeviceContext.ttEvtDevicePrepareHardware (.added dmaBufLimitBytes regs) found =
        (true, .started config header.subsysVendorId header.subsysId (!found.bhInitHardware)
          regs) := by
  refine ⟨(((DeviceContext.added dmaBufLimitBytes regs).discover found).bringUp found).config,
    ?_, ?_⟩
  · simp [DeviceContext.bringUp, DeviceContext.discover, hheader, hblackhole]
  · simp [DeviceContext.ttEvtDevicePrepareHardware, DeviceContext.bringUp, DeviceContext.discover,
      DeviceContext.added, DeviceContext.started, MemoryState.started, hheader, hblackhole, hmaps]

/-- In every run from the addition of a device, through stops and restarts with whatever BARs,
whose releases come when no handle has a view of a BAR or of a window, every such view shows an
assigned BAR and its window is owned by the handle that mapped it, in every state that is
reached. The condition is the exact one for a release, and it holds of a device that is gone. -/
theorem views_valid_when_released_bare {dmaBufLimitBytes : ℕ} {regs : Fin 16 → AtuRegs}
    {es : List PnpEvent} {w : PnpWorld}
    (hrun : Run (restrict (partialGraph PnpWorld.next) ReleasedBare)
      ⟨.added dmaBufLimitBytes regs, .stopped⟩ es w) :
    ViewsValid w.device ∧ (w.device.detached = true → NoPlainViews w.device) ∧
      ∀ w', w.next .releaseHardware = some w' →
        (ViewsValid w'.device ↔ ReleasedBare w .releaseHardware) := by
  have hinv := PnpViewed.run hrun
  refine ⟨hinv.viewed.valid, hinv.viewed.detached, fun w' hstep => ?_⟩
  obtain ⟨_, rfl⟩ := guard_of_eq_some hstep
  exact viewsValid_release_iff

/-- A Blackhole whose BAR 0 is at an address. -/
def foundAt (base : ℕ) : HardwareFound where
  header := some ⟨0x1E52, 0xB140, 0, 0⟩
  barBase := fun bar => if bar = 0 then base else 0
  barLength := fun bar => if bar = 0 then 2 ^ 29 else 0
  mapsBars := true
  createsDmaEnabler := true
  dmaIdentity := some true
  bhInitHardware := true

/-- `MAP` of one page of BAR 0 or of the first window. -/
def mapPage (mmapOffset : ℕ) : Request :=
  .map ⟨16, 24⟩ ⟨mmapOffset, 4096⟩ ⟨true, true, some 0x5000, 7⟩

/-- A page of BAR 0 is unmapped before the device is stopped, and mapped again when it has been
restarted with another BAR 0. -/
def unmappedForStop : List PnpEvent :=
  [.prepareHardware (foundAt (2 ^ 36)), .device (.create 7), .device (.request 0 7 (mapPage 0)),
   .device (.request 0 7 (.unmap ⟨16, 0⟩ 0x5000 0)), .releaseHardware,
   .prepareHardware (foundAt (2 ^ 37)), .device (.request 0 7 (mapPage 0))]

/-- The view after the restart is valid. -/
theorem views_valid_when_released_bare_unmappedForStop :
    ∃ w v, Run (restrict (partialGraph PnpWorld.next) ReleasedBare)
        ⟨.added 0 fun _ _ => 0, .stopped⟩ unmappedForStop w ∧
      v ∈ (w.device.mem.file 0).mappings ∧ v.physical = 2 ^ 37 ∧ ViewsValid w.device := by
  have hbefore : ∀ w, Run (restrict (partialGraph PnpWorld.next) ReleasedBare)
      ⟨.added 0 fun _ _ => 0, .stopped⟩ (unmappedForStop.take 4) w →
      w.device.fileList = [0] → (w.device.mem.file 0).mappings = [] →
        ReleasedBare w .releaseHardware := by
    intro w hrun hlist hviews
    refine (PnpViewed.run hrun).viewed.resources.noPlainViews fun F hF v hv => ?_
    rw [hlist] at hF
    obtain rfl : F = 0 := List.mem_singleton.mp hF
    rw [hviews] at hv
    cases hv
  obtain ⟨w, hrun, hviews⟩ : ∃ w, Run (restrict (partialGraph PnpWorld.next) ReleasedBare)
      ⟨.added 0 fun _ _ => 0, .stopped⟩ unmappedForStop w ∧
        (w.device.mem.file 0).mappings = [⟨0x5000, 4096, 2 ^ 37, none, false, none, 7⟩] := by
    refine ⟨_, .cons ⟨trivial, rfl⟩ (.cons ⟨trivial, rfl⟩ (.cons ⟨trivial, rfl⟩
      (.cons ⟨trivial, rfl⟩ (.cons ⟨?_, rfl⟩ (.cons ⟨trivial, rfl⟩ (.cons ⟨trivial, rfl⟩
      (.nil _))))))), rfl⟩
    exact hbefore _ (.cons ⟨trivial, rfl⟩ (.cons ⟨trivial, rfl⟩ (.cons ⟨trivial, rfl⟩
      (.cons ⟨trivial, rfl⟩ (.nil _))))) rfl rfl
  exact ⟨w, _, hrun, hviews ▸ List.mem_cons_self .., rfl, (views_valid_when_released_bare hrun).1⟩

/-- A handle has a view of a window when the device is stopped. After the restart, with another
BAR 0, another handle gets the window. -/
def mappedAcrossStop : List PnpEvent :=
  [.prepareHardware (foundAt (2 ^ 36)), .device (.create 7),
   .device (.request 0 7 (.allocateTlb ⟨16, 48⟩ (2 ^ 21))),
   .device (.request 0 7 (mapPage (6 * 2 ^ 36))), .releaseHardware,
   .prepareHardware (foundAt (2 ^ 37)), .device (.create 8),
   .device (.request 1 8 (.allocateTlb ⟨16, 48⟩ (2 ^ 21)))]

/-- The view is still there: it shows no assigned BAR, and its window is the other handle's. -/
theorem views_outlive_release :
    ∃ w v, Run (partialGraph PnpWorld.next) ⟨.added 0 fun _ _ => 0, .stopped⟩ mappedAcrossStop w ∧
      w.phase = .started ∧ v ∈ (w.device.mem.file 0).mappings ∧ v.isDmaBuf = false ∧
      ¬ InAssignedBar w.device.config v ∧ v.tlbId = some 0 ∧ w.device.mem.tlbOwner 0 = some 1 ∧
      ¬ ViewsValid w.device := by
  have hrun : ∃ w, runList PnpWorld.next ⟨.added 0 fun _ _ => 0, .stopped⟩ mappedAcrossStop =
      some w ∧ w.phase = .started ∧
      (w.device.mem.file 0).mappings = [⟨0x5000, 4096, 2 ^ 36, some 0, false, none, 7⟩] ∧
      w.device.mem.tlbOwner 0 = some 1 ∧
      ¬ InAssignedBar w.device.config ⟨0x5000, 4096, 2 ^ 36, some 0, false, none, 7⟩ := by
    refine ⟨_, rfl, rfl, rfl, rfl, ?_⟩
    rintro ⟨bar, hbar, hlength, hlo, -⟩
    have hlength' : (if bar < maxBars then if bar = 0 then 2 ^ 29 else 0 else 0) ≠ 0 := hlength
    have hlo' : (if bar < maxBars then if bar = 0 then 2 ^ 37 else 0 else 0) ≤ 2 ^ 36 := hlo
    by_cases hzero : bar = 0
    · rw [if_pos hbar, if_pos hzero] at hlo'
      exact absurd hlo' (by decide)
    · rw [if_pos hbar, if_neg hzero] at hlength'
      exact hlength' rfl
  obtain ⟨w, hw, hphase, hviews, howner, hbar⟩ := hrun
  have hmem : (⟨0x5000, 4096, 2 ^ 36, some 0, false, none, 7⟩ : UserMapping) ∈
      (w.device.mem.file 0).mappings := by
    rw [hviews]
    exact List.mem_cons_self ..
  exact ⟨w, _, run_of_runList hw, hphase, hmem, rfl, hbar, rfl, howner,
    fun hvalid => hbar (hvalid 0 _ hmem rfl).1⟩

end TtKmd
