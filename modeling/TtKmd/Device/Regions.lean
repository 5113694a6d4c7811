import TtKmd.Device.Teardown

/-!
# What the entry points do to the outbound regions

On an attached device a step either opens an aperture, for a buffer or for a pinning that
is new, or it is quiet: it creates no record, and the regions it gives up are disabled.
Teardown is quiet.
-/

namespace TtKmd

open Lib

/-- A step that creates no record and only gives regions up. -/
structure Quiet (m m' : MemoryState) : Prop where
  /-- The regions. -/
  regions : GivesUp m.iatu m'.iatu
  /-- There is no new buffer. -/
  bufs : ∀ G b, b ∈ (m'.file G).bufs → b ∈ (m.file G).bufs
  /-- There is no new pinning. -/
  pinnings : ∀ G p, p ∈ (m'.file G).pinnings → p ∈ (m.file G).pinnings
  /-- The counter of identities. -/
  nextBuf : m'.nextBuf = m.nextBuf

section Quiet

variable {m m' : MemoryState} {F : Handle}

/-- Nothing happened. -/
theorem Quiet.refl (m : MemoryState) : Quiet m m :=
  ⟨.refl _, fun _ _ hb => hb, fun _ _ hp => hp, rfl⟩

/-- An aperture that was opened and torn down again. -/
theorem quiet_iatu {u' : IatuUnit} (h : GivesUp m.iatu u') : Quiet m { m with iatu := u' } :=
  ⟨h, fun _ _ hb => hb, fun _ _ hp => hp, rfl⟩

/-- A change of the views of one handle. -/
theorem quiet_setFile {f : FileMemory} (hbufs : f.bufs = (m.file F).bufs)
    (hpins : f.pinnings = (m.file F).pinnings) : Quiet m (m.setFile F f) where
  regions := .refl _
  bufs := fun G b hb => by rwa [MemoryState.setFile_proj FileMemory.bufs hbufs] at hb
  pinnings := fun G p hp => by rwa [MemoryState.setFile_proj FileMemory.pinnings hpins] at hp
  nextBuf := rfl

/-- On an attached device a teardown is quiet. -/
theorem TearsDown.quiet {detached : Bool} (h : TearsDown detached m m')
    (hdet : detached = false) : Quiet m m' :=
  ⟨h.regions hdet, h.bufs, h.pinnings, h.nextBuf⟩

end Quiet

/-- Everything a request can do to the regions and to the records that name them. -/
inductive RegionsAfter (m m' : MemoryState) (F : Handle) : Request → Prop
  | quiet {r : Request} : Quiet m m' → RegionsAfter m m' F r
  | allocated {io : Io} {i : AllocateDmaBufIn} {env : DmaBufEnv} {b : DmaBuf} {u' : IatuUnit} :
      Allocated m m' F i env b u' → RegionsAfter m m' F (.allocateDmaBuf io i env)
  | pinned {io : Io} {i : PinPagesIn} {env : PinEnv} {p : Pinning} {target : ℕ}
      {u' : IatuUnit} :
      Pinned m m' F i env p target u' → RegionsAfter m m' F (.pinPages io i env)

/-- Only two requests open apertures. -/
theorem RegionsAfter.quiet_of {m m' : MemoryState} {F : Handle} {r : Request}
    (h : RegionsAfter m m' F r) (halloc : ∀ io i env, r ≠ .allocateDmaBuf io i env)
    (hpin : ∀ io i env, r ≠ .pinPages io i env) : Quiet m m' := by
  cases h with
  | quiet hquiet => exact hquiet
  | allocated => exact absurd rfl (halloc _ _ _)
  | pinned => exact absurd rfl (hpin _ _ _)

section Requests

variable {d d' : DeviceContext} {F : Handle}

/-- What the handlers do to the regions of an attached device. -/
theorem handle_regions (hok : SlotsOk d.mem.iatu.slots) (hdet : d.detached = false)
    (caller : Process) (r : Request) :
    RegionsAfter d.mem (handle d F caller r).device.mem F r := by
  by_cases hr : r.creates = false
  · exact .quiet ((handle_tearsDown d F caller r hr).quiet hdet)
  cases r with
  | allocateDmaBuf io i env =>
    show RegionsAfter d.mem (ttIoctlAllocateDmaBuf d.config d.detached d.mem F io i env).mem F _
    rw [hdet]
    rcases ttIoctlAllocateDmaBuf_cases d.config false F io hok i env with
      (hm | ⟨_, u', target, region, hopen, hm⟩) | ⟨_, b, u', hall⟩
    · rw [hm]
      exact .quiet (.refl _)
    · rw [hm]
      exact .quiet (quiet_iatu (givesUp_undone hopen))
    · exact .allocated hall
  | map io i env =>
    show RegionsAfter d.mem
      (ttIoctlMap d.config d.mem F io i { env with process := caller }).mem F _
    rcases ttIoctlMap_cases d.config d.mem F io i { env with process := caller } with
      hm | ⟨_, v, _, _, hm⟩
    · rw [hm]
      exact .quiet (.refl _)
    · rw [hm]
      exact .quiet (quiet_setFile rfl rfl)
  | pinPages io i env =>
    show RegionsAfter d.mem (ttIoctlPinPages d.config d.detached d.mem F io i env).mem F _
    rw [hdet]
    rcases ttIoctlPinPages_cases d.config false F io hok i env with
      (hm | ⟨_, u', target, region, hopen, hm⟩) | ⟨_, p, target, u', hpin⟩
    · rw [hm]
      exact .quiet (.refl _)
    · rw [hm]
      exact .quiet (quiet_iatu (givesUp_undone hopen))
    · exact .pinned hpin
  | _ => exact absurd rfl hr

/-- What the requests do to the regions of an attached device. -/
theorem dispatch_regions (hok : SlotsOk d.mem.iatu.slots) (hdet : d.detached = false)
    (caller : Process) (r : Request) :
    RegionsAfter d.mem (dispatch d F caller r).device.mem F r := by
  unfold dispatch
  split
  · exact .quiet (.refl _)
  split
  · exact .quiet (.refl _)
  · exact handle_regions hok hdet caller r

/-- A request does not detach the device. -/
theorem dispatch_detached (d : DeviceContext) (F : Handle) (caller : Process) (r : Request) :
    (dispatch d F caller r).device.detached = d.detached := by
  rcases dispatch_generation d F caller r with ⟨_, hkept⟩ | ⟨_, hbumped⟩
  · exact hkept.detached
  · exact hbumped.detached

/-- A step other than a request attaches no device. -/
theorem next_attached {e : Event} (hstep : d.next e = some d') (hdet : d'.detached = false)
    (hreq : ∀ F caller r, e ≠ .request F caller r) : d.detached = false := by
  cases e with
  | request F caller r => exact absurd rfl (hreq F caller r)
  | cleanup F =>
    obtain ⟨_, rfl⟩ := DeviceContext.next_cleanup hstep
    exact hdet
  | create | processExit | cancel =>
    cases hstep
    exact hdet
  | surpriseRemoval =>
    cases hstep
    cases hdet

/-- A step other than a request is quiet while the device stays attached. -/
theorem next_quiet {e : Event} (hstep : d.next e = some d') (hdet : d'.detached = false)
    (hreq : ∀ F caller r, e ≠ .request F caller r) : Quiet d.mem d'.mem :=
  (next_tearsDown hstep hreq).quiet (next_attached hstep hdet hreq)

end Requests

end TtKmd
