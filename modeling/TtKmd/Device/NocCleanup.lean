import TtKmd.Device.Window
import TtKmd.Tlb.Encoding

/-!
# Where the cleanup write goes

A handle registers one write for its close with `SET_NOC_CLEANUP`. The close performs the
write that the last accepted request registered, through the kernel window. The checks let a
coordinate of 64 pass, and the fields of the register have six bits: the write then goes to
coordinate 0.
-/

namespace TtKmd

open Lib

/-! ## The target of an access -/

/-- A place on the NOC. -/
structure NocTarget where
  /-- The column. -/
  x : ℕ
  /-- The row. -/
  y : ℕ
  /-- The number of the NOC. -/
  noc : ℕ
  /-- The address in the tile. -/
  addr : ℕ

/-- Where an access at an offset in the kernel window goes. -/
def kernelTlbTarget (regs : ℕ → ℕ) (offset : ℕ) : NocTarget :=
  let c := decodeTlbRegister kernelTlbIndex (tlbRegister regs kernelTlbIndex)
  ⟨c.xEnd, c.yEnd, c.noc, c.addr + offset⟩

/-- Where the access of `TtBhNocWrite32` goes: the window is configured, then the word is
written at the offset that `TtBhConfigureKernelTlb` returns. -/
def ttBhNocWrite32Target (regs : ℕ → ℕ) (x y addr noc : ℕ) : NocTarget :=
  kernelTlbTarget (writeRegs regs (ttBhConfigureKernelTlb x y addr noc)) (kernelTlbOffset addr)

/-- The access goes to the address, and to coordinates of six bits. -/
theorem ttBhNocWrite32Target_eq (regs : ℕ → ℕ) (x y noc : ℕ) {addr : ℕ} (haddr : addr < 2 ^ 64) :
    ttBhNocWrite32Target regs x y addr noc = ⟨x % 2 ^ 6, y % 2 ^ 6, noc % 2 ^ 2, addr⟩ := by
  have hencoded := kernelEncoded x y noc haddr regs
  rw [ttBhNocWrite32Target, kernelTlbTarget, hencoded.decoded]
  exact congrArg (NocTarget.mk _ _ _) hencoded.address

/-! ## The last accepted request -/

/-- A device, and the last request of each handle that `SET_NOC_CLEANUP` accepted. -/
structure CleanupWorld where
  /-- The device with the parts of its file contexts that reach the hardware. -/
  world : HwWorld
  /-- The last accepted request. -/
  last : Handle → Option NocCleanupIn

/-- The request that a step accepts, and its handle. -/
def acceptedCleanup (w : HwWorld) : HwEvent → Option (Handle × NocCleanupIn)
  | .setNocCleanup F io i => if storesNocCleanup w.device F io i then some (F, i) else none
  | _ => none

/-- The requests of the handles after a step. -/
def CleanupWorld.lastAfter (w : CleanupWorld) (e : HwEvent) : Handle → Option NocCleanupIn :=
  match acceptedCleanup w.world e with
  | some (F, i) => Function.update w.last F (some i)
  | none => w.last

/-- One step. -/
def CleanupWorld.next (w : CleanupWorld) (e : HwEvent) : Option CleanupWorld :=
  (w.world.next e).map fun world => ⟨world, w.lastAfter e⟩

/-- A started device. -/
def CleanupWorld.started (config : MemoryConfig) (subsysVendorId subsysId : ℕ)
    (regs : Fin 16 → AtuRegs) : CleanupWorld where
  world := .started config subsysVendorId subsysId regs
  last := fun _ => none

/-- The write that a request registers. -/
def NocCleanupIn.registered (i : NocCleanupIn) : Option NocCleanup :=
  if i.enabled ≠ 0 then some i.write else none

/-- What the handles have registered is what their last accepted requests say. -/
structure CleanupTold (w : CleanupWorld) : Prop where
  /-- The registered write. -/
  registered : ∀ F, w.world.nocCleanup F = (w.last F).bind NocCleanupIn.registered
  /-- The request has passed the checks. -/
  checked : ∀ F i, w.last F = some i → i.enabled ≤ 1 ∧ i.write.noc ≤ 1

section Runs

variable {w w' : CleanupWorld}

/-- A request that passes the checks. -/
theorem checked_of_storesNocCleanup {d : DeviceContext} {F : Handle} {io : Io} {i : NocCleanupIn}
    (h : storesNocCleanup d F io i = true) : i.enabled ≤ 1 ∧ i.write.noc ≤ 1 := by
  simp only [storesNocCleanup, Bool.and_eq_true, decide_eq_true_eq] at h
  have hcheck := h.2
  unfold setNocCleanupCheck at hcheck
  split_ifs at hcheck with _ _ hfields
  simp only [not_or] at hfields
  omega

/-- A step that accepts no request registers nothing. -/
theorem next_nocCleanup_of_none {w w' : HwWorld} {e : HwEvent} (hstep : w.next e = some w')
    (hnone : acceptedCleanup w e = none) : w'.nocCleanup = w.nocCleanup := by
  cases e with
  | create opener =>
    cases hstep
    rfl
  | setNocCleanup F io i =>
    simp only [HwWorld.next] at hstep
    split at hstep
    · split at hstep
      · rename_i hstores
        rw [acceptedCleanup, if_pos hstores] at hnone
        cases hnone
      · cases hstep
        rfl
    · cases hstep
  | setPowerState F io i =>
    simp only [HwWorld.next] at hstep
    split at hstep
    · split at hstep <;> cases hstep <;> rfl
    · cases hstep
  | request F caller r =>
    obtain ⟨d', -, rfl⟩ := Option.map_eq_some_iff.mp hstep
    rfl
  | cleanup F =>
    obtain ⟨d', -, rfl⟩ := Option.map_eq_some_iff.mp hstep
    rfl
  | processExit process =>
    cases hstep
    rfl
  | surpriseRemoval =>
    cases hstep
    rfl
  | cancel k =>
    cases hstep
    rfl

/-- A step that accepts a request registers its write. -/
theorem next_nocCleanup_of_some {w w' : HwWorld} {e : HwEvent} {F : Handle} {i : NocCleanupIn}
    (hstep : w.next e = some w') (hsome : acceptedCleanup w e = some (F, i)) :
    w'.nocCleanup = Function.update w.nocCleanup F i.registered ∧
      i.enabled ≤ 1 ∧ i.write.noc ≤ 1 := by
  cases e with
  | setNocCleanup G io j =>
    simp only [acceptedCleanup] at hsome
    split at hsome
    · rename_i hstores
      cases hsome
      simp only [HwWorld.next, hstores, if_true] at hstep
      split at hstep
      · cases hstep
        exact ⟨rfl, checked_of_storesNocCleanup hstores⟩
      · cases hstep
    · cases hsome
  | create => cases hsome
  | setPowerState => cases hsome
  | request => cases hsome
  | cleanup => cases hsome
  | processExit => cases hsome
  | surpriseRemoval => cases hsome
  | cancel => cases hsome

/-- Every step keeps the agreement. -/
theorem CleanupTold.next (h : CleanupTold w) {e : HwEvent} (hstep : w.next e = some w') :
    CleanupTold w' := by
  obtain ⟨world, hworld, rfl⟩ := Option.map_eq_some_iff.mp hstep
  cases haccepted : acceptedCleanup w.world e with
  | none =>
    have hlast : w.lastAfter e = w.last := by rw [CleanupWorld.lastAfter, haccepted]
    have hkept := next_nocCleanup_of_none hworld haccepted
    refine ⟨fun F => ?_, fun F i hi => h.checked F i ?_⟩
    · show world.nocCleanup F = (w.lastAfter e F).bind _
      rw [hkept, hlast]
      exact h.registered F
    · rwa [← hlast]
  | some new =>
    obtain ⟨F, i⟩ := new
    have hlast : w.lastAfter e = Function.update w.last F (some i) := by
      rw [CleanupWorld.lastAfter, haccepted]
    obtain ⟨hnew, hchecked⟩ := next_nocCleanup_of_some hworld haccepted
    refine ⟨fun G => ?_, fun G j hj => ?_⟩
    · show world.nocCleanup G = (w.lastAfter e G).bind _
      rw [hnew, hlast]
      by_cases hG : G = F
      · subst hG
        rw [Function.update_self, Function.update_self]
        rfl
      · rw [Function.update_of_ne hG, Function.update_of_ne hG]
        exact h.registered G
    · replace hj : w.lastAfter e G = some j := hj
      rw [hlast] at hj
      by_cases hG : G = F
      · subst hG
        rw [Function.update_self] at hj
        cases hj
        exact hchecked
      · rw [Function.update_of_ne hG] at hj
        exact h.checked G j hj

end Runs

/-! ## The close -/

/-- The writes of a trace that `TtBhNocWrite` makes. -/
def nocWrites (t : List RegisterAccess) : List RegisterAccess :=
  t.filter fun a =>
    match a with
    | .nocWrite .. => true
    | _ => false

/-- The trace of a close has one write of the low 32 bits of the data to the place of an enabled
request, and none otherwise. -/
def CloseMeets (regs : ℕ → ℕ) (t : List RegisterAccess) : Option NocCleanupIn → Prop
  | none => nocWrites t = []
  | some i =>
      if i.enabled = 1 then
        ∃ x y addr noc, nocWrites t = [.nocWrite x y addr (i.write.data % 2 ^ 32) noc] ∧
          ttBhNocWrite32Target regs x y addr noc =
            ⟨i.write.x, i.write.y, i.write.noc, i.write.addr⟩
      else nocWrites t = []

section Close

variable {hw : DeviceContext → Handle → Request → List RegisterAccess}

/-- The writes of a close through `TtBhNocWrite` are the registered one. -/
theorem nocWrites_cleanup (w : HwWorld) (F : Handle) :
    nocWrites (accesses hw w (.cleanup F)) = cleanupWrite w.device (w.nocCleanup F) := by
  have hwrite : nocWrites (cleanupWrite w.device (w.nocCleanup F)) =
      cleanupWrite w.device (w.nocCleanup F) := by
    refine List.filter_eq_self.mpr fun a ha => ?_
    obtain ⟨c, -, rfl⟩ := mem_cleanupWrite ha
    rfl
  have hfile : nocWrites (fileWrites w.device.detached (w.device.mem.file F)) = [] := by
    refine List.filter_eq_nil_iff.mpr fun a ha => ?_
    obtain ⟨r, -, x, -, rfl⟩ := mem_fileWrites ha
    exact Bool.false_ne_true
  have hpower : nocWrites (if (w.power F).contributes then
      powerSend (ttEvtFileCleanup w.device F) (w.closedPower F) else []) = [] := by
    refine List.filter_eq_nil_iff.mpr fun a ha => ?_
    split at ha
    · obtain ⟨agg, rfl⟩ := mem_powerSend ha
      exact Bool.false_ne_true
    · cases ha
  unfold nocWrites at hwrite hfile hpower ⊢
  rw [accesses, List.filter_append, List.filter_append, hwrite, hfile, hpower, List.append_nil,
    List.append_nil]

/-- The registered write of an attached device. -/
theorem cleanupWrite_of_attached {d : DeviceContext} (hattached : d.detached = false)
    (hblackhole : d.config.isBlackhole = true) (c : NocCleanup) :
    cleanupWrite d (some c) = [.nocWrite c.x c.y c.addr (c.data % 2 ^ 32) c.noc] := by
  have hmask : c.data &&& 0xFFFFFFFF = c.data % 2 ^ 32 := Nat.and_two_pow_sub_one_eq_mod c.data 32
  simp only [cleanupWrite]
  rw [if_pos ⟨hattached, hblackhole⟩, hmask]

/-- After every run over any handles, the close of a handle of an attached Blackhole performs
what the last accepted request says, if and only if the coordinates of that request, when it is
enabled, have six bits. -/
theorem noc_cleanup_target_iff {config : MemoryConfig} {subsysVendorId subsysId : ℕ}
    {iatu : Fin 16 → AtuRegs} {es : List HwEvent} {w : CleanupWorld}
    (hrun : Run (partialGraph CleanupWorld.next)
      (.started config subsysVendorId subsysId iatu) es w)
    (hattached : w.world.device.detached = false)
    (hblackhole : w.world.device.config.isBlackhole = true) {F : Handle}
    (haddr : ∀ i, w.last F = some i → i.write.addr < 2 ^ 64) (regs : ℕ → ℕ) :
    CloseMeets regs (accesses hw w.world (.cleanup F)) (w.last F) ↔
      ∀ i, w.last F = some i → i.enabled = 1 → i.write.x < 64 ∧ i.write.y < 64 := by
  have hstarted : CleanupTold (.started config subsysVendorId subsysId iatu) :=
    ⟨fun _ => rfl, fun _ _ hi => by cases hi⟩
  have h : CleanupTold w := hrun.invariant (fun _ _ _ h hstep => h.next hstep) hstarted
  have hregistered := h.registered F
  cases hlast : w.last F with
  | none =>
    rw [hlast] at hregistered
    refine iff_of_true ?_ fun i hi => by cases hi
    show nocWrites _ = []
    rw [nocWrites_cleanup, hregistered]
    rfl
  | some i =>
    rw [hlast] at hregistered
    obtain ⟨henabled, hnoc⟩ := h.checked F i hlast
    by_cases hon : i.enabled = 1
    · have hwrite : nocWrites (accesses hw w.world (.cleanup F)) =
          [.nocWrite i.write.x i.write.y i.write.addr (i.write.data % 2 ^ 32) i.write.noc] := by
        have hsome : (some i).bind NocCleanupIn.registered = some i.write := by
          simp [NocCleanupIn.registered, hon]
        rw [nocWrites_cleanup, hregistered, hsome]
        exact cleanupWrite_of_attached hattached hblackhole i.write
      have htarget := ttBhNocWrite32Target_eq regs i.write.x i.write.y i.write.noc (haddr i hlast)
      simp only [CloseMeets, hon, if_true]
      constructor
      · rintro ⟨x, y, addr, noc, hx, hmeets⟩ j hj -
        rw [hwrite] at hx
        cases hx
        cases hj
        rw [htarget, NocTarget.mk.injEq] at hmeets
        omega
      · intro hfits
        obtain ⟨hx, hy⟩ := hfits i rfl hon
        refine ⟨_, _, _, _, hwrite, ?_⟩
        rw [htarget, NocTarget.mk.injEq]
        omega
    · refine iff_of_true ?_ fun j hj hj1 => ?_
      · have hnone : (some i).bind NocCleanupIn.registered = none := by
          have hzero : i.enabled = 0 := by omega
          simp [NocCleanupIn.registered, hzero]
        simp only [CloseMeets, hon, if_false]
        rw [nocWrites_cleanup, hregistered, hnone]
        rfl
      · cases hj
        exact absurd hj1 hon

end Close

/-- A handle registers a write at a coordinate, and a second one that is refused. -/
def registersAt (x : ℕ) : List HwEvent :=
  [.create 7, .setNocCleanup 0 ⟨32, 0⟩ ⟨32, 0, 1, ⟨x, 3, 0, 0x1000, 5⟩⟩,
    .setNocCleanup 0 ⟨32, 0⟩ ⟨32, 0, 1, ⟨65, 3, 0, 0x1000, 5⟩⟩]

/-- At coordinate 63 the close writes there. -/
theorem noc_cleanup_target_iff_registersAt :
    ∃ w, Run (partialGraph CleanupWorld.next) (.started blackholeConfig 0 0 fun _ _ => 0)
        (registersAt 63) w ∧
      CloseMeets (fun _ => 0) (accesses (fun _ _ _ => []) w.world (.cleanup 0)) (w.last 0) := by
  have hrun : Run (partialGraph CleanupWorld.next) (.started blackholeConfig 0 0 fun _ _ => 0)
      (registersAt 63) _ := .cons rfl (.cons rfl (.cons rfl (.nil _)))
  refine ⟨_, hrun, (noc_cleanup_target_iff hrun rfl rfl (fun i hi => ?_) _).mpr fun i hi _ => ?_⟩
  · cases hi
    decide
  · cases hi
    decide

/-- At coordinate 64, which is accepted, the close writes to another tile. -/
theorem registersAt_64_goes_astray :
    ∃ w, Run (partialGraph CleanupWorld.next) (.started blackholeConfig 0 0 fun _ _ => 0)
        (registersAt 64) w ∧
      (w.last 0).map (fun i => (i.enabled, i.write.x)) = some (1, 64) ∧
      ∀ hw regs, ¬CloseMeets regs (accesses hw w.world (.cleanup 0)) (w.last 0) := by
  refine ⟨_, .cons rfl (.cons rfl (.cons rfl (.nil _))), rfl, ?_⟩
  rintro hw regs ⟨x, y, addr, noc, hwrites, htarget⟩
  rw [nocWrites_cleanup] at hwrites
  cases hwrites
  have hzero := ttBhNocWrite32Target_eq regs 64 3 0 (by decide : 0x1000 < 2 ^ 64)
  rw [hzero] at htarget
  cases htarget

end TtKmd
