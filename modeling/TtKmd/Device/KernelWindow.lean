import TtKmd.Lib.Gateway
import TtKmd.Tlb.Sections
import TtKmd.Device.NocCleanup

/-!
# Accesses through the kernel window

`TtBhNocRead32` and `TtBhNocWrite32` take `KernelTlbLock`, write the three words of the register
of the kernel window, access the window and give the lock back. Telemetry, the messages to the
ARC, the cleanup write of a handle and the payload size of a reset all go through them, and other
threads configure, allocate and free the windows of handles meanwhile, without this lock.

A caller cannot tell this from a NOC that performs each access at one moment between its call and
its return, at the place that the call names, and a handle cannot tell that there is a kernel
window at all.
-/

namespace TtKmd

open Lib

/-- The place of an access in the words of a caller. -/
structure NocPlace where
  /-- `X`. -/
  x : ℕ
  /-- `Y`. -/
  y : ℕ
  /-- `Addr`. -/
  addr : ℕ
  /-- `Noc`. -/
  noc : ℕ
  /-- An address has 64 bits. -/
  addr_lt : addr < 2 ^ 64

/-- The writes of `TtBhConfigureKernelTlb` for a place. -/
def NocPlace.writes (p : NocPlace) : List (ℕ × ℕ) := ttBhConfigureKernelTlb p.x p.y p.addr p.noc

/-- Where an access to a place has to go: the coordinates have six bits. -/
def NocPlace.target (p : NocPlace) : NocTarget :=
  ⟨p.x % 2 ^ 6, p.y % 2 ^ 6, p.noc % 2 ^ 2, p.addr⟩

/-- `TtBhNocRead32` or `TtBhNocWrite32`, with its arguments. -/
inductive NocCommand
  | ttBhNocRead32 (p : NocPlace)
  | ttBhNocWrite32 (p : NocPlace) (data : ℕ)

/-- The place of a command. -/
def NocCommand.place : NocCommand → NocPlace
  | .ttBhNocRead32 p => p
  | .ttBhNocWrite32 p _ => p

/-- What is behind the windows. A read may change it too. -/
structure Noc (σ δ : Type*) where
  /-- The value of a read. -/
  read : σ → NocTarget → ℕ × σ
  /-- A write. -/
  write : σ → NocTarget → ℕ → σ
  /-- What happens without the driver. -/
  change : σ → δ → σ → Prop

variable {σ δ : Type*}

/-- A command at some place. -/
def Noc.perform (n : Noc σ δ) (c : NocCommand) (target : NocTarget) (s : σ) : Option ℕ × σ :=
  match c with
  | .ttBhNocRead32 _ => (some (n.read s target).1, (n.read s target).2)
  | .ttBhNocWrite32 _ data => (none, n.write s target data)

/-- Other contents of the register page. -/
def WindowWorld.setRegs (w : WindowWorld) (regs : ℕ → ℕ) : WindowWorld := { w with regs := regs }

/-- The kernel window of a device: the set up of a command is the writes of
`TtBhConfigureKernelTlb`, its access goes where the register then says, and the requests of the
handles are the others. -/
def kernelWindow (c : MemoryConfig) (n : Noc σ δ) :
    Gateway WindowWorld WindowEvent σ δ NocCommand (ℕ × ℕ) (Option ℕ) where
  setup := fun command => command.place.writes
  act := fun write w => w.setRegs (Function.update w.regs write.1 write.2)
  access := fun command w s =>
    n.perform command (kernelTlbTarget w.regs (kernelTlbOffset command.place.addr)) s
  others := partialGraph (WindowWorld.next c)
  device := n.change

/-! ## The registers of the kernel window -/

/-- No handle has the kernel window, and none writes its registers. -/
structure KernelReserved (w : WindowWorld) : Prop where
  /-- The window is used. -/
  used : w.mem.tlbUsed kernelTlbIndex = true
  /-- It has no owner. -/
  owner : w.mem.tlbOwner kernelTlbIndex = none
  /-- It is not claimed. -/
  claims : ∀ p ∈ w.claims, p.id ≠ kernelTlbIndex
  /-- The writes in flight are to other registers. -/
  configuring : ∀ q ∈ w.configuring, ∀ x ∈ q.writes, x.1 ∉ windowOffsets kernelTlbIndex

/-- The writes that are left are to the registers of the kernel window, and after them these say
where the command goes. -/
structure KernelReady (command : NocCommand) (rest : List (ℕ × ℕ)) (w : WindowWorld) : Prop where
  /-- There are three writes at most. -/
  length : rest.length ≤ 3
  /-- They are to the registers of the kernel window. -/
  writes : ∀ x ∈ rest, x.1 ∈ windowOffsets kernelTlbIndex
  /-- The registers. -/
  registers : ∀ offset ∈ windowOffsets kernelTlbIndex,
    writeRegs w.regs rest offset = writeRegs (fun _ => 0) command.place.writes offset

section Reserved

variable {c : MemoryConfig} {w w' : WindowWorld}

/-- Writes leave what is in a register, or put the same word there. -/
theorem writeRegs_congr {regs regs' : ℕ → ℕ} {offset : ℕ} (writes : List (ℕ × ℕ))
    (h : offset ∉ writes.map (·.1) → regs offset = regs' offset) :
    writeRegs regs writes offset = writeRegs regs' writes offset := by
  induction writes generalizing regs regs' with
  | nil => exact h (by simp)
  | cons x writes ih =>
    apply ih
    intro hout
    by_cases hx : offset = x.1
    · subst hx
      simp
    · show Function.update regs x.1 x.2 offset = Function.update regs' x.1 x.2 offset
      rw [Function.update_of_ne hx, Function.update_of_ne hx]
      exact h (by simp [hx, hout])

/-- The kernel window of a started device. -/
theorem KernelReserved.started (hbh : c.isBlackhole = true) (iatu : Fin 16 → AtuRegs)
    (regs : ℕ → ℕ) : KernelReserved (.started c iatu regs) where
  used := by simp [WindowWorld.started, MemoryState.started, hbh]
  owner := rfl
  claims := by simp [WindowWorld.started]
  configuring := by simp [WindowWorld.started]

/-- The marks of the kernel window stay, and nothing new is in flight. -/
theorem KernelReserved.kept (h : KernelReserved w)
    (hused : w'.mem.tlbUsed kernelTlbIndex = w.mem.tlbUsed kernelTlbIndex)
    (howner : w'.mem.tlbOwner kernelTlbIndex = w.mem.tlbOwner kernelTlbIndex)
    (hclaims : w'.claims ⊆ w.claims) (hconfiguring : w'.configuring ⊆ w.configuring) :
    KernelReserved w' where
  used := hused.trans h.used
  owner := howner.trans h.owner
  claims := fun p hp => h.claims p (hclaims hp)
  configuring := fun q hq => h.configuring q (hconfiguring hq)

/-- The first section of `ALLOCATE_TLB` takes another window. -/
theorem KernelReserved.claim (h : KernelReserved w) (F : Handle) (io : Io) (size : ℕ) :
    KernelReserved (w.claim c F io size) := by
  rcases claim_cases c w F io size with hsame | ⟨id, -, hfree, hclaim⟩
  · rw [hsame]
    exact h
  · rw [hclaim]
    have hne : kernelTlbIndex ≠ id := by
      rintro rfl
      rw [h.used] at hfree
      cases hfree
    exact {
      used := by simp [holdTlb, hne, h.used]
      owner := by simp [holdTlb, hne, h.owner]
      claims := by
        intro p hp
        rcases List.mem_cons.mp hp with rfl | hp
        · exact hne.symm
        · exact h.claims p hp
      configuring := h.configuring }

/-- A window that is released is another one. -/
theorem KernelReserved.release (h : KernelReserved w) {id : ℕ} (hne : id ≠ kernelTlbIndex)
    (hmem : w'.mem = releaseTlb w.mem id) (hclaims : w'.claims ⊆ w.claims)
    (hconfiguring : w'.configuring ⊆ w.configuring) : KernelReserved w' := by
  apply h.kept _ _ hclaims hconfiguring
  · rw [hmem]
    simp [releaseTlb, hne.symm]
  · rw [hmem]
    simp [releaseTlb, hne.symm]

/-- The rest of `ALLOCATE_TLB`. -/
theorem KernelReserved.complete (h : KernelReserved w) {p : Claim} (hp : p ∈ w.claims) :
    KernelReserved (w.complete p) := by
  unfold WindowWorld.complete
  split
  · exact h.kept rfl rfl List.erase_subset (List.Subset.refl _)
  · exact h.release (h.claims p hp) rfl List.erase_subset (List.Subset.refl _)

/-- `FREE_TLB` releases what its handle owns. -/
theorem KernelReserved.free (h : KernelReserved w) (F : Handle) (io : Io) (id : ℕ) :
    KernelReserved (w.free F io id) := by
  by_cases hstatus : (ttIoctlFreeTlb w.mem F io id).status = .success
  · obtain ⟨howner, hmem⟩ := ttIoctlFreeTlb_success hstatus
    have hne : id ≠ kernelTlbIndex := by
      rintro rfl
      rw [h.owner] at howner
      cases howner
    exact h.release hne hmem (List.Subset.refl _) (List.Subset.refl _)
  · have hmem : (w.free F io id).mem = w.mem := ttIoctlFreeTlb_failure hstatus
    exact h.kept (congrArg (·.tlbUsed kernelTlbIndex) hmem)
      (congrArg (·.tlbOwner kernelTlbIndex) hmem) (List.Subset.refl _) (List.Subset.refl _)

/-- `CONFIGURE_TLB` is going to write the registers of a window that its handle owns. -/
theorem KernelReserved.configure (h : KernelReserved w) (F : Handle) (io : Io)
    (i : ConfigureTlbIn) : KernelReserved (w.configure F io i) := by
  rcases configure_cases w F io i with hsame | ⟨writes, ⟨hid, -, howner⟩, hwrites, hconfigure⟩
  · rw [hsame]
    exact h
  · rw [hconfigure]
    have hne : i.id ≠ kernelTlbIndex := by
      intro hid
      rw [hid, h.owner] at howner
      cases howner
    exact {
      used := h.used
      owner := h.owner
      claims := h.claims
      configuring := by
        intro q hq x hx
        rcases List.mem_cons.mp hq with rfl | hq
        · have hoffset : x.1 ∈ windowOffsets i.id := by
            rw [← ttBhConfigureUserTlb_offsets hwrites]
            exact List.mem_map_of_mem hx
          exact windowOffsets_disjoint hid (by decide) hne hoffset
        · exact h.configuring q hq x hx }

/-- A register write of a `CONFIGURE_TLB` is to another register, and the rest of its writes
stays in flight. -/
theorem KernelReserved.write (h : KernelReserved w) {q : Configuring} (hq : q ∈ w.configuring)
    (hstep : w.write q = some w') :
    KernelReserved w' ∧
      ∀ offset ∈ windowOffsets kernelTlbIndex, w'.regs offset = w.regs offset := by
  unfold WindowWorld.write at hstep
  cases hwrites : q.writes with
  | nil => simp [hwrites] at hstep
  | cons x rest =>
    simp only [hwrites, Option.some.injEq] at hstep
    subst hstep
    have hout := h.configuring q hq
    rw [hwrites] at hout
    constructor
    · exact {
        used := h.used
        owner := h.owner
        claims := h.claims
        configuring := by
          intro r hr y hy
          simp only at hr
          split at hr
          · exact h.configuring r (List.mem_of_mem_erase hr) y hy
          · rcases List.mem_cons.mp hr with rfl | hr
            · exact hout y (List.mem_cons_of_mem _ hy)
            · exact h.configuring r (List.mem_of_mem_erase hr) y hy }
    · intro offset hoffset
      apply Function.update_of_ne
      rintro rfl
      exact hout x List.mem_cons_self hoffset

/-- A step that is no register write does not see the registers. -/
theorem next_setRegs {e : WindowEvent} (hstep : w.next c e = some w') (hne : ∀ q, e ≠ .write q)
    (regs : ℕ → ℕ) :
    (w.setRegs regs).next c e = some (w'.setRegs regs) ∧ w'.regs = w.regs := by
  cases e with
  | claim F io size =>
    rw [← Option.some.inj hstep]
    simp only [WindowWorld.next, WindowWorld.claim, WindowWorld.setRegs]
    cases allocateTlbCheck c io size with
    | error status => exact ⟨rfl, rfl⟩
    | ok pool =>
      dsimp only
      rcases claimTlb w.mem F pool with ⟨_ | id, m⟩
      · exact ⟨rfl, rfl⟩
      · exact ⟨rfl, rfl⟩
  | complete p =>
    obtain ⟨hp, rfl⟩ := guard_of_eq_some hstep
    have hnext : (w.setRegs regs).next c (.complete p) = some ((w.setRegs regs).complete p) :=
      if_pos hp
    rw [hnext]
    unfold WindowWorld.complete
    cases p.fits with
    | true => exact ⟨rfl, rfl⟩
    | false => exact ⟨rfl, rfl⟩
  | free F io id =>
    rw [← Option.some.inj hstep]
    exact ⟨rfl, rfl⟩
  | configure F io i =>
    rw [← Option.some.inj hstep]
    have hsame : (w.setRegs regs).configure F io i = (w.configure F io i).setRegs regs ∧
        (w.configure F io i).regs = w.regs := by
      unfold WindowWorld.configure
      by_cases hcheck : configureTlbCheck w.mem F io i ≠ .success
      · have hcheck' : configureTlbCheck (w.setRegs regs).mem F io i ≠ .success := hcheck
        rw [if_pos hcheck, if_pos hcheck']
        exact ⟨rfl, rfl⟩
      · have hcheck' : ¬configureTlbCheck (w.setRegs regs).mem F io i ≠ .success := hcheck
        rw [if_neg hcheck, if_neg hcheck']
        cases ttBhConfigureUserTlb i.id i.config with
        | error status => exact ⟨rfl, rfl⟩
        | ok writes => exact ⟨rfl, rfl⟩
    exact ⟨congrArg some hsame.1, hsame.2⟩
  | write q => exact absurd rfl (hne q)
  | map F io i env =>
    rw [← Option.some.inj hstep]
    exact ⟨rfl, rfl⟩
  | unmap F io userVa reserved =>
    rw [← Option.some.inj hstep]
    exact ⟨rfl, rfl⟩
  | drain F detached =>
    simp only [WindowWorld.next, WindowWorld.setRegs] at hstep ⊢
    generalize cleanupFileSection detached w.mem F = m at hstep ⊢
    rw [← Option.some.inj hstep]
    exact ⟨rfl, rfl⟩
  | close F =>
    rw [← Option.some.inj hstep]
    exact ⟨rfl, rfl⟩

/-- The requests of the handles keep the kernel window reserved. -/
theorem KernelReserved.next (h : KernelReserved w) {e : WindowEvent}
    (hstep : w.next c e = some w') : KernelReserved w' := by
  have hsubset {α : Type} (l : List α) : l ⊆ l := List.Subset.refl l
  cases e with
  | claim F io size =>
    rw [← Option.some.inj hstep]
    exact h.claim F io size
  | complete p =>
    obtain ⟨hp, rfl⟩ := guard_of_eq_some hstep
    exact h.complete hp
  | free F io id =>
    rw [← Option.some.inj hstep]
    exact h.free F io id
  | configure F io i =>
    rw [← Option.some.inj hstep]
    exact h.configure F io i
  | write q =>
    simp only [WindowWorld.next] at hstep
    split at hstep
    · exact (h.write ‹_› hstep).1
    · cases hstep
  | map F io i env =>
    rw [← Option.some.inj hstep]
    obtain ⟨hused, howner⟩ := ttIoctlMap_windows c w.mem F io i env
    exact h.kept (congrFun hused _) (congrFun howner _) (hsubset _) (hsubset _)
  | unmap F io userVa reserved =>
    rw [← Option.some.inj hstep]
    obtain ⟨hused, howner⟩ := ttIoctlUnmap_windows w.mem F io userVa reserved
    exact h.kept (congrFun hused _) (congrFun howner _) (hsubset _) (hsubset _)
  | drain F detached =>
    obtain ⟨hused, howner⟩ := cleanupFileSection_windows detached w.mem F
    simp only [WindowWorld.next] at hstep
    generalize cleanupFileSection detached w.mem F = m at hstep hused howner
    rw [← Option.some.inj hstep]
    exact h.kept (congrFun hused _) (congrFun howner _) (hsubset _) (hsubset _)
  | close F =>
    rw [← Option.some.inj hstep]
    refine h.kept ?_ ?_ (hsubset _) (hsubset _)
    · simp [WindowWorld.close, cleanupTlbSection, h.owner]
    · simp [WindowWorld.close, cleanupTlbSection, h.owner]

/-- The requests of the handles leave the registers of the kernel window alone. -/
theorem KernelReserved.next_regs (h : KernelReserved w) {e : WindowEvent}
    (hstep : w.next c e = some w') {offset : ℕ} (hoffset : offset ∈ windowOffsets kernelTlbIndex) :
    w'.regs offset = w.regs offset := by
  by_cases hwrite : ∃ q, e = .write q
  · obtain ⟨q, rfl⟩ := hwrite
    simp only [WindowWorld.next] at hstep
    split at hstep
    · exact (h.write ‹_› hstep).2 offset hoffset
    · cases hstep
  · rw [(next_setRegs hstep (fun q hq => hwrite ⟨q, hq⟩) w.regs).2]

/-- The access goes where the registers of the kernel window say. -/
theorem kernelTlbTarget_congr {regs regs' : ℕ → ℕ}
    (h : ∀ offset ∈ windowOffsets kernelTlbIndex, regs offset = regs' offset) (offset : ℕ) :
    kernelTlbTarget regs offset = kernelTlbTarget regs' offset := by
  have hregister : tlbRegister regs kernelTlbIndex = tlbRegister regs' kernelTlbIndex := by
    unfold tlbRegister
    rw [h _ (by decide), h _ (by decide), h _ (by decide)]
  rw [kernelTlbTarget, kernelTlbTarget, hregister]

/-- The kernel window performs each command at its place. -/
theorem kernelWindow_serves (c : MemoryConfig) (n : Noc σ δ) :
    (kernelWindow c n).Serves (fun command => n.perform command command.place.target)
      KernelReserved KernelReady where
  inv_act := fun _ _ h => ⟨h.used, h.owner, h.claims, h.configuring⟩
  inv_others := fun _ _ _ h hstep => h.next hstep
  ready_setup := by
    intro command w _
    constructor
    · exact le_rfl
    · intro x hx
      exact List.mem_map_of_mem hx
    · intro offset hoffset
      exact writeRegs_congr _ fun hout => absurd hoffset hout
  ready_act := by
    intro command x rest w h
    constructor
    · exact (Nat.le_succ _).trans h.length
    · exact fun y hy => h.writes y (List.mem_cons_of_mem x hy)
    · exact h.registers
  ready_others := by
    intro command rest w e w' h hready hstep
    constructor
    · exact hready.length
    · exact hready.writes
    · intro offset hoffset
      rw [← hready.registers offset hoffset]
      exact writeRegs_congr _ fun _ => h.next_regs hstep hoffset
  ready_access := by
    intro command w s hready
    have htarget : kernelTlbTarget w.regs (kernelTlbOffset command.place.addr) =
        command.place.target := by
      have hregs : ∀ offset ∈ windowOffsets kernelTlbIndex,
          w.regs offset = writeRegs (fun _ => 0) command.place.writes offset := hready.registers
      rw [kernelTlbTarget_congr hregs]
      exact ttBhNocWrite32Target_eq _ _ _ _ command.place.addr_lt
    show n.perform command (kernelTlbTarget w.regs _) s = _
    rw [htarget]

/-! ## The handles -/

/-- What a handle can tell: everything but the registers of the kernel window. -/
def WindowWorld.ofHandles (w : WindowWorld) : WindowWorld :=
  w.setRegs fun offset => if offset ∈ windowOffsets kernelTlbIndex then 0 else w.regs offset

/-- The steps of the handles. -/
def GatewayEvent.ofHandles {τ κ ω : Type*} :
    GatewayEvent τ WindowEvent δ κ ω → Option WindowEvent
  | .others e => some e
  | _ => none

/-- A handle cannot tell that a register of the kernel window is written. -/
theorem ofHandles_setRegs {offset : ℕ} (h : offset ∈ windowOffsets kernelTlbIndex) (word : ℕ) :
    (w.setRegs (Function.update w.regs offset word)).ofHandles = w.ofHandles := by
  have hregs : (fun o => if o ∈ windowOffsets kernelTlbIndex then 0
      else Function.update w.regs offset word o) =
      fun o => if o ∈ windowOffsets kernelTlbIndex then 0 else w.regs o := by
    funext o
    by_cases ho : o ∈ windowOffsets kernelTlbIndex
    · rw [if_pos ho, if_pos ho]
    · rw [if_neg ho, if_neg ho, Function.update_of_ne]
      rintro rfl
      exact ho h
  exact congrArg w.setRegs hregs

/-- The handles go on as if there were no kernel window. -/
theorem KernelReserved.next_ofHandles (h : KernelReserved w) {e : WindowEvent}
    (hstep : w.next c e = some w') : w.ofHandles.next c e = some w'.ofHandles := by
  by_cases hwrite : ∃ q, e = .write q
  · obtain ⟨q, rfl⟩ := hwrite
    simp only [WindowWorld.next] at hstep
    split at hstep
    · rename_i hq
      have hnext : w.ofHandles.next c (.write q) = w.ofHandles.write q := if_pos hq
      rw [hnext]
      unfold WindowWorld.write at hstep ⊢
      cases hwrites : q.writes with
      | nil => simp [hwrites] at hstep
      | cons x rest =>
        have hout := h.configuring q hq x (by simp [hwrites])
        simp only [hwrites, Option.some.injEq] at hstep
        subst hstep
        have hregs : Function.update w.ofHandles.regs x.1 x.2 = fun o =>
            if o ∈ windowOffsets kernelTlbIndex then 0 else Function.update w.regs x.1 x.2 o := by
          funext o
          by_cases ho : o = x.1
          · rw [ho, Function.update_self, Function.update_self, if_neg hout]
          · rw [Function.update_of_ne ho, Function.update_of_ne ho]
            rfl
        simp only [hregs]
        rfl
    · cases hstep
  · obtain ⟨hnext, hregs⟩ := next_setRegs hstep (fun q hq => hwrite ⟨q, hq⟩)
      (fun o => if o ∈ windowOffsets kernelTlbIndex then 0 else w.regs o)
    rw [WindowWorld.ofHandles, WindowWorld.ofHandles, hnext, hregs]

/-- The accesses through the kernel window are none of the steps of the handles. -/
theorem kernelWindow_simulates_handles {τ : Type*} [DecidableEq τ] (c : MemoryConfig)
    (n : Noc σ δ) :
    Simulates ((kernelWindow c n).Step (τ := τ)) (partialGraph (WindowWorld.next c))
      (fun w => w.shared.ofHandles) GatewayEvent.ofHandles
      (GatewayWorld.Ordered KernelReserved KernelReady) := by
  intro w e w' h hstep
  constructor
  · exact (kernelWindow_serves c n).ordered h hstep
  cases hstep with
  | @setup t command x rest ht =>
    have hready := h.ready t command (x :: rest) ht
    exact ofHandles_setRegs (hready.writes x List.mem_cons_self) x.2
  | others hothers => exact h.inv.next_ofHandles hothers
  | call => rfl
  | acquire => rfl
  | access => rfl
  | release => rfl
  | ret => rfl
  | device => rfl

end Reserved

/-! ## Runs -/

/-- A started device with its NOC, and no access through the kernel window. -/
def KernelWindowWorld.started (τ : Type*) (c : MemoryConfig) (iatu : Fin 16 → AtuRegs)
    (regs : ℕ → ℕ) (s : σ) : GatewayWorld τ WindowWorld σ NocCommand (ℕ × ℕ) (Option ℕ) :=
  .start τ NocCommand (ℕ × ℕ) (Option ℕ) (.started c iatu regs) s

/-- After every run of any threads that read and write through the kernel window, any requests of
any handles and any changes of the NOC, in any order: the calls and the returns are those of a
NOC that performs each access at one moment between them, at the place that the call names; the
requests of the handles are a run without the kernel window; and the thread that has the lock is
the only one inside, and gives it back with at most five steps of its own. -/
theorem kernel_window_atomic {τ : Type*} [DecidableEq τ] {c : MemoryConfig}
    (hbh : c.isBlackhole = true) {n : Noc σ δ} {iatu : Fin 16 → AtuRegs} {regs : ℕ → ℕ} {s : σ}
    {es : List (GatewayEvent τ WindowEvent δ NocCommand (Option ℕ))}
    {w : GatewayWorld τ WindowWorld σ NocCommand (ℕ × ℕ) (Option ℕ)}
    (hrun : Run (kernelWindow c n).Step (KernelWindowWorld.started τ c iatu regs s) es w) :
    Run (AtomicStep (fun command => n.perform command command.place.target) n.change)
        ⟨s, fun _ => .idle⟩ (es.filterMap GatewayEvent.atomic) w.atomic ∧
      Run (partialGraph (WindowWorld.next c)) (WindowWorld.started c iatu regs).ofHandles
        (es.filterMap GatewayEvent.ofHandles) w.shared.ofHandles ∧
      ∀ t, w.holder = some t → (∀ u, (w.phase u).Holds ↔ u = t) ∧
        ∃ es' w' out, Run (kernelWindow c n).Step w es' w' ∧ es'.length ≤ 5 ∧
          (∀ e ∈ es', e.caller = some t) ∧ w'.holder = none ∧
          w'.phase = Function.update w.phase t (.finished out) := by
  have hserves := kernelWindow_serves c n
  have hstart : (KernelWindowWorld.started τ c iatu regs s).Ordered KernelReserved KernelReady :=
    GatewayWorld.start_ordered (.started hbh iatu regs) s
  have hordered := hserves.simulates.kept hstart hrun
  refine ⟨hserves.simulates.run hstart hrun,
    (kernelWindow_simulates_handles c n).run hstart hrun, ?_⟩
  intro t ht
  have hin := (hordered.holder t).mpr ht
  constructor
  · intro u
    rw [hordered.holder u, ht, Option.some.injEq, eq_comm]
  · obtain ⟨es', w', out, hrun', hlength, hcaller, hholder, hphase⟩ :=
      (kernelWindow c n).run_release hin
    refine ⟨es', w', out, hrun', ?_, hcaller, hholder, hphase⟩
    rw [hlength]
    cases hphase : w.phase t with
    | inside command rest =>
      have hready := (hordered.ready t command rest hphase).length
      simp only [GatewayPhase.left]
      omega
    | _ => simp [GatewayPhase.left]

/-- A NOC whose tiles are memory. -/
def memoryNoc : Noc (ℕ × ℕ × ℕ × ℕ → ℕ) Empty where
  read := fun s t => (s (t.x, t.y, t.noc, t.addr), s)
  write := fun s t data => Function.update s (t.x, t.y, t.noc, t.addr) data
  change := fun _ d _ => d.elim

/-- The first scratch register of the ARC. -/
def resetScratch : NocPlace := ⟨8, 0, 0x80030400, 0, by decide⟩

/-- One thread writes, a handle claims a window between two words of its set up, and a second
thread has begun to set up a read. -/
def twoThreadsAndClaim : List (GatewayEvent ℕ WindowEvent Empty NocCommand (Option ℕ)) :=
  [.call 0 (.ttBhNocWrite32 resetScratch 5), .call 1 (.ttBhNocRead32 resetScratch), .acquire 0,
    .setup 0, .others (.claim 0 ⟨16, 48⟩ (2 ^ 21)), .setup 0, .setup 0, .access 0, .release 0,
    .acquire 1, .setup 1]

/-- The write is performed before the read, and the second thread gives the lock back. -/
theorem kernel_window_atomic_twoThreadsAndClaim :
    ∃ w, Run (kernelWindow blackholeConfig memoryNoc).Step
        (KernelWindowWorld.started ℕ blackholeConfig (fun _ _ => 0) (fun _ => 0) fun _ => 0)
        twoThreadsAndClaim w ∧
      Run (AtomicStep (fun command => memoryNoc.perform command command.place.target)
        memoryNoc.change) ⟨fun _ => 0, fun _ => .idle⟩
        [.call 0 (.ttBhNocWrite32 resetScratch 5), .call 1 (.ttBhNocRead32 resetScratch),
          .perform 0]
        w.atomic ∧
      ∃ es' w' out, Run (kernelWindow blackholeConfig memoryNoc).Step w es' w' ∧
        es'.length ≤ 5 ∧ w'.phase 1 = .finished out := by
  have hrun : Run (kernelWindow blackholeConfig memoryNoc).Step
      (KernelWindowWorld.started ℕ blackholeConfig (fun _ _ => 0) (fun _ => 0) fun _ => 0)
      twoThreadsAndClaim _ :=
    .cons (.call rfl) (.cons (.call rfl) (.cons (.acquire rfl rfl) (.cons (.setup rfl)
      (.cons (.others rfl) (.cons (.setup rfl) (.cons (.setup rfl) (.cons (.access rfl)
        (.cons (.release rfl) (.cons (.acquire rfl rfl) (.cons (.setup rfl) (.nil _)))))))))))
  obtain ⟨hatomic, -, hlock⟩ := kernel_window_atomic rfl hrun
  obtain ⟨-, es', w', out, hrun', hlength, -, -, hphase⟩ := hlock 1 rfl
  refine ⟨_, hrun, hatomic, es', w', out, hrun', hlength, ?_⟩
  rw [hphase, Function.update_self]

end TtKmd
