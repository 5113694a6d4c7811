import TtKmd.Tlb.Pool

/-!
# Window requests in parallel

`ALLOCATE_TLB` claims a window in one section under `TlbLock`, completes its output and,
if the output does not fit, releases the window in a second section. `CONFIGURE_TLB`
checks the owner under the lock and writes the registers word by word after it. Here a
step is one section or one register write, and requests of any handles interleave.

`granted` records the windows that a successful `ALLOCATE_TLB` returned and that were
neither freed nor lost to the close of their handle; `writer` records which
`CONFIGURE_TLB` wrote a word.
-/

namespace TtKmd

open Lib

/-- An `ALLOCATE_TLB` that has claimed a window and has not returned. -/
structure Claim where
  /-- The handle. -/
  file : Handle
  /-- The window. -/
  id : ℕ
  /-- The output fits its buffer. -/
  fits : Bool
  deriving DecidableEq

/-- A `CONFIGURE_TLB` that has passed its check and has not made its last write. -/
structure Configuring where
  /-- The number of the request. -/
  tag : ℕ
  /-- The handle. -/
  file : Handle
  /-- The window. -/
  id : ℕ
  /-- The writes still to be made. -/
  writes : List (ℕ × ℕ)
  deriving DecidableEq

/-- The windows of a device, its register page and the requests in flight. -/
structure WindowWorld where
  /-- The memory. -/
  mem : MemoryState
  /-- The register page, by byte offset. -/
  regs : ℕ → ℕ
  /-- The allocations in flight. -/
  claims : List Claim
  /-- The configurations in flight. -/
  configuring : List Configuring
  /-- The outstanding successful allocations. -/
  granted : List (Handle × ℕ)
  /-- The handles whose windows were released by their close. -/
  closed : Handle → Bool
  /-- The configuration that wrote a register last, by byte offset. -/
  writer : ℕ → Option ℕ
  /-- The number of the next configuration. -/
  nextTag : ℕ

/-- The steps. -/
inductive WindowEvent
  /-- `ALLOCATE_TLB` up to the end of its first section. -/
  | claim (F : Handle) (io : Io) (size : ℕ)
  /-- The rest of an `ALLOCATE_TLB`. -/
  | complete (p : Claim)
  /-- `FREE_TLB`. -/
  | free (F : Handle) (io : Io) (id : ℕ)
  /-- `CONFIGURE_TLB` up to its first register write. -/
  | configure (F : Handle) (io : Io) (i : ConfigureTlbIn)
  /-- The next register write of a `CONFIGURE_TLB`. -/
  | write (q : Configuring)
  /-- `MAP`. -/
  | map (F : Handle) (io : Io) (i : MapIn) (env : MapEnv)
  /-- `UNMAP`. -/
  | unmap (F : Handle) (io : Io) (userVa reserved : ℕ)
  /-- The section of the cleanup under the file lock. -/
  | drain (F : Handle) (detached : Bool)
  /-- The section of the cleanup under `TlbLock`. -/
  | close (F : Handle)

/-- The first section of `ALLOCATE_TLB`. -/
def WindowWorld.claim (c : MemoryConfig) (w : WindowWorld) (F : Handle) (io : Io) (size : ℕ) :
    WindowWorld :=
  match allocateTlbCheck c io size with
  | .error _ => w
  | .ok pool =>
      match claimTlb w.mem F pool with
      | (none, _) => w
      | (some id, m) =>
          { w with
            mem := m
            claims := ⟨F, id, decide (ttCompleteSizedOutBuffer io 16 32 = .success)⟩ :: w.claims }

/-- The rest of an `ALLOCATE_TLB`: it returns the window or releases it. -/
def WindowWorld.complete (w : WindowWorld) (p : Claim) : WindowWorld :=
  if p.fits then
    { w with
      claims := w.claims.erase p
      granted := if w.closed p.file then w.granted else (p.file, p.id) :: w.granted }
  else { w with mem := releaseTlb w.mem p.id, claims := w.claims.erase p }

/-- `FREE_TLB`. -/
def WindowWorld.free (w : WindowWorld) (F : Handle) (io : Io) (id : ℕ) : WindowWorld :=
  { w with
    mem := (ttIoctlFreeTlb w.mem F io id).mem
    granted := if (ttIoctlFreeTlb w.mem F io id).status = .success then w.granted.erase (F, id)
      else w.granted }

/-- The check of `CONFIGURE_TLB` and the composition of its words. -/
def WindowWorld.configure (w : WindowWorld) (F : Handle) (io : Io) (i : ConfigureTlbIn) :
    WindowWorld :=
  if configureTlbCheck w.mem F io i ≠ .success then w
  else
    match ttBhConfigureUserTlb i.id i.config with
    | .error _ => w
    | .ok writes =>
        { w with
          configuring := ⟨w.nextTag, F, i.id, writes⟩ :: w.configuring
          nextTag := w.nextTag + 1 }

/-- One register write of a `CONFIGURE_TLB`. -/
def WindowWorld.write (w : WindowWorld) (q : Configuring) : Option WindowWorld :=
  match q.writes with
  | [] => none
  | (offset, word) :: rest =>
      some { w with
        regs := Function.update w.regs offset word
        writer := Function.update w.writer offset (some q.tag)
        configuring := if rest = [] then w.configuring.erase q
          else { q with writes := rest } :: w.configuring.erase q }

/-- The section of the cleanup under `TlbLock`. -/
def WindowWorld.close (w : WindowWorld) (F : Handle) : WindowWorld :=
  { w with
    mem := cleanupTlbSection w.mem F
    granted := w.granted.filter fun g => g.1 ≠ F
    closed := Function.update w.closed F true }

/-- One step; `none` is a step that cannot be taken. -/
def WindowWorld.next (c : MemoryConfig) (w : WindowWorld) : WindowEvent → Option WindowWorld
  | .claim F io size => some (w.claim c F io size)
  | .complete p => if p ∈ w.claims then some (w.complete p) else none
  | .free F io id => some (w.free F io id)
  | .configure F io i => some (w.configure F io i)
  | .write q => if q ∈ w.configuring then w.write q else none
  | .map F io i env => some { w with mem := (ttIoctlMap c w.mem F io i env).mem }
  | .unmap F io userVa reserved =>
      some { w with mem := (ttIoctlUnmap w.mem F io userVa reserved).mem }
  | .drain F detached => some { w with mem := cleanupFileSection detached w.mem F }
  | .close F => some (w.close F)

/-- A started device, nothing in flight. -/
def WindowWorld.started (c : MemoryConfig) (iatu : Fin 16 → AtuRegs) (regs : ℕ → ℕ) :
    WindowWorld :=
  ⟨.started c iatu, regs, [], [], [], fun _ => false, fun _ => none, 0⟩

section Requests

variable {c : MemoryConfig} {w : WindowWorld} {F : Handle}

/-- Everything the first section of `ALLOCATE_TLB` can do. -/
theorem claim_cases (c : MemoryConfig) (w : WindowWorld) (F : Handle) (io : Io) (size : ℕ) :
    w.claim c F io size = w ∨
      ∃ id, id < tlbTotal ∧ w.mem.tlbUsed id = false ∧
        w.claim c F io size = { w with
          mem := holdTlb w.mem F id
          claims := ⟨F, id, decide (ttCompleteSizedOutBuffer io 16 32 = .success)⟩ ::
            w.claims } := by
  unfold WindowWorld.claim
  cases hcheck : allocateTlbCheck c io size with
  | error status => exact .inl rfl
  | ok pool =>
    dsimp only
    rcases claimTlb_cases w.mem F pool with ⟨_, hclaim⟩ | ⟨id, hid, hfree, _, hclaim⟩
    · rw [hclaim]
      exact .inl rfl
    · rw [hclaim]
      exact .inr ⟨id, allocateTlbCheck_pool hcheck hid.2, hfree, rfl⟩

/-- The two sections of `ALLOCATE_TLB`, run back to back, leave what the handler leaves. -/
theorem claim_complete (io : Io) (size : ℕ) :
    (w.claim c F io size = w ∧ (ttIoctlAllocateTlb c w.mem F io size).mem = w.mem) ∨
      ∃ p, (w.claim c F io size).claims = p :: w.claims ∧
        ((w.claim c F io size).complete p).mem = (ttIoctlAllocateTlb c w.mem F io size).mem := by
  unfold WindowWorld.claim ttIoctlAllocateTlb
  cases allocateTlbCheck c io size with
  | error status => exact .inl ⟨rfl, rfl⟩
  | ok pool =>
    dsimp only
    rcases claimTlb_cases w.mem F pool with ⟨_, hclaim⟩ | ⟨id, _, _, _, hclaim⟩
    · rw [hclaim]
      exact .inl ⟨rfl, rfl⟩
    · rw [hclaim]
      refine .inr ⟨_, rfl, ?_⟩
      by_cases hfits : ttCompleteSizedOutBuffer io 16 32 = .success
      · simp [WindowWorld.complete, hfits]
      · simp [WindowWorld.complete, hfits, Reply.fail]

/-- Everything the check of `CONFIGURE_TLB` can do. -/
theorem configure_cases (w : WindowWorld) (F : Handle) (io : Io) (i : ConfigureTlbIn) :
    w.configure F io i = w ∨
      ∃ writes, (i.id < tlbTotal ∧ w.mem.tlbUsed i.id = true ∧ w.mem.tlbOwner i.id = some F) ∧
        ttBhConfigureUserTlb i.id i.config = .ok writes ∧
        w.configure F io i = { w with
          configuring := ⟨w.nextTag, F, i.id, writes⟩ :: w.configuring
          nextTag := w.nextTag + 1 } := by
  unfold WindowWorld.configure
  by_cases hcheck : configureTlbCheck w.mem F io i ≠ .success
  · rw [if_pos hcheck]
    exact .inl rfl
  rw [if_neg hcheck]
  cases hwrites : ttBhConfigureUserTlb i.id i.config with
  | error status => exact .inl rfl
  | ok writes => exact .inr ⟨writes, configureTlbCheck_eq_success (not_not.mp hcheck), rfl, rfl⟩

/-- A release is of the owner. -/
theorem ttIoctlFreeTlb_success {m : MemoryState} {io : Io} {id : ℕ}
    (h : (ttIoctlFreeTlb m F io id).status = .success) :
    m.tlbOwner id = some F ∧ (ttIoctlFreeTlb m F io id).mem = releaseTlb m id := by
  rcases ttIoctlFreeTlb_cases m F io id with ⟨hfails, _⟩ | ⟨_, howner, _, hmem⟩
  · exact absurd h hfails
  · exact ⟨howner, hmem⟩

/-- A `FREE_TLB` that fails changes nothing. -/
theorem ttIoctlFreeTlb_failure {m : MemoryState} {io : Io} {id : ℕ}
    (h : (ttIoctlFreeTlb m F io id).status ≠ .success) : (ttIoctlFreeTlb m F io id).mem = m := by
  rcases ttIoctlFreeTlb_cases m F io id with ⟨_, hm⟩ | ⟨hstatus, _⟩
  · exact hm
  · exact absurd hstatus h

end Requests

end TtKmd
