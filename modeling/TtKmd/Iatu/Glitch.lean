import TtKmd.Iatu.Registers

/-!
# What an aperture translates between two register writes

The device may use an enabled region at any time, so the register file is
observed after every single write. A set-up programs a disabled region and
enables it last. A teardown uses the same order of writes, so it moves the base
and the target of a region that is still enabled to zero before it disables it.
The main result says exactly which runs never expose this: those that tear down
no enabled region, except one whose base and target are already zero, and none
on a detached device, where the registers are not written at all.
-/

namespace TtKmd

open Lib

/-- The iATU with the start of the host memory each region was last set up for,
which the source does not record in its table. -/
structure AtuWorld where
  /-- The table and the registers. -/
  unit : IatuUnit
  /-- The target address the region was set up with. -/
  host : Fin 16 → ℕ

/-- A slot is claimed for `size` addresses of host memory at `target`. -/
def AtuWorld.claim (w : AtuWorld) (slot : Fin 16) (owner : Handle) (base size target : ℕ) :
    AtuWorld where
  unit := { w.unit with slots := claimSlot w.unit.slots slot owner base size }
  host := Function.update w.host slot target

/-- A sequence of register writes to one region. -/
def AtuWorld.writes (w : AtuWorld) (r : Fin 16) (ws : List (AtuReg × ℕ)) : AtuWorld :=
  { w with unit := w.unit.writes r ws }

/-- The table entry of a region is zeroed. -/
def AtuWorld.clear (w : AtuWorld) (r : Fin 16) : AtuWorld := { w with unit := w.unit.clear r }

/-- A call of `TtSetupNocDma`, or of `TtTeardownNocDma` with the value of
`Detached` it reads. Both callers of the former bound the size by `MAXULONG`. -/
inductive NocDmaOp
  | setup (owner : Handle) (topDown : Bool) (size : UInt32) (target : UInt64)
  | teardown (detached : Bool) (region : Option (Fin 16))

/-- The worlds after each of a sequence of register writes to one region. -/
def writePoints (w : AtuWorld) (r : Fin 16) : List (AtuReg × ℕ) → List AtuWorld
  | [] => []
  | x :: xs => w.writes r [x] :: writePoints (w.writes r [x]) r xs

/-- Every world a call passes through after `w`, in order: after the claim, after
each register write, and after the last change of the table. -/
def NocDmaOp.points (w : AtuWorld) : NocDmaOp → List AtuWorld
  | .setup owner topDown size target =>
      if size.toNat = 0 then []
      else
        match ttIatuFindAndClaim w.unit.slots owner topDown size.toNat with
        | none => []
        | some (slot, base, _) =>
            let claimed := w.claim slot owner base size.toNat target.toNat
            let config := ttBhConfigureOutboundAtu base (u64Sub (u64 (base + size.toNat)) 1)
              target.toNat
            if config.1 = .success then claimed :: writePoints claimed slot config.2
            else [claimed, { claimed with unit := claimed.unit.unclaim slot }]
  | .teardown _ none => []
  | .teardown detached (some r) =>
      let ws := if detached then [] else (ttBhConfigureOutboundAtu 0 0 0).2
      writePoints w r ws ++ [(w.writes r ws).clear r]

/-- The world a call ends in. -/
def NocDmaOp.after (w : AtuWorld) (op : NocDmaOp) : AtuWorld := (op.points w).getLastD w

/-- Every world a run of calls passes through, the first one included. -/
def runPoints : AtuWorld → List NocDmaOp → List AtuWorld
  | w, [] => [w]
  | w, op :: ops => w :: (op.points w ++ runPoints (op.after w) ops)

/-- An address the registers of a region translate lies in the range of its table
entry, and goes into the host memory of that size at `host`. -/
def Confined (regs : AtuRegs) (slot : IatuSlot) (host : ℕ) : Prop :=
  ∀ a h, regs.translate a = some h →
    slot.used = true ∧ slot.base ≤ a ∧ a ≤ slot.limit ∧
      host ≤ h ∧ h ≤ host + (slot.limit - slot.base)

/-- No enabled region translates an address outside its claimed range, to memory
it was not set up for, or inside the range claimed for another region. -/
def GlitchFree (w : AtuWorld) : Prop :=
  (∀ r, Confined (w.unit.regs r) (w.unit.slots r) (w.host r)) ∧
    ∀ r a h, (w.unit.regs r).translate a = some h → ∀ r', r' ≠ r →
      (w.unit.slots r').used = true →
        ¬((w.unit.slots r').base ≤ a ∧ a ≤ (w.unit.slots r').limit)

/-- The condition on the world before a call under which the call is harmless: a
region that is torn down is not enabled, or it is mapped from address zero to
host address zero and the device is attached. -/
def NocDmaOp.Harmless (w : AtuWorld) : NocDmaOp → Prop
  | .setup _ _ _ _ => True
  | .teardown _ none => True
  | .teardown detached (some r) =>
      (w.unit.regs r).enabled = true →
        detached = false ∧ (w.unit.slots r).base = 0 ∧ w.host r = 0

/-- Every call of a run is harmless in the world before it. -/
def RunHarmless : AtuWorld → List NocDmaOp → Prop
  | _, [] => True
  | w, op :: ops => op.Harmless w ∧ RunHarmless (op.after w) ops

/-- The registers of a region agree with its table entry. -/
structure Agrees (regs : AtuRegs) (slot : IatuSlot) (host : ℕ) : Prop where
  /-- A claimed range has fewer than `2 ^ 32` addresses. -/
  short : slot.used = true → slot.limit < slot.base + 2 ^ 32
  /-- Only a claimed region is enabled, and its registers decode to the entry. -/
  on : regs.enabled = true → slot.used = true ∧ regs.base = slot.base ∧
    regs.limit = slot.limit ∧ regs.target = host

/-- Between two calls the registers of every region agree with the table. -/
structure Mirrored (w : AtuWorld) : Prop where
  /-- The claimed ranges are apart. -/
  ok : SlotsOk w.unit.slots
  /-- The registers of every region agree with its entry. -/
  agrees : ∀ r, Agrees (w.unit.regs r) (w.unit.slots r) (w.host r)

/-- Before the first call: every region is disabled and unclaimed. -/
def AtuWorld.Initial (w : AtuWorld) : Prop :=
  ∀ r, (w.unit.regs r).enabled = false ∧ (w.unit.slots r).used = false

section Frame

variable (w : AtuWorld) (r : Fin 16) (ws : List (AtuReg × ℕ))

/-- Register writes leave the table alone. -/
@[simp] theorem AtuWorld.writes_slots : (w.writes r ws).unit.slots = w.unit.slots := by
  simp only [AtuWorld.writes, IatuUnit.writes_eq]

/-- Register writes leave the recorded host memory alone. -/
@[simp] theorem AtuWorld.writes_host : (w.writes r ws).host = w.host := rfl

/-- The registers of the written region. -/
@[simp] theorem AtuWorld.writes_regs_self :
    (w.writes r ws).unit.regs r = (w.unit.regs r).writes ws := by
  simp only [AtuWorld.writes, IatuUnit.writes_eq, Function.update_self]

/-- The registers of the other regions. -/
theorem AtuWorld.writes_regs_of_ne {r' : Fin 16} (h : r' ≠ r) :
    (w.writes r ws).unit.regs r' = w.unit.regs r' := by
  simp only [AtuWorld.writes, IatuUnit.writes_eq, Function.update_of_ne h]

/-- Two sequences of writes in a row. -/
theorem AtuWorld.writes_writes (ws' : List (AtuReg × ℕ)) :
    (w.writes r ws).writes r ws' = w.writes r (ws ++ ws') := by
  simp only [AtuWorld.writes, IatuUnit.writes, List.foldl_append]

end Frame

/-- A disabled region translates nothing. -/
theorem confined_of_disabled {regs : AtuRegs} {slot : IatuSlot} {host : ℕ}
    (h : regs.enabled = false) : Confined regs slot host := by
  intro a h' ht
  obtain ⟨he, _⟩ := AtuRegs.translate_eq_some.mp ht
  rw [h] at he
  cases he

/-- Claimed ranges that are apart cannot capture one another's addresses, so
confinement of every region is all there is to show. -/
theorem glitchFree_of_confined {w : AtuWorld} (hok : SlotsOk w.unit.slots)
    (hconf : ∀ r, Confined (w.unit.regs r) (w.unit.slots r) (w.host r)) : GlitchFree w := by
  refine ⟨hconf, ?_⟩
  intro r a h ht r' hne hused hin
  obtain ⟨hu, hlo, hhi, _⟩ := hconf r a h ht
  rcases hok.apart r' r hne hused hu with hap | hap
  · have : (w.unit.slots r').span.hi = (w.unit.slots r').limit := rfl
    have : (w.unit.slots r).span.lo = (w.unit.slots r).base := rfl
    omega
  · have : (w.unit.slots r').span.lo = (w.unit.slots r').base := rfl
    have : (w.unit.slots r).span.hi = (w.unit.slots r).limit := rfl
    omega

/-- A region whose registers agree with its entry is confined. -/
theorem Agrees.confined {regs : AtuRegs} {slot : IatuSlot} {host : ℕ}
    (hag : Agrees regs slot host) : Confined regs slot host := by
  intro a h ht
  obtain ⟨he, hlo, hhi, rfl⟩ := AtuRegs.translate_eq_some.mp ht
  obtain ⟨hu, hb, hlim, htgt⟩ := hag.on he
  refine ⟨hu, ?_, ?_, ?_, ?_⟩ <;> omega

/-- A disabled region agrees with an unclaimed entry. -/
theorem agrees_of_disabled {regs : AtuRegs} {slot : IatuSlot} {host : ℕ}
    (hregs : regs.enabled = false) (hslot : slot.used = false) : Agrees regs slot host := by
  constructor
  · intro h
    rw [hslot] at h
    cases h
  · intro h
    rw [hregs] at h
    cases h

/-- Between two calls nothing is translated wrongly. -/
theorem Mirrored.glitchFree {w : AtuWorld} (hm : Mirrored w) : GlitchFree w :=
  glitchFree_of_confined hm.ok fun r => (hm.agrees r).confined

/-- The initial world is mirrored. -/
theorem AtuWorld.Initial.mirrored {w : AtuWorld} (h : w.Initial) : Mirrored w := by
  have hunused : ∀ r, (w.unit.slots r).used = true → False := by
    intro r hr
    rw [(h r).2] at hr
    cases hr
  refine ⟨⟨?_, ?_, ?_⟩, ?_⟩
  · exact fun r hr => (hunused r hr).elim
  · exact fun r hr => (hunused r hr).elim
  · exact fun r _ _ hr => (hunused r hr).elim
  · exact fun r => agrees_of_disabled (h r).1 (h r).2

/-- The worlds a sequence of writes passes through are those after its nonempty
prefixes. -/
theorem mem_writePoints {w w' : AtuWorld} {r : Fin 16} {ws : List (AtuReg × ℕ)} :
    w' ∈ writePoints w r ws ↔ ∃ k < ws.length, w' = w.writes r (ws.take (k + 1)) := by
  induction ws generalizing w with
  | nil => simp [writePoints]
  | cons x xs ih =>
    simp only [writePoints, List.mem_cons, ih, AtuWorld.writes_writes]
    constructor
    · rintro (rfl | ⟨k, hk, rfl⟩)
      · exact ⟨0, by simp, by simp⟩
      · exact ⟨k + 1, by simpa using hk, by simp⟩
    · rintro ⟨k, hk, rfl⟩
      cases k with
      | zero => exact Or.inl (by simp)
      | succ k => exact Or.inr ⟨k, by simpa using hk, by simp⟩

/-- The world after the last of a sequence of writes. -/
theorem writePoints_getLastD {w : AtuWorld} {r : Fin 16} (ws : List (AtuReg × ℕ)) :
    (writePoints w r ws).getLastD w = w.writes r ws := by
  induction ws generalizing w with
  | nil => rfl
  | cons x xs ih =>
    simp only [writePoints, List.getLastD_cons]
    rw [ih, AtuWorld.writes_writes]
    rfl

/-- A set-up either changes nothing, or claims an unused slot for a range the
allocator found and then performs the nine writes on it. -/
theorem setup_points {w : AtuWorld} (hok : SlotsOk w.unit.slots)
    (owner : Handle) (topDown : Bool) (size : UInt32) (target : UInt64) :
    (NocDmaOp.setup owner topDown size target).points w = [] ∨
    ∃ slot base, (w.unit.slots slot).used = false ∧ 0 < size.toNat ∧
      findBase w.unit.slots topDown size.toNat = some base ∧
      (NocDmaOp.setup owner topDown size target).points w =
        w.claim slot owner base size.toNat target.toNat ::
          writePoints (w.claim slot owner base size.toNat target.toNat) slot
            (atuWrites base (base + size.toNat - 1) target.toNat) := by
  have hlt := size.toNat_lt
  by_cases hzero : size.toNat = 0
  · left
    simp only [NocDmaOp.points, hzero, if_true]
  · cases hclaim : ttIatuFindAndClaim w.unit.slots owner topDown size.toNat with
    | none =>
      left
      simp only [NocDmaOp.points, hzero, if_false, hclaim]
    | some res =>
      obtain ⟨slot, base, slots⟩ := res
      obtain ⟨hunused, hbase, rfl⟩ := ttIatuFindAndClaim_eq_some hclaim
      have hpos : 0 < size.toNat := Nat.pos_of_ne_zero hzero
      obtain ⟨hfit, _⟩ := findBase_sound hok hpos (by omega) hbase
      have hconf := ttBhConfigureOutboundAtu_of_small target.toNat hpos (by omega) hfit
      right
      refine ⟨slot, base, hunused, hpos, hbase, ?_⟩
      simp only [NocDmaOp.points, hzero, if_false, hclaim, claim_limit hpos hfit, hconf,
        if_true]

/-- While a disabled region is programmed it translates nothing before it is
enabled, and from then on what was programmed. -/
theorem confined_during_setup {regs : AtuRegs} {slot : IatuSlot} {target : ℕ}
    (hdis : regs.enabled = false) (hused : slot.used = true) (hbase : slot.base < 2 ^ 64)
    (hlimit : slot.limit < 2 ^ 64) (htarget : target < 2 ^ 64) (k : ℕ) :
    Confined (regs.writes ((atuWrites slot.base slot.limit target).take k)) slot target := by
  by_cases hk : k ≤ 7
  · apply confined_of_disabled
    rw [atuWrites_take_enabled _ _ _ _ hk]
    exact hdis
  · obtain ⟨_, hb, hl, ht⟩ :=
      atuWrites_take_decode regs _ _ _ (k := k) (by omega) hbase hlimit htarget
    intro a h htr
    obtain ⟨_, hlo, hhi, rfl⟩ := AtuRegs.translate_eq_some.mp htr
    refine ⟨hused, ?_, ?_, ?_, ?_⟩ <;> omega

/-- After the nine writes of a set-up the registers agree with the entry. -/
theorem agrees_after_setup {regs : AtuRegs} {slot : IatuSlot} {target : ℕ}
    (hused : slot.used = true) (hbase : slot.base < 2 ^ 64) (hlimit : slot.limit < 2 ^ 64)
    (htarget : target < 2 ^ 64) (hshort : slot.limit < slot.base + 2 ^ 32) :
    Agrees (regs.writes (atuWrites slot.base slot.limit target)) slot target := by
  have hdec := atuWrites_take_decode regs _ _ _ (k := 9) (by omega) hbase hlimit htarget
  have hfull : (atuWrites slot.base slot.limit target).take 9 =
      atuWrites slot.base slot.limit target := rfl
  rw [hfull] at hdec
  exact ⟨fun _ => hshort, fun _ => ⟨hused, hdec.2⟩⟩

/-- A mirrored world except for one region, which is claimed and still disabled. -/
structure Claimed (w : AtuWorld) (slot : Fin 16) : Prop where
  /-- The claimed ranges are apart. -/
  ok : SlotsOk w.unit.slots
  /-- The registers of every other region agree with its entry. -/
  others : ∀ r, r ≠ slot → Agrees (w.unit.regs r) (w.unit.slots r) (w.host r)
  /-- The region is not enabled yet. -/
  disabled : (w.unit.regs slot).enabled = false
  /-- The region is claimed. -/
  used : (w.unit.slots slot).used = true
  /-- The claimed range has fewer than `2 ^ 32` addresses. -/
  short : (w.unit.slots slot).limit < (w.unit.slots slot).base + 2 ^ 32
  /-- The host address is a `UINT64`. -/
  host : w.host slot < 2 ^ 64

/-- The writes that program a claimed region from its entry. -/
def AtuWorld.programming (w : AtuWorld) (slot : Fin 16) : List (AtuReg × ℕ) :=
  atuWrites (w.unit.slots slot).base (w.unit.slots slot).limit (w.host slot)

/-- The base and limit of a claimed region are `UINT64` values. -/
theorem Claimed.bounds {w : AtuWorld} {slot : Fin 16} (hc : Claimed w slot) :
    (w.unit.slots slot).base < 2 ^ 64 ∧ (w.unit.slots slot).limit < 2 ^ 64 := by
  have h₁ := hc.ok.nonempty slot hc.used
  have h₂ := hc.ok.inside slot hc.used
  unfold nocDmaLimit at h₂
  constructor <;> omega

/-- Every point of the programming of a claimed region is glitch-free. -/
theorem Claimed.glitchFree {w : AtuWorld} {slot : Fin 16} (hc : Claimed w slot) (k : ℕ) :
    GlitchFree (w.writes slot ((w.programming slot).take k)) := by
  obtain ⟨hb, hl⟩ := hc.bounds
  apply glitchFree_of_confined
  · rw [AtuWorld.writes_slots]
    exact hc.ok
  · intro r
    rw [AtuWorld.writes_slots, AtuWorld.writes_host]
    by_cases hr : r = slot
    · subst hr
      rw [AtuWorld.writes_regs_self]
      exact confined_during_setup hc.disabled hc.used hb hl hc.host k
    · rw [AtuWorld.writes_regs_of_ne _ _ _ hr]
      exact (hc.others r hr).confined

/-- The programming of a claimed region completes the mirror. -/
theorem Claimed.mirrored {w : AtuWorld} {slot : Fin 16} (hc : Claimed w slot) :
    Mirrored (w.writes slot (w.programming slot)) := by
  obtain ⟨hb, hl⟩ := hc.bounds
  constructor
  · rw [AtuWorld.writes_slots]
    exact hc.ok
  · intro r
    rw [AtuWorld.writes_slots, AtuWorld.writes_host]
    by_cases hr : r = slot
    · subst hr
      rw [AtuWorld.writes_regs_self]
      exact agrees_after_setup hc.used hb hl hc.host hc.short
    · rw [AtuWorld.writes_regs_of_ne _ _ _ hr]
      exact hc.others r hr

/-- The claim of a slot in a mirrored world. -/
theorem Mirrored.claim {w : AtuWorld} {slot : Fin 16} {topDown : Bool} {base size target : ℕ}
    (hm : Mirrored w) (owner : Handle) (hunused : (w.unit.slots slot).used = false)
    (hpos : 0 < size) (hsize : size < 2 ^ 32) (htarget : target < 2 ^ 64)
    (hfind : findBase w.unit.slots topDown size = some base) :
    Claimed (w.claim slot owner base size target) slot ∧
      (w.claim slot owner base size target).programming slot =
        atuWrites base (base + size - 1) target := by
  obtain ⟨hfit, _⟩ := findBase_sound hm.ok hpos (by omega) hfind
  have hlim := claim_limit hpos hfit
  have hentry : (w.claim slot owner base size target).unit.slots slot =
      { (w.unit.slots slot) with
        used := true, owner := some owner, base := base, limit := base + size - 1 } := by
    simp only [AtuWorld.claim, claimSlot_self, hlim]
  have hhost : (w.claim slot owner base size target).host slot = target := by
    simp only [AtuWorld.claim, Function.update_self]
  refine ⟨⟨hm.ok.claim hpos (by omega) hfind, ?_, ?_, ?_, ?_, ?_⟩, ?_⟩
  · intro r hne
    have h := hm.agrees r
    simpa only [AtuWorld.claim, claimSlot_of_ne hne, Function.update_of_ne hne] using h
  · by_contra h
    have hused := ((hm.agrees slot).on (by simpa [AtuWorld.claim] using h)).1
    rw [hunused] at hused
    cases hused
  · rw [hentry]
  · rw [hentry]
    simp only
    omega
  · rw [hhost]
    exact htarget
  · unfold AtuWorld.programming
    rw [hentry, hhost]

/-- A set-up passes through glitch-free worlds only, and leaves the registers
agreeing with the table. -/
theorem Mirrored.setup {w : AtuWorld} (hm : Mirrored w) (owner : Handle)
    (topDown : Bool) (size : UInt32) (target : UInt64) :
    (∀ w' ∈ (NocDmaOp.setup owner topDown size target).points w, GlitchFree w') ∧
      Mirrored ((NocDmaOp.setup owner topDown size target).after w) := by
  rcases setup_points hm.ok owner topDown size target with
    hnone | ⟨slot, base, hunused, hpos, hfind, hpts⟩
  · unfold NocDmaOp.after
    rw [hnone]
    exact ⟨by simp, by simpa using hm⟩
  · obtain ⟨hc, hprog⟩ :=
      hm.claim owner hunused hpos size.toNat_lt target.toNat_lt hfind
    unfold NocDmaOp.after
    rw [hpts, ← hprog]
    constructor
    · intro w' hw'
      rcases List.mem_cons.mp hw' with rfl | hw'
      · exact hc.glitchFree 0
      · obtain ⟨k, _, rfl⟩ := mem_writePoints.mp hw'
        exact hc.glitchFree (k + 1)
    · rw [List.getLastD_cons, writePoints_getLastD]
      exact hc.mirrored

/-- The writes of a teardown on an attached device. -/
theorem teardown_config : (ttBhConfigureOutboundAtu 0 0 0).2 = atuWrites 0 0 0 := by
  simp [ttBhConfigureOutboundAtu]

/-- A teardown of a short region that targets zero keeps the target and only lowers
the limit. -/
theorem teardown_take_of_zero (regs : AtuRegs) (htarget : regs.target = 0)
    (hlimit : regs.limit < 2 ^ 32) (k : ℕ) :
    (regs.writes ((atuWrites 0 0 0).take k)).target = 0 ∧
      (regs.writes ((atuWrites 0 0 0).take k)).limit ≤ regs.limit := by
  unfold AtuRegs.target at htarget
  unfold AtuRegs.limit at hlimit
  have htlo : regs .targetLo = 0 := by omega
  have hthi : regs .targetHi = 0 := by omega
  have hlhi : regs .limitHi = 0 := by omega
  rcases Nat.lt_or_ge k 9 with hk | hk
  · interval_cases k <;>
      simp [AtuRegs.writes, atuWrites, AtuRegs.write, AtuRegs.target, AtuRegs.limit, u32, htlo,
        hthi, hlhi]
  · rw [List.take_of_length_le (by simpa [atuWrites] using hk)]
    simp [AtuRegs.writes, atuWrites, AtuRegs.write, AtuRegs.target, AtuRegs.limit, u32, hlhi]

/-- The last two writes of a teardown find the region disabled. -/
theorem teardown_take_disabled {regs : AtuRegs} {k : ℕ} (hk : 8 ≤ k) :
    (regs.writes ((atuWrites 0 0 0).take k)).enabled = false := by
  have h := (atuWrites_take_decode regs 0 0 0 hk
    (by omega) (by omega) (by omega)).1
  simpa using h

/-- A region that is disabled, or maps address zero to host address zero, stays
confined throughout its teardown. -/
theorem confined_during_teardown {regs : AtuRegs} {slot : IatuSlot} {host : ℕ}
    (hag : Agrees regs slot host)
    (hzero : regs.enabled = true → slot.base = 0 ∧ host = 0) (k : ℕ) :
    Confined (regs.writes ((atuWrites 0 0 0).take k)) slot host := by
  rcases Nat.lt_or_ge k 8 with hk | hk
  · cases hen : regs.enabled with
    | false =>
      apply confined_of_disabled
      rw [atuWrites_take_enabled _ _ _ _ (by omega)]
      exact hen
    | true =>
      obtain ⟨hused, hb, hl, ht⟩ := hag.on hen
      obtain ⟨hb₀, hh₀⟩ := hzero hen
      have hshort := hag.short hused
      obtain ⟨ht', hl'⟩ := teardown_take_of_zero regs (by omega) (by omega) k
      intro a h htr
      obtain ⟨_, _, hhi, rfl⟩ := AtuRegs.translate_eq_some.mp htr
      refine ⟨hused, ?_, ?_, ?_, ?_⟩ <;> omega
  · exact confined_of_disabled (teardown_take_disabled hk)

/-- After its second write a teardown of an enabled region has opened it down to
address zero. -/
theorem teardown_opens_zero {regs : AtuRegs} (hen : regs.enabled = true) :
    (regs.writes ((atuWrites 0 0 0).take 2)).translate 0 = some regs.target := by
  apply AtuRegs.translate_eq_some.mpr
  rw [atuWrites_take_enabled _ _ _ _ (by omega)]
  refine ⟨hen, ?_, Nat.zero_le _, ?_⟩ <;>
    simp [AtuRegs.writes, atuWrites, AtuRegs.write, AtuRegs.base, AtuRegs.target, u32]

/-- After its fourth write a teardown of an enabled region has retargeted it to
host address zero. -/
theorem teardown_retargets_zero {regs : AtuRegs} (hen : regs.enabled = true) :
    (regs.writes ((atuWrites 0 0 0).take 4)).translate 0 = some 0 := by
  apply AtuRegs.translate_eq_some.mpr
  rw [atuWrites_take_enabled _ _ _ _ (by omega)]
  refine ⟨hen, ?_, Nat.zero_le _, ?_⟩ <;>
    simp [AtuRegs.writes, atuWrites, AtuRegs.write, AtuRegs.base, AtuRegs.target, u32]

/-- The table entry of a cleared region. -/
@[simp] theorem AtuWorld.clear_slots_self (w : AtuWorld) (r : Fin 16) :
    (w.clear r).unit.slots r = .empty := by
  simp only [AtuWorld.clear, IatuUnit.clear, Function.update_self]

/-- The other entries of the table. -/
theorem AtuWorld.clear_slots_of_ne (w : AtuWorld) {r r' : Fin 16} (h : r' ≠ r) :
    (w.clear r).unit.slots r' = w.unit.slots r' := by
  simp only [AtuWorld.clear, IatuUnit.clear, Function.update_of_ne h]

/-- Clearing an entry leaves the registers alone. -/
@[simp] theorem AtuWorld.clear_regs (w : AtuWorld) (r : Fin 16) :
    (w.clear r).unit.regs = w.unit.regs := rfl

/-- Clearing an entry leaves the recorded host memory alone. -/
@[simp] theorem AtuWorld.clear_host (w : AtuWorld) (r : Fin 16) : (w.clear r).host = w.host := rfl

/-- A world is mirrored after a region that is left disabled was cleared. -/
theorem Mirrored.clear {w : AtuWorld} {r : Fin 16} {ws : List (AtuReg × ℕ)} (hm : Mirrored w)
    (hdis : ((w.unit.regs r).writes ws).enabled = false) :
    Mirrored ((w.writes r ws).clear r) := by
  constructor
  · have h : SlotsOk (Function.update (w.writes r ws).unit.slots r .empty) := by
      rw [AtuWorld.writes_slots]
      exact hm.ok.release rfl
    exact h
  · intro r'
    rw [AtuWorld.clear_regs, AtuWorld.clear_host, AtuWorld.writes_host]
    by_cases hr : r' = r
    · subst hr
      rw [AtuWorld.clear_slots_self, AtuWorld.writes_regs_self]
      exact agrees_of_disabled hdis rfl
    · rw [AtuWorld.clear_slots_of_ne _ hr, AtuWorld.writes_slots,
        AtuWorld.writes_regs_of_ne _ _ _ hr]
      exact hm.agrees r'

/-- The worlds a teardown of a region passes through. -/
theorem mem_teardown_points {w w' : AtuWorld} {detached : Bool} {r : Fin 16} :
    w' ∈ (NocDmaOp.teardown detached (some r)).points w ↔
      w' ∈ writePoints w r (if detached then [] else atuWrites 0 0 0) ∨
        w' = (w.writes r (if detached then [] else atuWrites 0 0 0)).clear r := by
  simp only [NocDmaOp.points, teardown_config, List.mem_append, List.mem_singleton]

/-- The world a teardown of a region ends in. -/
theorem teardown_after (w : AtuWorld) (detached : Bool) (r : Fin 16) :
    (NocDmaOp.teardown detached (some r)).after w =
      (w.writes r (if detached then [] else atuWrites 0 0 0)).clear r := by
  simp only [NocDmaOp.after, NocDmaOp.points, teardown_config, List.getLastD_concat]

/-- A harmless teardown passes through glitch-free worlds only, and leaves the
registers agreeing with the table. -/
theorem Mirrored.teardown {w : AtuWorld} (hm : Mirrored w) {detached : Bool} {r : Fin 16}
    (hharm : (NocDmaOp.teardown detached (some r)).Harmless w) :
    (∀ w' ∈ (NocDmaOp.teardown detached (some r)).points w, GlitchFree w') ∧
      Mirrored ((NocDmaOp.teardown detached (some r)).after w) := by
  have hdis : ((w.unit.regs r).writes
      (if detached then [] else atuWrites 0 0 0)).enabled = false := by
    cases detached with
    | false => exact teardown_take_disabled (k := 9) (by omega)
    | true =>
      by_contra h
      have := (hharm (by simpa [AtuRegs.writes] using h)).1
      cases this
  have hafter := hm.clear hdis
  rw [teardown_after]
  refine ⟨?_, hafter⟩
  intro w' hw'
  rcases mem_teardown_points.mp hw' with hw' | rfl
  · obtain ⟨k, hk, rfl⟩ := mem_writePoints.mp hw'
    cases detached with
    | true => simp at hk
    | false =>
      apply glitchFree_of_confined
      · rw [AtuWorld.writes_slots]
        exact hm.ok
      · intro r'
        rw [AtuWorld.writes_slots, AtuWorld.writes_host]
        by_cases hr : r' = r
        · subst hr
          rw [AtuWorld.writes_regs_self]
          exact confined_during_teardown (hm.agrees r') (fun hen => (hharm hen).2) (k + 1)
        · rw [AtuWorld.writes_regs_of_ne _ _ _ hr]
          exact (hm.agrees r').confined
  · exact hafter.glitchFree

/-- Any other teardown passes through a world with a glitch: the region captures
address zero, or sends it to host address zero, or outlives its entry. -/
theorem Mirrored.teardown_exposed {w : AtuWorld} (hm : Mirrored w) {detached : Bool} {r : Fin 16}
    (hharm : ¬(NocDmaOp.teardown detached (some r)).Harmless w) :
    ∃ w' ∈ (NocDmaOp.teardown detached (some r)).points w, ¬GlitchFree w' := by
  simp only [NocDmaOp.Harmless, Classical.not_imp] at hharm
  obtain ⟨hen, hnot⟩ := hharm
  obtain ⟨hused, hb, hl, ht⟩ := (hm.agrees r).on hen
  cases detached with
  | true =>
    refine ⟨_, mem_teardown_points.mpr (Or.inr rfl), ?_⟩
    intro hg
    have hne := hm.ok.nonempty r hused
    have htr : (w.unit.regs r).translate (w.unit.slots r).base = some (w.host r) :=
      AtuRegs.translate_eq_some.mpr ⟨hen, by omega, by omega, by omega⟩
    have h := (hg.1 r _ _ htr).1
    rw [AtuWorld.clear_slots_self] at h
    cases h
  | false =>
    by_cases hbase : (w.unit.slots r).base = 0
    · refine ⟨_, mem_teardown_points.mpr (Or.inl (mem_writePoints.mpr ⟨3, by decide, rfl⟩)), ?_⟩
      intro hg
      have h := hg.1 r 0 0
      rw [AtuWorld.writes_regs_self, AtuWorld.writes_slots, AtuWorld.writes_host] at h
      obtain ⟨_, _, _, hhost, _⟩ := h (teardown_retargets_zero hen)
      exact hnot ⟨rfl, hbase, by omega⟩
    · refine ⟨_, mem_teardown_points.mpr (Or.inl (mem_writePoints.mpr ⟨1, by decide, rfl⟩)), ?_⟩
      intro hg
      have h := hg.1 r 0 (w.unit.regs r).target
      rw [AtuWorld.writes_regs_self, AtuWorld.writes_slots, AtuWorld.writes_host] at h
      obtain ⟨_, hlo, _⟩ := h (teardown_opens_zero hen)
      omega

/-- A harmless call passes through glitch-free worlds only, and leaves the
registers agreeing with the table. -/
theorem Mirrored.call {w : AtuWorld} (hm : Mirrored w) {op : NocDmaOp} (hharm : op.Harmless w) :
    (∀ w' ∈ op.points w, GlitchFree w') ∧ Mirrored (op.after w) := by
  rcases op with ⟨owner, topDown, size, target⟩ | ⟨detached, _ | r⟩
  · exact hm.setup owner topDown size target
  · exact ⟨by simp [NocDmaOp.points], by simpa [NocDmaOp.after, NocDmaOp.points] using hm⟩
  · exact hm.teardown hharm

/-- A call that is not harmless passes through a world with a glitch. -/
theorem Mirrored.call_exposed {w : AtuWorld} (hm : Mirrored w) {op : NocDmaOp}
    (hharm : ¬op.Harmless w) : ∃ w' ∈ op.points w, ¬GlitchFree w' := by
  rcases op with ⟨owner, topDown, size, target⟩ | ⟨detached, _ | r⟩
  · exact absurd trivial hharm
  · exact absurd trivial hharm
  · exact hm.teardown_exposed hharm

/-- From a mirrored world, the runs without a glitch are those of harmless calls. -/
theorem Mirrored.run {w : AtuWorld} (hm : Mirrored w) (ops : List NocDmaOp) :
    (∀ w' ∈ runPoints w ops, GlitchFree w') ↔ RunHarmless w ops := by
  induction ops generalizing w with
  | nil => simpa [runPoints, RunHarmless] using hm.glitchFree
  | cons op ops ih =>
    simp only [runPoints, RunHarmless, List.mem_cons, List.mem_append]
    constructor
    · intro h
      have hharm : op.Harmless w := by
        by_contra hnot
        obtain ⟨w', hw', hbad⟩ := hm.call_exposed hnot
        exact hbad (h w' (Or.inr (Or.inl hw')))
      exact ⟨hharm, (ih (hm.call hharm).2).mp fun w' hw' => h w' (Or.inr (Or.inr hw'))⟩
    · rintro ⟨hharm, hrest⟩ w' (rfl | hw' | hw')
      · exact hm.glitchFree
      · exact (hm.call hharm).1 w' hw'
      · exact (ih (hm.call hharm).2).mpr hrest w' hw'

/-- The last point of a set-up is the unit `TtSetupNocDma` leaves. -/
theorem setup_after_unit (w : AtuWorld) (owner : Handle) (topDown : Bool) (size : UInt32)
    (target : UInt64) :
    ((NocDmaOp.setup owner topDown size target).after w).unit =
      (ttSetupNocDma w.unit owner topDown size.toNat target.toNat).unit := by
  unfold NocDmaOp.after NocDmaOp.points ttSetupNocDma
  by_cases hzero : size.toNat = 0
  · simp only [hzero, if_true, List.getLastD_nil]
  · simp only [hzero, if_false]
    cases hclaim : ttIatuFindAndClaim w.unit.slots owner topDown size.toNat with
    | none => simp only [List.getLastD_nil]
    | some res =>
      obtain ⟨slot, base, slots⟩ := res
      obtain ⟨_, _, rfl⟩ := ttIatuFindAndClaim_eq_some hclaim
      simp only
      split
      · rw [List.getLastD_cons, writePoints_getLastD]
        rfl
      · rfl

/-- The last point of a teardown is the unit `TtTeardownNocDma` leaves. -/
theorem teardown_after_unit (w : AtuWorld) (detached : Bool) (region : Option (Fin 16)) :
    ((NocDmaOp.teardown detached region).after w).unit =
      ttTeardownNocDma detached w.unit region := by
  cases region with
  | none => rfl
  | some r =>
    rw [teardown_after]
    cases detached with
    | true => rfl
    | false =>
      simp only [ttTeardownNocDma, teardown_config]
      rfl

/-- Starting with every region disabled, a run of set-ups and teardowns is free of
glitches at every point between two register writes if and only if each teardown
finds its region disabled, or mapping address zero to host address zero on an
attached device. -/
theorem runPoints_glitchFree_iff {w : AtuWorld} (hw : w.Initial) (ops : List NocDmaOp) :
    (∀ w' ∈ runPoints w ops, GlitchFree w') ↔ RunHarmless w ops :=
  hw.mirrored.run ops

/-- The device after power-up: no region is claimed and all registers are zero. -/
def AtuWorld.powerUp : AtuWorld := ⟨⟨fun _ => .empty, fun _ _ => 0⟩, fun _ => 0⟩

/-- Nothing is enabled or claimed after power-up. -/
theorem AtuWorld.powerUp_initial : AtuWorld.powerUp.Initial :=
  fun _ => ⟨Nat.zero_testBit 31, rfl⟩

/-- A page is mapped at the top of the space and torn down again. -/
def pageMappedAndTornDown : List NocDmaOp :=
  [.setup 1 true 4096 0x1000, .teardown false (some 0)]

/-- The theorem above at a run with a set-up and a teardown of a free region. -/
theorem runPoints_glitchFree_iff_powerUp :
    AtuWorld.powerUp.Initial ∧
      ((∀ w' ∈ runPoints AtuWorld.powerUp [.setup 1 true 4096 0x1000, .teardown false (some 5)],
        GlitchFree w') ↔
      RunHarmless AtuWorld.powerUp [.setup 1 true 4096 0x1000, .teardown false (some 5)]) :=
  ⟨AtuWorld.powerUp_initial, runPoints_glitchFree_iff AtuWorld.powerUp_initial _⟩

/-- Tearing down the page passes through a world in which its region captures NOC
address zero. -/
theorem pageMappedAndTornDown_glitches :
    AtuWorld.powerUp.Initial ∧
      ¬∀ w' ∈ runPoints AtuWorld.powerUp pageMappedAndTornDown, GlitchFree w' := by
  refine ⟨AtuWorld.powerUp_initial, ?_⟩
  rw [AtuWorld.powerUp_initial.mirrored.run]
  rintro ⟨_, hharm, _⟩
  have hbase := (hharm (by decide)).2.1
  revert hbase
  decide

end TtKmd
