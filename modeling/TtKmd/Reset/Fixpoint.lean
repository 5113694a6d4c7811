import TtKmd.Lib.Runs
import TtKmd.Reset.Snapshot

/-!
# Resets and restores in a row

A restore overwrites its own source: it takes a new snapshot at its end. When the registers
read back what was written, and a chip reset leaves the capability list as it is, every
restore of a row of resets brings the registers back to the first snapshot, and so the
snapshots agree.
-/

namespace TtKmd

open Lib

/-! ## The capability list -/

/-- The capability headers that the walk reads, with the steps left. -/
def capVisits (cfg : ℕ → BitVec 16) : ℕ → ℕ → List ℕ
  | 0, _ => []
  | steps + 1, offset =>
      if 0x40 ≤ offset then
        offset :: (if cfg offset = 0xFFFF ∨ cfg offset &&& 0xFF = 0x10 then []
          else capVisits cfg steps ((cfg offset >>> 8) &&& 0xFC).toNat)
      else []

/-- There is no capability list. -/
def NoCapList (cfg : ℕ → BitVec 16) : Prop := cfg 0x06 = 0xFFFF ∨ cfg 0x06 &&& 0x0010 = 0

/-- The first capability. -/
def capPointer (cfg : ℕ → BitVec 16) : ℕ :=
  ((cfg (0x34 + 2) ++ cfg 0x34 : BitVec 32) &&& 0xFC).toNat

/-- Two register files with one capability list. -/
structure SameCapList (cfg cfg' : ℕ → BitVec 16) : Prop where
  /-- Both have a list, or none has. -/
  present : NoCapList cfg' ↔ NoCapList cfg
  /-- The lists begin at one place. -/
  pointer : capPointer cfg' = capPointer cfg
  /-- The headers of the list are the same. -/
  headers : ∀ offset ∈ capVisits cfg 48 (capPointer cfg), cfg' offset = cfg offset

section CapList

variable {cfg cfg' cfg'' : ℕ → BitVec 16} {c c' : ConfigState}

/-- The walk reads the same headers. -/
theorem capVisits_congr {steps offset : ℕ}
    (h : ∀ o ∈ capVisits cfg steps offset, cfg' o = cfg o) :
    capVisits cfg' steps offset = capVisits cfg steps offset := by
  induction steps generalizing offset with
  | zero => rfl
  | succ steps ih =>
    rw [capVisits] at h ⊢
    rw [capVisits]
    by_cases hoffset : 0x40 ≤ offset
    · rw [if_pos hoffset] at h
      rw [if_pos hoffset, if_pos hoffset, h offset (List.mem_cons_self ..)]
      by_cases hend : cfg offset = 0xFFFF ∨ cfg offset &&& 0xFF = 0x10
      · rw [if_pos hend, if_pos hend]
      · rw [if_neg hend] at h
        rw [if_neg hend, if_neg hend, ih fun o ho => h o (List.mem_cons_of_mem _ ho)]
    · rw [if_neg hoffset, if_neg hoffset]

/-- The walk ends at the same place. -/
theorem capWalk_congr (hbus : c'.busInterfaceValid = c.busInterfaceValid) {steps offset : ℕ}
    (h : ∀ o ∈ capVisits c.cfg steps offset, c'.cfg o = c.cfg o) :
    capWalk c' steps offset = capWalk c steps offset := by
  induction steps generalizing offset with
  | zero => rfl
  | succ steps ih =>
    rw [capVisits] at h
    unfold capWalk
    by_cases hoffset : 0x40 ≤ offset
    · rw [if_pos hoffset] at h
      have hread : ttCfgReadWord c' offset = ttCfgReadWord c offset := by
        unfold ttCfgReadWord
        rw [hbus, h offset (List.mem_cons_self ..)]
      rw [dif_pos hoffset, dif_pos hoffset, hread]
      cases hheader : ttCfgReadWord c offset with
      | none => rfl
      | some header =>
        have hsame : header = c.cfg offset := by
          unfold ttCfgReadWord at hheader
          split at hheader
          · exact (Option.some.inj hheader).symm
          · cases hheader
        dsimp only
        rw [hsame]
        by_cases hdead : c.cfg offset = 0xFFFF
        · rw [if_pos hdead, if_pos hdead]
        by_cases hfound : c.cfg offset &&& 0xFF = 0x10
        · rw [if_neg hdead, if_neg hdead, if_pos hfound, if_pos hfound]
        · rw [if_neg (not_or.mpr ⟨hdead, hfound⟩)] at h
          rw [if_neg hdead, if_neg hdead, if_neg hfound, if_neg hfound]
          exact ih fun o ho => h o (List.mem_cons_of_mem _ ho)
    · rw [dif_neg hoffset, dif_neg hoffset]

/-- A list is itself. -/
theorem SameCapList.refl (cfg : ℕ → BitVec 16) : SameCapList cfg cfg := ⟨.rfl, rfl, fun _ _ => rfl⟩

/-- Two changes in a row that leave the list as it is. -/
theorem SameCapList.trans (h : SameCapList cfg cfg') (h' : SameCapList cfg' cfg'') :
    SameCapList cfg cfg'' where
  present := h'.present.trans h.present
  pointer := h'.pointer.trans h.pointer
  headers := fun o ho => by
    have hvisits : capVisits cfg' 48 (capPointer cfg') = capVisits cfg 48 (capPointer cfg) := by
      rw [h.pointer]
      exact capVisits_congr h.headers
    have ho' : o ∈ capVisits cfg' 48 (capPointer cfg') := by rwa [hvisits]
    exact (h'.headers o ho').trans (h.headers o ho)

/-- One list leads to one capability. -/
theorem SameCapList.discover (h : SameCapList c.cfg c'.cfg)
    (hbus : c'.busInterfaceValid = c.busInterfaceValid) :
    (ttDiscoverPcieCap c').pcieCapOffset = (ttDiscoverPcieCap c).pcieCapOffset := by
  cases hvalid : c.busInterfaceValid with
  | false =>
    have hvalid' := hbus.trans hvalid
    simp [ttDiscoverPcieCap, ttCfgReadWord, ttCfgReadDword, hvalid, hvalid']
  | true =>
    have hvalid' := hbus.trans hvalid
    have hwalk := capWalk_congr hbus h.headers
    have hpresent := h.present
    have hpointer := h.pointer
    unfold NoCapList at hpresent
    unfold capPointer at hpointer hwalk
    simp only [ttDiscoverPcieCap, ttCfgReadWord, ttCfgReadDword, hvalid, hvalid', if_true]
    rw [hpointer, hwalk]
    simp only [hpresent]

/-- The place of the capability in a snapshot. -/
theorem ttPciSaveState_pcieCapOffset (hbus : c.busInterfaceValid = true) :
    (ttPciSaveState c).pcieCapOffset = (ttDiscoverPcieCap c).pcieCapOffset := by
  have hsame : ∀ saved, (ttDiscoverPcieCap { c with savedHeaderDword := saved }).pcieCapOffset =
      (ttDiscoverPcieCap c).pcieCapOffset := fun saved =>
    (show SameCapList c.cfg { c with savedHeaderDword := saved }.cfg from .refl _).discover rfl
  unfold ttPciSaveState savedState
  rw [if_pos hbus]
  dsimp only
  split <;> simp only [hsame]

end CapList

/-! ## Cycles -/

/-- A chip reset that leaves the capability list as it is, and a successful restore. -/
def resetCycle (c : ConfigState) (cfg : ℕ → BitVec 16) (c' : ConfigState) : Prop :=
  SameCapList c.cfg cfg ∧ ttSafeRestoreState { c with cfg } = (true, c')

/-- The registers of a restore are what a snapshot says. -/
structure SnapshotRestored (s c : ConfigState) : Prop where
  /-- The six BARs. -/
  bars : ∀ i < 6, c.cfg (0x10 + i * 4 + 2) ++ c.cfg (0x10 + i * 4) = s.savedHeaderDword (4 + i)
  /-- The ROM register. -/
  rom : c.cfg 0x32 ++ c.cfg 0x30 = s.savedHeaderDword (0x30 / 4)
  /-- The dword at `0x0C`. -/
  cacheLine : c.cfg 0x0E ++ c.cfg 0x0C = s.savedHeaderDword (0x0C / 4)
  /-- The lower word at `0x3C`. -/
  interruptLine : c.cfg 0x3C = (s.savedHeaderDword (0x3C / 4)).setWidth 16
  /-- Device Control. -/
  devCtl : s.pcieCapOffset.offset ≠ 0 → c.cfg (s.pcieCapOffset.offset + 0x08) = s.savedPcieDevCtl
  /-- Link Control. -/
  lnkCtl : s.pcieCapOffset.offset ≠ 0 → c.cfg (s.pcieCapOffset.offset + 0x10) = s.savedPcieLnkCtl
  /-- Command. -/
  command : c.cfg pciCommand = s.savedCommand

/-- Two snapshots say the same of the registers of a restore. -/
structure SnapshotAgrees (s s' : ConfigState) : Prop where
  /-- The second one is valid. -/
  valid : s'.savedStateValid = true
  /-- The place of the capability. -/
  pcieCapOffset : s'.pcieCapOffset = s.pcieCapOffset
  /-- The six BARs, the ROM register and the dword at `0x0C`. -/
  header : ∀ i, (4 ≤ i ∧ i < 10) ∨ i = 0x30 / 4 ∨ i = 0x0C / 4 →
    s'.savedHeaderDword i = s.savedHeaderDword i
  /-- The lower word at `0x3C`. -/
  interruptLine : (s'.savedHeaderDword (0x3C / 4)).setWidth 16 =
    (s.savedHeaderDword (0x3C / 4)).setWidth 16
  /-- Device Control. -/
  devCtl : s.pcieCapOffset.offset ≠ 0 → s'.savedPcieDevCtl = s.savedPcieDevCtl
  /-- Link Control. -/
  lnkCtl : s.pcieCapOffset.offset ≠ 0 → s'.savedPcieLnkCtl = s.savedPcieLnkCtl
  /-- Command. -/
  command : s'.savedCommand = s.savedCommand

/-- What holds after every cycle: the snapshot is one of the current registers, and the
registers of a restore are those of the first snapshot. -/
structure KeepsSnapshot (c₀ c : ConfigState) : Prop where
  /-- The bus interface is there. -/
  bus : c.busInterfaceValid = true
  /-- The snapshot is new. -/
  saved : ∃ d, d.busInterfaceValid = true ∧ c = ttPciSaveState d
  /-- The place of the capability. -/
  pcieCapOffset : c.pcieCapOffset = (ttPciSaveState c₀).pcieCapOffset
  /-- The registers of a restore. -/
  registers : ∀ o ∈ restoredOffsets c.pcieCapOffset.offset, c.cfg o = c₀.cfg o
  /-- The capability list. -/
  list : SameCapList c₀.cfg c.cfg

section Cycles

variable {c₀ c c' : ConfigState} {cfg : ℕ → BitVec 16}

/-- The first snapshot. -/
theorem KeepsSnapshot.first (hbus : c₀.busInterfaceValid = true) :
    KeepsSnapshot c₀ (ttPciSaveState c₀) := by
  obtain ⟨hcfg, hbus'⟩ := ttPciSaveState_cfg c₀
  refine ⟨hbus'.trans hbus, ⟨c₀, hbus, rfl⟩, rfl, fun o _ => by rw [hcfg], ?_⟩
  rw [hcfg]
  exact .refl _

/-- A register that the walk reads first is none of a restore. -/
theorem notMem_restoredOffsets {cap : CapOffset} {o : ℕ} (ho : o ∈ [0x06, 0x34, 0x36]) :
    o ∉ restoredOffsets cap.offset := by
  have hvalid := cap.valid
  have hcases : o = 0x06 ∨ o = 0x34 ∨ o = 0x36 := by simpa using ho
  unfold restoredOffsets pciCommand
  split
  · simp
    omega
  · simp
    omega

/-- What a word of a restore writes is the register of the first snapshot. -/
theorem KeepsSnapshot.words (h : KeepsSnapshot c₀ c) : ∀ w ∈ restoredWords c, w.2 = c₀.cfg w.1 := by
  intro w hw
  obtain ⟨d, hbus, hd⟩ := h.saved
  have hkey : w.1 ∈ restoredOffsets c.pcieCapOffset.offset := by
    rw [← restoredWords_map_fst]
    exact List.mem_map_of_mem hw
  have hcfg : c.cfg = d.cfg := by
    rw [hd]
    exact (ttPciSaveState_cfg d).1
  rw [← h.registers w.1 hkey, hcfg]
  rw [hd] at hw
  exact restoredWords_ttPciSaveState hbus w hw

/-- The registers behind the writes of a restore. -/
theorem KeepsSnapshot.restored (h : KeepsSnapshot c₀ c) {d : ConfigState}
    (hd : d = (restoreWrites { c with cfg }).foldl RestoreWrite.perform { c with cfg }) :
    (∀ o ∈ restoredOffsets c.pcieCapOffset.offset, d.cfg o = c₀.cfg o) ∧
      ∀ o ∉ restoredOffsets c.pcieCapOffset.offset, d.cfg o = cfg o := by
  have hsame : restoredWords { c with cfg } = restoredWords c := by
    have hwords : RestoreWrite.words { c with cfg } = RestoreWrite.words c := by
      funext x
      cases hsource : x.source <;> simp [RestoreWrite.words, ConfigState.saved, hsource]
    rw [restoredWords, hwords]
    rfl
  subst hd
  constructor
  · intro o ho
    rw [← restoredWords_map_fst] at ho
    obtain ⟨w, hw, rfl⟩ := List.mem_map.mp ho
    rw [← h.words w hw]
    exact (cfg_foldl_perform (c := { c with cfg }) h.bus).1 w (hsame ▸ hw) rfl
  · exact fun o ho => (cfg_foldl_perform (c := { c with cfg }) h.bus).2 ho

/-- A cycle keeps the agreement. -/
theorem KeepsSnapshot.cycle (hbus₀ : c₀.busInterfaceValid = true) (h : KeepsSnapshot c₀ c)
    (hcycle : resetCycle c cfg c') : KeepsSnapshot c₀ c' := by
  obtain ⟨hlist, hrestore⟩ := hcycle
  have hrestorable : ConfigState.Restorable { c with cfg } := by
    rcases ttSafeRestoreState_cases { c with cfg } with ⟨-, hrefused⟩ | ⟨hok, -⟩
    · rw [hrefused] at hrestore
      cases hrestore
    · exact hok
  rw [ttSafeRestoreState_eq hrestorable] at hrestore
  obtain ⟨d, hd⟩ : ∃ d, d = (restoreWrites { c with cfg }).foldl RestoreWrite.perform
    { c with cfg } := ⟨_, rfl⟩
  rw [← hd] at hrestore
  obtain rfl : c' = ttPciSaveState d := (Prod.mk.inj hrestore).2.symm
  obtain ⟨hkeys, hothers⟩ := h.restored hd
  have hbus : d.busInterfaceValid = true := by
    rw [hd, foldl_perform_eq (c := c) h.bus]
    exact h.bus
  have hlist' : SameCapList c₀.cfg d.cfg := by
    have hreset := h.list.trans hlist
    have hunwritten : ∀ o ∈ [0x06, 0x34, 0x36], d.cfg o = cfg o := fun o ho =>
      hothers o (notMem_restoredOffsets ho)
    refine ⟨?_, ?_, ?_⟩
    · rw [← hreset.present, NoCapList, NoCapList, hunwritten 0x06 (by decide)]
    · rw [← hreset.pointer, capPointer, capPointer, hunwritten 0x34 (by decide),
        hunwritten (0x34 + 2) (by decide)]
    · intro o ho
      by_cases hkey : o ∈ restoredOffsets c.pcieCapOffset.offset
      · exact hkeys o hkey
      · exact (hothers o hkey).trans (hreset.headers o ho)
  have hcap : (ttPciSaveState d).pcieCapOffset = (ttPciSaveState c₀).pcieCapOffset := by
    rw [ttPciSaveState_pcieCapOffset hbus, ttPciSaveState_pcieCapOffset hbus₀]
    exact hlist'.discover (hbus.trans hbus₀.symm)
  obtain ⟨hcfg, hbus'⟩ := ttPciSaveState_cfg d
  refine ⟨hbus'.trans hbus, ⟨d, hbus, rfl⟩, hcap, ?_, by rwa [hcfg]⟩
  intro o ho
  rw [hcap, ← h.pcieCapOffset] at ho
  rw [hcfg]
  exact hkeys o ho

/-- The dwords of the header that a restore writes whole. -/
theorem dword_mem_restoredOffsets (cap : ℕ) {i : ℕ}
    (hi : (4 ≤ i ∧ i < 10) ∨ i = 0x30 / 4 ∨ i = 0x0C / 4) :
    i * 4 ∈ restoredOffsets cap ∧ i * 4 + 2 ∈ restoredOffsets cap := by
  have hrange : i ∈ [4, 5, 6, 7, 8, 9, 12, 3] := by
    simp
    omega
  have hfixed : ∀ i ∈ [4, 5, 6, 7, 8, 9, 12, 3],
      i * 4 ∈ restoredOffsets 0 ∧ i * 4 + 2 ∈ restoredOffsets 0 := by decide
  have hmore : ∀ o ∈ restoredOffsets 0, o ∈ restoredOffsets cap := by
    intro o ho
    simp only [restoredOffsets, List.mem_append] at ho ⊢
    rcases ho with (ho | ho) | ho
    · exact .inl (.inl ho)
    · cases ho
    · exact .inr ho
  exact ⟨hmore _ (hfixed i hrange).1, hmore _ (hfixed i hrange).2⟩

/-- A snapshot says what its device has in the registers. -/
theorem snapshotRestored_ttPciSaveState (hbus : c.busInterfaceValid = true) :
    SnapshotRestored (ttPciSaveState c) (ttPciSaveState c) := by
  have hcfg := (ttPciSaveState_cfg c).1
  have hheader : ∀ i < 16, (ttPciSaveState c).savedHeaderDword i =
      (ttPciSaveState c).cfg (i * 4 + 2) ++ (ttPciSaveState c).cfg (i * 4) := by
    intro i hi
    rw [hcfg]
    exact ttPciSaveState_header hbus hi
  refine ⟨?_, (hheader 12 (by decide)).symm, (hheader 3 (by decide)).symm, ?_, ?_, ?_, ?_⟩
  · intro i hi
    have hoffset : 0x10 + i * 4 = (4 + i) * 4 := by omega
    rw [hoffset, hheader (4 + i) (by omega)]
  · rw [hheader 15 (by decide), setWidth_append_low]
  · intro hfound
    rw [hcfg]
    exact (ttPciSaveState_cap hbus hfound).1.symm
  · intro hfound
    rw [hcfg]
    exact (ttPciSaveState_cap hbus hfound).2.symm
  · rw [ConfigState.savedCommand, hheader (pciCommand / 4) (by decide), setWidth_append_low]
    rfl

/-- What a snapshot says depends on the registers of a restore only. -/
theorem SnapshotRestored.of_registers {s : ConfigState} (h : SnapshotRestored s c)
    (hsame : ∀ o ∈ restoredOffsets s.pcieCapOffset.offset, c'.cfg o = c.cfg o) :
    SnapshotRestored s c' := by
  have hdword : ∀ i, (4 ≤ i ∧ i < 10) ∨ i = 0x30 / 4 ∨ i = 0x0C / 4 →
      c'.cfg (i * 4 + 2) ++ c'.cfg (i * 4) = c.cfg (i * 4 + 2) ++ c.cfg (i * 4) := by
    intro i hi
    obtain ⟨hlow, hhigh⟩ := dword_mem_restoredOffsets s.pcieCapOffset.offset hi
    rw [hsame _ hlow, hsame _ hhigh]
  refine ⟨?_, (hdword 12 (by decide)).trans h.rom, (hdword 3 (by decide)).trans h.cacheLine,
    ?_, ?_, ?_, ?_⟩
  · intro i hi
    have hbar := h.bars i hi
    have hoffset : 0x10 + i * 4 = (4 + i) * 4 := by omega
    rw [hoffset] at hbar ⊢
    exact (hdword (4 + i) (by omega)).trans hbar
  · rw [hsame _ (by simp [restoredOffsets])]
    exact h.interruptLine
  · intro hfound
    rw [hsame _ (by simp [restoredOffsets, hfound])]
    exact h.devCtl hfound
  · intro hfound
    rw [hsame _ (by simp [restoredOffsets, hfound])]
    exact h.lnkCtl hfound
  · rw [hsame _ (by simp [restoredOffsets])]
    exact h.command

/-- Two snapshots of the same registers agree. -/
theorem SnapshotRestored.agrees {s s' : ConfigState} (h : SnapshotRestored s c)
    (h' : SnapshotRestored s' c) (hcap : s'.pcieCapOffset = s.pcieCapOffset)
    (hvalid : s'.savedStateValid = true) : SnapshotAgrees s s' where
  valid := hvalid
  pcieCapOffset := hcap
  header := fun i hi => by
    rcases hi with ⟨hlo, hhi⟩ | rfl | rfl
    · obtain ⟨k, rfl⟩ := Nat.exists_eq_add_of_le hlo
      exact (h'.bars k (by omega)).symm.trans (h.bars k (by omega))
    · exact h'.rom.symm.trans h.rom
    · exact h'.cacheLine.symm.trans h.cacheLine
  interruptLine := h'.interruptLine.symm.trans h.interruptLine
  devCtl := fun hfound => by
    have hnow := h'.devCtl (by rwa [hcap])
    rw [hcap] at hnow
    exact hnow.symm.trans (h.devCtl hfound)
  lnkCtl := fun hfound => by
    have hnow := h'.lnkCtl (by rwa [hcap])
    rw [hcap] at hnow
    exact hnow.symm.trans (h.lnkCtl hfound)
  command := h'.command.symm.trans h.command

/-- The registers of a restore, and the snapshot of them, are those of the first snapshot. -/
theorem KeepsSnapshot.agrees (hbus₀ : c₀.busInterfaceValid = true) (h : KeepsSnapshot c₀ c) :
    SnapshotRestored (ttPciSaveState c₀) c ∧ SnapshotAgrees (ttPciSaveState c₀) c := by
  have hrestored : SnapshotRestored (ttPciSaveState c₀) c := by
    refine (snapshotRestored_ttPciSaveState hbus₀).of_registers fun o ho => ?_
    rw [(ttPciSaveState_cfg c₀).1]
    rw [← h.pcieCapOffset] at ho
    exact h.registers o ho
  have hcap := h.pcieCapOffset
  obtain ⟨d, hbus, rfl⟩ := h.saved
  refine ⟨hrestored, hrestored.agrees (snapshotRestored_ttPciSaveState hbus) hcap ?_⟩
  rw [ttPciSaveState_valid, hbus]

/-- Command is written once, behind all other registers. -/
def CommandLast (writes : List RestoreWrite) : Prop :=
  ∃ before, writes = before ++ [⟨pciCommand, false, .header (pciCommand / 4)⟩] ∧
    ∀ x ∈ before, x.offset ≠ pciCommand

/-- The writes of a restore end with Command. -/
theorem commandLast_restoreWrites (c : ConfigState) : CommandLast (restoreWrites c) := by
  obtain ⟨before, hwrites, hbefore⟩ := restoreWrites_command c
  exact ⟨before, hwrites, fun x hx => (hbefore x hx).1⟩

/-- From a valid snapshot, after any number of chip resets, each with a successful restore, the
registers of a restore are those of the first snapshot, the current snapshot agrees with it,
and every restore writes Command last. -/
theorem restore_fixpoint (hvalid : (ttPciSaveState c₀).savedStateValid = true)
    {resets : List (ℕ → BitVec 16)} (hrun : Run resetCycle (ttPciSaveState c₀) resets c) :
    SnapshotRestored (ttPciSaveState c₀) c ∧ SnapshotAgrees (ttPciSaveState c₀) c ∧
      ∀ cfg c', resetCycle c cfg c' →
        CommandLast (restoreWrites { c with cfg }) ∧
          c' = ttPciSaveState ((restoreWrites { c with cfg }).foldl RestoreWrite.perform
            { c with cfg }) := by
  have hbus₀ : c₀.busInterfaceValid = true := (ttPciSaveState_valid c₀).symm.trans hvalid
  have h : KeepsSnapshot c₀ c :=
    hrun.invariant (fun _ _ _ h hcycle => h.cycle hbus₀ hcycle) (.first hbus₀)
  obtain ⟨hrestored, hagrees⟩ := h.agrees hbus₀
  refine ⟨hrestored, hagrees, fun cfg c' hcycle => ⟨commandLast_restoreWrites _, ?_⟩⟩
  rcases ttSafeRestoreState_cases { c with cfg } with ⟨-, hrefused⟩ | ⟨hok, -⟩
  · have hrestore := hcycle.2
    rw [hrefused] at hrestore
    cases hrestore
  · have hrestore := hcycle.2
    rw [ttSafeRestoreState_eq hok] at hrestore
    exact (Prod.mk.inj hrestore).2.symm

end Cycles

/-- A device with one BAR set, and the capability at `0x40`. -/
def shippedConfig : ConfigState where
  busInterfaceValid := true
  cfg := fun
    | 0x00 => 0x1E52
    | 0x04 => 0x0006
    | 0x06 => 0x0010
    | 0x10 => 0x000C
    | 0x12 => 0x8000
    | 0x34 => 0x0040
    | 0x40 => 0x0010
    | 0x48 => 0x515F
    | _ => 0
  pcieCapOffset := .none
  savedStateValid := false
  savedHeaderDword := fun _ => 0
  savedPcieDevCtl := 0
  savedPcieLnkCtl := 0

/-- The registers after a chip reset: all of them are cleared but the vendor, the status and
the capability list. -/
def clearedConfig : ℕ → BitVec 16
  | 0x00 => 0x1E52
  | 0x06 => 0x0010
  | 0x34 => 0x0040
  | 0x40 => 0x0010
  | _ => 0

/-- Two resets of that device: the BAR, Device Control and Command are back. -/
theorem restore_fixpoint_shippedConfig :
    ∃ c, Run resetCycle (ttPciSaveState shippedConfig) [clearedConfig, clearedConfig] c ∧
      c.cfg 0x12 ++ c.cfg 0x10 = 0x8000000C#32 ∧ c.cfg 0x48 = 0x515F ∧
      c.cfg pciCommand = 0x0006 := by
  have hlist : ∀ cfg, cfg 0x06 = 0x0010 → cfg 0x34 = 0x0040 → cfg 0x36 = 0 → cfg 0x40 = 0x0010 →
      SameCapList cfg clearedConfig := by
    intro cfg hstatus hpointer hhigh hheader
    have hfirst : capPointer cfg = 0x40 := by
      rw [capPointer, hpointer, hhigh]
      rfl
    have hvisits : capVisits cfg 48 0x40 = [0x40] := by
      rw [capVisits, if_pos (by decide), hheader]
      rfl
    refine ⟨?_, by rw [hfirst]; rfl, ?_⟩
    · rw [NoCapList, NoCapList, hstatus]
      rfl
    · rw [hfirst, hvisits]
      intro o ho
      rw [List.mem_singleton.mp ho, hheader]
      rfl
  have hstep : ∀ c : ConfigState, c.savedStateValid = true → c.busInterfaceValid = true →
      SameCapList c.cfg clearedConfig →
      resetCycle c clearedConfig (ttSafeRestoreState { c with cfg := clearedConfig }).2 := by
    intro c hvalid hbus hsame
    refine ⟨hsame, ?_⟩
    have hrestorable : ConfigState.Restorable { c with cfg := clearedConfig } :=
      ⟨by rw [ttCfgReadWord, if_pos hbus]; rfl, hvalid⟩
    rw [ttSafeRestoreState_eq hrestorable]
  have hrun : Run resetCycle (ttPciSaveState shippedConfig) [clearedConfig, clearedConfig] _ :=
    .cons (hstep _ rfl rfl (hlist _ rfl rfl rfl rfl))
      (.cons (hstep _ rfl rfl (hlist _ rfl rfl rfl rfl)) (.nil _))
  obtain ⟨hrestored, -, -⟩ := restore_fixpoint rfl hrun
  exact ⟨_, hrun, hrestored.bars 0 (by decide), hrestored.devCtl (by decide), hrestored.command⟩

end TtKmd
