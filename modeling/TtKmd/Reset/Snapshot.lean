import TtKmd.Lib.Lists
import TtKmd.Reset.ConfigSpace

/-!
# The writes of a restore

`TtSafeRestoreState` writes a fixed list of registers, each from one value of the snapshot:
six BARs, the ROM register, two more registers of the header, two of the capability if there
is one, and Command at the end. `TtPciSaveState` reads the same values from the same
registers, so a restore brings every register of the list back to what it was when the
snapshot was taken.
-/

namespace TtKmd

open Lib

/-- The words of a write. -/
def RestoreWrite.words (c : ConfigState) (x : RestoreWrite) : List (ℕ × BitVec 16) :=
  if x.wide then
    [(x.offset, (c.saved x.source).setWidth 16),
      (x.offset + 2, ((c.saved x.source) >>> 16).setWidth 16)]
  else [(x.offset, (c.saved x.source).setWidth 16)]

/-- The words that a restore writes. -/
def restoredWords (c : ConfigState) : List (ℕ × BitVec 16) :=
  (restoreWrites c).flatMap (RestoreWrite.words c)

section Writes

variable {c : ConfigState}

/-- A write on a device with a bus interface changes its words and nothing else. -/
theorem RestoreWrite.perform_eq (hbus : c.busInterfaceValid = true) (x : RestoreWrite) :
    x.perform c = { c with
      cfg := (x.words c).foldl (fun cfg w => Function.update cfg w.1 w.2) c.cfg } := by
  unfold RestoreWrite.perform RestoreWrite.words ttCfgWriteDword ttCfgWriteWord
  split <;> simp [hbus]

/-- The writes of a restore change their words and nothing else. -/
theorem foldl_perform_eq (hbus : c.busInterfaceValid = true) (xs : List RestoreWrite)
    (cfg : ℕ → BitVec 16) :
    xs.foldl RestoreWrite.perform { c with cfg } = { c with
      cfg := (xs.flatMap (RestoreWrite.words c)).foldl
        (fun cfg w => Function.update cfg w.1 w.2) cfg } := by
  induction xs generalizing cfg with
  | nil => rfl
  | cons x xs ih =>
    have hwords : x.words { c with cfg } = x.words c := by
      cases hsource : x.source <;> simp [RestoreWrite.words, ConfigState.saved, hsource]
    rw [List.foldl_cons, List.flatMap_cons, List.foldl_append,
      RestoreWrite.perform_eq (c := { c with cfg }) hbus, hwords]
    exact ih _

/-- A restore that is not refused performs the writes in their order and takes a new
snapshot. -/
theorem ttSafeRestoreState_eq (h : c.Restorable) :
    ttSafeRestoreState c =
      (true, ttPciSaveState ((restoreWrites c).foldl RestoreWrite.perform c)) := by
  unfold ttSafeRestoreState
  rw [if_neg (not_not.mpr h.1), if_neg (by simp [h.2])]

end Writes

/-! ## What is written is what was read -/

/-- The words of the registers of a restore, with the capability at an offset. -/
def restoredOffsets (cap : ℕ) : List ℕ :=
  [0x10, 0x12, 0x14, 0x16, 0x18, 0x1A, 0x1C, 0x1E, 0x20, 0x22, 0x24, 0x26, 0x30, 0x32, 0x0C, 0x0E,
    0x3C] ++ (if cap ≠ 0 then [cap + 0x08, cap + 0x10] else []) ++ [pciCommand]

section Saved

variable {c : ConfigState}

/-- The registers of a restore. -/
theorem restoredWords_map_fst (c : ConfigState) :
    (restoredWords c).map (·.1) = restoredOffsets c.pcieCapOffset.offset := by
  unfold restoredWords restoreWrites restoredOffsets
  split <;> rfl

/-- No register of a restore is written twice. -/
theorem restoredOffsets_nodup (cap : CapOffset) : (restoredOffsets cap.offset).Nodup := by
  have hvalid := cap.valid
  unfold restoredOffsets pciCommand
  split
  · simp
    omega
  · decide

/-- A snapshot is valid when the configuration space could be read. -/
theorem ttPciSaveState_valid (c : ConfigState) :
    (ttPciSaveState c).savedStateValid = c.busInterfaceValid := by
  unfold ttPciSaveState savedState
  split
  · rename_i hbus
    dsimp only
    split <;> exact hbus.symm
  · rename_i hbus
    exact (Bool.eq_false_of_not_eq_true hbus).symm

/-- The snapshot of a dword of the header. -/
theorem ttPciSaveState_header (hbus : c.busInterfaceValid = true) {i : ℕ} (hi : i < 16) :
    (ttPciSaveState c).savedHeaderDword i = c.cfg (i * 4 + 2) ++ c.cfg (i * 4) := by
  have hdiscover : ∀ c, (ttDiscoverPcieCap c).savedHeaderDword = c.savedHeaderDword := fun _ => rfl
  unfold ttPciSaveState savedState
  rw [if_pos hbus]
  dsimp only
  split <;> simp only [hdiscover, ttCfgReadDword, hbus, hi, if_true, Option.getD_some]

/-- The snapshot of the capability. -/
theorem ttPciSaveState_cap (hbus : c.busInterfaceValid = true)
    (hcap : (ttPciSaveState c).pcieCapOffset.offset ≠ 0) :
    (ttPciSaveState c).savedPcieDevCtl = c.cfg ((ttPciSaveState c).pcieCapOffset.offset + 0x08) ∧
      (ttPciSaveState c).savedPcieLnkCtl =
        c.cfg ((ttPciSaveState c).pcieCapOffset.offset + 0x10) := by
  unfold ttPciSaveState savedState at hcap ⊢
  rw [if_pos hbus] at hcap ⊢
  dsimp only at hcap ⊢
  split at hcap
  · rename_i hfound
    rw [if_pos hfound]
    exact ⟨rfl, rfl⟩
  · rename_i hnone
    exact absurd hcap hnone

/-- The lower half of a dword. -/
theorem setWidth_append_low (hi lo : BitVec 16) : (hi ++ lo).setWidth 16 = lo := by
  ext k hk
  rw [BitVec.getElem_setWidth, BitVec.getLsbD_append]
  simp [hk]

/-- The upper half of a dword. -/
theorem setWidth_append_high (hi lo : BitVec 16) : ((hi ++ lo) >>> 16).setWidth 16 = hi := by
  ext k hk
  rw [BitVec.getElem_setWidth, BitVec.getLsbD_ushiftRight, BitVec.getLsbD_append]
  simp [hk]

/-- A register of the header that a restore writes: the source is the dword at its offset. -/
theorem restoreWrites_source {x : RestoreWrite} (hx : x ∈ restoreWrites c) :
    (∃ i < 16, x.offset = i * 4 ∧ x.source = .header i) ∨
      (c.pcieCapOffset.offset ≠ 0 ∧ x.wide = false ∧
        ((x.offset = c.pcieCapOffset.offset + 0x08 ∧ x.source = .devCtl) ∨
          (x.offset = c.pcieCapOffset.offset + 0x10 ∧ x.source = .lnkCtl))) := by
  unfold restoreWrites at hx
  rcases List.mem_append.mp hx with hx | hx
  · rcases List.mem_append.mp hx with hx | hx
    · obtain ⟨offset, hoffset, rfl⟩ := List.mem_map.mp hx
      have haligned : ∀ o ∈ [0x10, 0x14, 0x18, 0x1C, 0x20, 0x24, 0x30, 0x0C],
          o / 4 < 16 ∧ o = o / 4 * 4 := by decide
      exact .inl ⟨offset / 4, (haligned offset hoffset).1, (haligned offset hoffset).2, rfl⟩
    · rcases List.mem_cons.mp hx with rfl | hx
      · exact .inl ⟨15, by decide, rfl, rfl⟩
      · split at hx
        · rename_i hcap
          rcases List.mem_cons.mp hx with rfl | hx
          · exact .inr ⟨hcap, rfl, .inl ⟨rfl, rfl⟩⟩
          · rw [List.mem_singleton.mp hx]
            exact .inr ⟨hcap, rfl, .inr ⟨rfl, rfl⟩⟩
        · cases hx
  · rw [List.mem_singleton.mp hx]
    exact .inl ⟨1, by decide, rfl, rfl⟩

/-- A snapshot holds, for every word of a restore, the word of the register. -/
theorem restoredWords_ttPciSaveState (hbus : c.busInterfaceValid = true) :
    ∀ w ∈ restoredWords (ttPciSaveState c), w.2 = c.cfg w.1 := by
  intro w hw
  obtain ⟨x, hx, hw⟩ := List.mem_flatMap.mp hw
  rcases restoreWrites_source hx with ⟨i, hi, hoffset, hsource⟩ | ⟨hcap, hword, hctl⟩
  · have hsaved : (ttPciSaveState c).saved x.source = c.cfg (i * 4 + 2) ++ c.cfg (i * 4) := by
      rw [hsource]
      exact ttPciSaveState_header hbus hi
    unfold RestoreWrite.words at hw
    rw [hsaved, hoffset, setWidth_append_low, setWidth_append_high] at hw
    split at hw
    · rcases List.mem_cons.mp hw with rfl | hw
      · rfl
      · rw [List.mem_singleton.mp hw]
    · rw [List.mem_singleton.mp hw]
  · obtain ⟨hdevCtl, hlnkCtl⟩ := ttPciSaveState_cap hbus hcap
    have hhalf : ∀ v : BitVec 16, (v.setWidth 32).setWidth 16 = v := fun v => by simp
    unfold RestoreWrite.words at hw
    rw [hword, if_neg Bool.false_ne_true, List.mem_singleton] at hw
    rcases hctl with ⟨hoffset, hsource⟩ | ⟨hoffset, hsource⟩
    · rw [hw, hsource, hoffset, ConfigState.saved, hhalf, hdevCtl]
    · rw [hw, hsource, hoffset, ConfigState.saved, hhalf, hlnkCtl]

/-- The registers after the writes of a restore: what the snapshot says, and the rest as it
was. -/
theorem cfg_foldl_perform (hbus : c.busInterfaceValid = true) {offset : ℕ} :
    (∀ w ∈ restoredWords c, w.1 = offset →
      ((restoreWrites c).foldl RestoreWrite.perform c).cfg offset = w.2) ∧
    (offset ∉ restoredOffsets c.pcieCapOffset.offset →
      ((restoreWrites c).foldl RestoreWrite.perform c).cfg offset = c.cfg offset) := by
  have hcfg : ((restoreWrites c).foldl RestoreWrite.perform c).cfg =
      (restoredWords c).foldl (fun cfg w => Function.update cfg w.1 w.2) c.cfg :=
    congrArg ConfigState.cfg (foldl_perform_eq hbus (restoreWrites c) c.cfg)
  have hkeys := restoredWords_map_fst c
  rw [hcfg]
  constructor
  · rintro w hw rfl
    refine foldl_update_of_mem ?_ hw _
    rw [hkeys]
    exact restoredOffsets_nodup _
  · intro hoffset
    refine foldl_update_of_notMem ?_ _
    rw [hkeys]
    exact hoffset

end Saved

end TtKmd
