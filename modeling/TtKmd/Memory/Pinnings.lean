import TtKmd.Memory.Interleaving

/-!
# Pinning and unpinning

`PIN_PAGES` refuses a second pinning with the same address and the same size, and
`UNPIN_PAGES` names a pinning by both. It looks the pinning up by the address alone,
though, and gives up at the first one whose size differs. A pinning is out of its reach
while an older one of another size begins at the same address.
-/

namespace TtKmd

open Lib

/-- The pinning is the one of an address and a size. -/
def Pinning.Is (p : Pinning) (va size : ℕ) : Prop := p.virtualAddress = va ∧ p.size = size

/-- The pinnings of a handle are known by address and size. -/
structure PinningsKeyed (f : FileMemory) : Prop where
  /-- No two have both in common. -/
  unique : f.pinnings.Pairwise fun p q => ¬q.Is p.virtualAddress p.size
  /-- The sizes are those `PIN_PAGES` accepts. -/
  sizes : ∀ p ∈ f.pinnings, ApertureSize p.size

/-- `UNPIN_PAGES` is the inverse of `PIN_PAGES` on an address and a size: it succeeds when
the pinning is live, and then removes it and nothing else; otherwise nothing changes. -/
def UnpinInverse (detached : Bool) (m : MemoryState) (F : Handle) (io : Io) (va size : ℕ) : Prop :=
  let reply := ttIoctlUnpinPages detached m F io ⟨va, size, 0⟩
  (reply.status = .success ↔ ∃ p ∈ (m.file F).pinnings, p.Is va size) ∧
    (reply.status = .success → (∃ before p after,
      (m.file F).pinnings = before ++ p :: after ∧ p.Is va size ∧
        (reply.mem.file F).pinnings = before ++ after) ∧ OthersKept m reply.mem F) ∧
    (reply.status ≠ .success → reply.mem = m)

/-- The pinning of an address and a size is live, and an older live one begins at the same
address. -/
def Shadowed (f : FileMemory) (va size : ℕ) : Prop :=
  ∃ before p after, f.pinnings = before ++ p :: after ∧ p.Is va size ∧
    ∃ q ∈ before, q.virtualAddress = va

section Unpin

variable {m : MemoryState} {F : Handle} {io : Io} {va size : ℕ}

/-- A request whose checks fail, or whose section finds nothing, changes nothing. -/
theorem ttIoctlUnpinPages_failed {detached : Bool} {i : UnpinPagesIn}
    (h : (ttIoctlUnpinPages detached m F io i).status ≠ .success) :
    (ttIoctlUnpinPages detached m F io i).mem = m := by
  unfold ttIoctlUnpinPages at h ⊢
  split
  · rfl
  · rename_i hcheck
    rw [if_neg hcheck] at h
    rcases unpinSection_cases (m := m) (F := F) i with hsec | ⟨p, l, _, hsec⟩
    · rw [hsec]
      rfl
    · rw [hsec] at h
      exact absurd rfl h

/-- The checks of `UNPIN_PAGES` pass for the size of a pinning. -/
theorem unpinPagesCheck_of_size (hio : 24 ≤ io.input) (hsize : ApertureSize size) :
    unpinPagesCheck io ⟨va, size, 0⟩ = .success := by
  obtain ⟨hpos, -, hpages⟩ := hsize
  have hquot : size / pageSize ≠ 0 := by
    intro hzero
    have := Nat.div_mul_cancel hpages
    rw [hzero] at this
    omega
  have hcopy : ttCopyInBuffer io 24 = .success := if_neg (by omega)
  have hvalid : ¬((0 : ℕ) ≠ 0 ∨ size = 0 ∨ size / pageSize = 0) := by
    rintro (h | h | h)
    · exact h rfl
    · omega
    · exact hquot h
  unfold unpinPagesCheck
  rw [if_neg (by simp [hcopy])]
  exact if_neg hvalid

/-- A successful `UNPIN_PAGES` found the first pinning of the address, with the size asked
for, and took it out of the list. -/
theorem ttIoctlUnpinPages_success {detached : Bool}
    (h : (ttIoctlUnpinPages detached m F io ⟨va, size, 0⟩).status = .success) :
    ∃ before p after, (m.file F).pinnings = before ++ p :: after ∧ p.Is va size ∧
      (∀ q ∈ before, q.virtualAddress ≠ va) ∧
      (ttIoctlUnpinPages detached m F io ⟨va, size, 0⟩).mem =
        ttDestroyPinning detached
          (m.setFile F { m.file F with pinnings := before ++ after }) p := by
  unfold ttIoctlUnpinPages at h ⊢
  split at h
  · exact absurd h (by assumption)
  rename_i hcheck
  rw [if_neg hcheck]
  simp only [unpinSection] at h ⊢
  cases hfind : (m.file F).pinnings.find? fun p => p.virtualAddress == va with
  | none => simp [hfind, Reply.fail] at h
  | some p =>
    obtain ⟨before, after, hlist, herase, hbefore⟩ := split_of_find?_eq_some hfind
    have hva : p.virtualAddress = va := by simpa using List.find?_some hfind
    by_cases hsize : p.size = size
    · refine ⟨before, p, after, hlist, ⟨hva, hsize⟩, fun q hq hqva => ?_, ?_⟩
      · exact hbefore q hq (by simpa using hqva)
      · simp [hsize, herase]
    · simp [hfind, hsize, Reply.fail] at h

/-- A pinning with no other of its address in front of it is unpinned. -/
theorem unpin_of_first {detached : Bool} (hio : 24 ≤ io.input) {before after : List Pinning}
    {p : Pinning} (hlist : (m.file F).pinnings = before ++ p :: after) (hp : p.Is va size)
    (hsize : ApertureSize size) (hbefore : ∀ q ∈ before, q.virtualAddress ≠ va) :
    (ttIoctlUnpinPages detached m F io ⟨va, size, 0⟩).status = .success := by
  have hfind : (m.file F).pinnings.find? (fun q => q.virtualAddress == va) = some p := by
    rw [hlist]
    refine List.find?_eq_some_iff_append.mpr ⟨by simp [hp.1], before, after, rfl, ?_⟩
    intro q hq
    simp [hbefore q hq]
  simp [ttIoctlUnpinPages, unpinPagesCheck_of_size hio hsize, unpinSection, hfind, hp.2]

/-- `UNPIN_PAGES` is the inverse of `PIN_PAGES` exactly where the pinning asked for is not
shadowed by an older one. -/
theorem unpinInverse_iff {detached : Bool} (hkeyed : PinningsKeyed (m.file F))
    (hio : 24 ≤ io.input) :
    UnpinInverse detached m F io va size ↔ ¬Shadowed (m.file F) va size := by
  constructor
  · rintro ⟨hiff, -, -⟩ ⟨before, p, after, hlist, hp, q, hq, hqva⟩
    -- the search stops at an older pinning of the address, which has another size
    obtain ⟨before', p', after', hlist', hp', hfirst, -⟩ := ttIoctlUnpinPages_success
      (hiff.mpr ⟨p, by rw [hlist]; simp, hp⟩)
    have hunique := hkeyed.unique
    rw [hlist, List.pairwise_append] at hunique
    have hqsize : q.size ≠ size := fun hqsize =>
      hunique.2.2 q hq p (List.mem_cons_self ..) ⟨hp.1.trans hqva.symm, hp.2.trans hqsize.symm⟩
    have hmem : q ∈ before' ++ p' :: after' := by
      rw [← hlist', hlist]
      exact List.mem_append_left _ hq
    have hmem' : p ∈ before' ++ p' :: after' := by
      rw [← hlist', hlist]
      simp
    -- `p'` and `p` are the same record, and nothing of its address is in front of it
    have heq : before' ++ p' :: after' = before ++ p :: after := hlist'.symm.trans hlist
    rcases List.append_eq_append_iff.mp heq with ⟨mid, rfl, hmid⟩ | ⟨mid, rfl, hmid⟩
    · cases mid with
      | nil => exact absurd hqva (hfirst q (by simpa using hq))
      | cons r mid =>
        obtain ⟨rfl, -⟩ := List.cons.inj hmid
        exact hunique.2.2 p' (by simp) p (List.mem_cons_self ..)
          ⟨hp.1.trans hp'.1.symm, hp.2.trans hp'.2.symm⟩
    · exact absurd hqva (hfirst q (List.mem_append_left _ hq))
  · intro hshadow
    refine ⟨⟨fun h => ?_, ?_⟩, fun h => ?_, ttIoctlUnpinPages_failed⟩
    · obtain ⟨before, p, after, hlist, hp, -⟩ := ttIoctlUnpinPages_success h
      exact ⟨p, by rw [hlist]; simp, hp⟩
    · rintro ⟨p, hmem, hp⟩
      obtain ⟨before, after, hlist⟩ := List.append_of_mem hmem
      have hsize := hkeyed.sizes p hmem
      rw [hp.2] at hsize
      refine unpin_of_first hio hlist hp hsize fun q hq hqva => ?_
      exact hshadow ⟨before, p, after, hlist, hp, q, hq, hqva⟩
    · obtain ⟨before, p, after, hlist, hp, -, hreply⟩ := ttIoctlUnpinPages_success h
      rw [hreply]
      refine ⟨⟨before, p, after, hlist, hp, ?_⟩, othersKept_setFile _⟩
      exact congrArg FileMemory.pinnings (MemoryState.setFile_self _)

end Unpin

/-! ## Runs -/

section Runs

variable {c : MemoryConfig} {detached : Bool} {w w' : MemWorld}

/-- A new handle has no pinnings. -/
theorem PinningsKeyed.init : PinningsKeyed .init := ⟨List.Pairwise.nil, by simp [FileMemory.init]⟩

/-- Fewer pinnings are keyed. -/
theorem PinningsKeyed.sublist {f g : FileMemory} (h : PinningsKeyed f)
    (hsub : g.pinnings.Sublist f.pinnings) : PinningsKeyed g :=
  ⟨h.unique.sublist hsub, fun p hp => h.sizes p (hsub.subset hp)⟩

/-- A pinning whose address and size are new joins the list. -/
theorem PinningsKeyed.insert {f g : FileMemory} (h : PinningsKeyed f) {p : Pinning}
    (hnew : ∀ q ∈ f.pinnings, ¬q.Is p.virtualAddress p.size) (hsize : ApertureSize p.size)
    (hg : g.pinnings = f.pinnings ++ [p]) : PinningsKeyed g := by
  constructor
  · rw [hg, List.pairwise_append]
    refine ⟨h.unique, List.pairwise_singleton _ _, fun q hq r hr hsame => ?_⟩
    rw [List.mem_singleton.mp hr] at hsame
    exact hnew q hq ⟨hsame.1.symm, hsame.2.symm⟩
  · intro q hq
    rw [hg] at hq
    rcases List.mem_append.mp hq with hq | hq
    · exact h.sizes q hq
    · rw [List.mem_singleton.mp hq]
      exact hsize

/-- `PIN_PAGES` refuses an address and a size that are pinned. -/
theorem ttIoctlPinPages_of_pinned {m : MemoryState} {F : Handle} {io : Io} {i : PinPagesIn}
    {env : PinEnv} {q : Pinning} (hq : q ∈ (m.file F).pinnings)
    (hsame : q.Is i.virtualAddress i.size) : (ttIoctlPinPages c detached m F io i env).mem = m := by
  unfold ttIoctlPinPages
  split
  · rfl
  · have hany : ((m.file F).pinnings.any fun p =>
        p.virtualAddress == i.virtualAddress && p.size == i.size) = true :=
      List.any_eq_true.mpr ⟨q, hq, by simp [hsame.1, hsame.2]⟩
    simp only [hany, if_true]
    rfl

/-- `PIN_PAGES` keeps the pinnings keyed. -/
theorem PinningsKeyed.pinPages {m : MemoryState} {F : Handle} (h : PinningsKeyed (m.file F))
    (hok : SlotsOk m.iatu.slots) (io : Io) (i : PinPagesIn) (env : PinEnv) :
    PinningsKeyed ((ttIoctlPinPages c detached m F io i env).mem.file F) := by
  by_cases hpinned : ∃ q ∈ (m.file F).pinnings, q.Is i.virtualAddress i.size
  · obtain ⟨q, hq, hsame⟩ := hpinned
    rw [ttIoctlPinPages_of_pinned hq hsame]
    exact h
  · rcases ttIoctlPinPages_cases c detached F io hok i env with
      (hm | ⟨_, u', _, _, _, hm⟩) | ⟨_, p, target, u', hpin⟩
    · rw [hm]
      exact h
    · rw [hm]
      exact h
    · refine h.insert (p := p) (fun q hq hsame => hpinned ⟨q, hq, ?_⟩) hpin.sizeOk ?_
      · exact ⟨hsame.1.trans hpin.virtualAddress, hsame.2.trans hpin.size⟩
      · rw [hpin.mem]
        exact congrArg FileMemory.pinnings (MemoryState.setFile_self _)

/-- A step that leaves the pinnings of its handle alone. -/
theorem PinningsKeyed.of_pinnings {f g : FileMemory} (h : PinningsKeyed f)
    (hg : g.pinnings = f.pinnings) : PinningsKeyed g :=
  h.sublist (by rw [hg])

/-- The first section of a request keeps the pinnings of its handle keyed. -/
theorem PinningsKeyed.start {F : Handle} (h : PinningsKeyed (w.mem.file F)) (hbooks : w.Books)
    (r : MemRequest) : PinningsKeyed ((w.start c detached F r).mem.file F) := by
  have hok : SlotsOk w.mem.iatu.slots := (Bookkeeping.apertures hbooks).ok
  cases r with
  | allocateTlb io size =>
    rcases start_allocateTlb_cases c detached w F io size with hw | ⟨id, _, _, hw⟩
    all_goals
      rw [hw]
      exact h
  | freeTlb io id =>
    obtain ⟨used, owner, hm⟩ := ttIoctlFreeTlb_windows w.mem F io id
    show PinningsKeyed ((ttIoctlFreeTlb w.mem F io id).mem.file F)
    rw [hm]
    exact h
  | allocateDmaBuf io i env =>
    simp only [MemWorld.start]
    rcases ttIoctlAllocateDmaBuf_cases c detached F io hok i env with
      (hm | ⟨_, u', _, _, _, hm⟩) | ⟨_, b, u', hall⟩
    · rw [hm]
      exact h
    · rw [hm]
      exact h
    · rw [hall.mem]
      exact h.of_pinnings (by simp [MemoryState.setFile])
  | freeDmaBufEx io i =>
    simp only [MemWorld.start]
    rcases ttIoctlFreeDmaBufEx_cases detached w.mem F io i with ⟨_, hm⟩ | ⟨_, b, _, _, _, hm⟩
    · rw [hm]
      exact h
    · rw [hm]
      exact h.of_pinnings (by simp [MemoryState.setFile, ttDmaBufDestroy, ttDmaAccountRelease])
  | map io i env =>
    simp only [MemWorld.start]
    rcases ttIoctlMap_cases c w.mem F io i env with hm | ⟨_, v, _, _, hm⟩
    · rw [hm]
      exact h
    · rw [hm]
      exact h.of_pinnings (by simp [MemoryState.setFile])
  | unmap io userVa reserved =>
    rcases start_unmap_cases c detached w F io userVa reserved with hw | ⟨v, l, _, hw⟩
    · rw [hw]
      exact h
    · rw [hw]
      exact h.of_pinnings (by simp [MemoryState.setFile])
  | pinPages io i env => exact h.pinPages hok io i env
  | unpinPages io i =>
    simp only [MemWorld.start]
    split
    · exact h
    · simp only [unpinSection]
      cases hfind : (w.mem.file F).pinnings.find? fun p => p.virtualAddress == i.virtualAddress with
      | none => exact h
      | some p =>
        dsimp only
        split
        · rename_i hsec
          split at hsec
          · exact h
          · cases hsec
        · rename_i hsec
          split at hsec
          · cases hsec
          · cases hsec
            rw [MemoryState.setFile_self]
            exact h.sublist List.eraseP_sublist

/-- Every step keeps the pinnings of every handle keyed. -/
theorem pinningsKeyed_next (hbooks : w.Books) (h : ∀ F, PinningsKeyed (w.mem.file F))
    {e : MemEvent} (hstep : w.next c detached e = some w') :
    ∀ F, PinningsKeyed (w'.mem.file F) := by
  intro G
  cases e with
  | create =>
    cases hstep
    exact h G
  | start F r =>
    obtain ⟨-, rfl⟩ := guard_of_eq_some hstep
    by_cases hG : G = F
    · subst hG
      exact (h G).start hbooks r
    · have hok : SlotsOk w.mem.iatu.slots := (Bookkeeping.apertures hbooks).ok
      rw [othersKept_start hok c detached F r G hG]
      exact h G
  | finish p =>
    obtain ⟨-, rfl⟩ := guard_of_eq_some hstep
    cases p with
    | unmap F v => exact h G
    | unpin F p => exact h G
    | allocateTlb F id ok => cases ok <;> exact h G

/-- In every run of the memory requests, of any handles and interleaved in any way,
`UNPIN_PAGES` is the inverse of `PIN_PAGES` on an address and a size exactly when no older
live pinning of the same handle shadows it. -/
theorem unpin_inverse_of_run {regs : Fin 16 → AtuRegs} {es : List MemEvent}
    (hrun : Run (partialGraph (MemWorld.next c detached)) (.started c regs) es w) (F : Handle)
    {io : Io} (hio : 24 ≤ io.input) (va size : ℕ) :
    UnpinInverse detached w.mem F io va size ↔ ¬Shadowed (w.mem.file F) va size := by
  have hinv : w.Books ∧ ∀ G, PinningsKeyed (w.mem.file G) := by
    refine @Run.invariant _ _ _ (fun w => w.Books ∧ ∀ G, PinningsKeyed (w.mem.file G)) _ _ _
      (fun s e t h hstep => ⟨h.1.next hstep, pinningsKeyed_next h.1 h.2 hstep⟩) ?_ hrun
    exact ⟨.started c regs, fun _ => .init⟩
  exact unpinInverse_iff (hinv.2 F) hio

end Runs

/-- A handle pins two pages, and then the first of them again. -/
def pinnedTwice : List MemEvent :=
  [.create,
   .start 0 (.pinPages ⟨24, 40⟩ ⟨16, 0, 0x10000, 8192⟩ ⟨true, true, some [5, 6]⟩),
   .start 0 (.pinPages ⟨24, 40⟩ ⟨16, 0, 0x10000, 4096⟩ ⟨true, true, some [5]⟩)]

/-- Both pinnings are live, the older one in front. -/
theorem run_pinnedTwice : ∃ w,
    Run (partialGraph (MemWorld.next blackholeConfig false)) (.started blackholeConfig fun _ _ => 0)
      pinnedTwice w ∧ (w.mem.file 0).pinnings =
        [⟨0x10000, 8192, some 5, none, none⟩, ⟨0x10000, 4096, some 5, none, none⟩] :=
  ⟨_, run_of_runList rfl, rfl⟩

/-- The older of the two pinnings can be unpinned. -/
theorem unpin_inverse_of_run_older : ∃ w,
    Run (partialGraph (MemWorld.next blackholeConfig false)) (.started blackholeConfig fun _ _ => 0)
      pinnedTwice w ∧ UnpinInverse false w.mem 0 ⟨24, 0⟩ 0x10000 8192 := by
  obtain ⟨w, hrun, hlist⟩ := run_pinnedTwice
  refine ⟨w, hrun, (unpin_inverse_of_run hrun 0 (by decide) 0x10000 8192).mpr ?_⟩
  rintro ⟨before, p, after, hsplit, hp, q, hq, -⟩
  rw [hlist] at hsplit
  -- the pinning of two pages is the head of the list
  match before, hsplit with
  | [], _ => cases hq
  | [_], hsplit =>
    simp only [List.cons_append, List.nil_append, List.cons.injEq] at hsplit
    rw [← hsplit.2.1] at hp
    exact absurd hp.2 (by decide)
  | _ :: _ :: _, hsplit => simp at hsplit

/-- The younger of the two pinnings is live, and `UNPIN_PAGES` refuses it. -/
theorem shadowed_refused : ∃ w,
    Run (partialGraph (MemWorld.next blackholeConfig false)) (.started blackholeConfig fun _ _ => 0)
      pinnedTwice w ∧
      (∃ p ∈ (w.mem.file 0).pinnings, p.Is 0x10000 4096) ∧
      (ttIoctlUnpinPages false w.mem 0 ⟨24, 0⟩ ⟨0x10000, 4096, 0⟩).status = .invalidParameter ∧
      ¬UnpinInverse false w.mem 0 ⟨24, 0⟩ 0x10000 4096 := by
  obtain ⟨w, hrun, hlist⟩ := run_pinnedTwice
  have hlive : ∃ p ∈ (w.mem.file 0).pinnings, p.Is 0x10000 4096 := by
    rw [hlist]
    exact ⟨_, List.mem_cons_of_mem _ (List.mem_cons_self ..), rfl, rfl⟩
  have hstatus : (ttIoctlUnpinPages false w.mem 0 ⟨24, 0⟩ ⟨0x10000, 4096, 0⟩).status =
      .invalidParameter := by
    simp [ttIoctlUnpinPages, unpinPagesCheck, ttCopyInBuffer, unpinSection, hlist, pageSize,
      Reply.fail]
  refine ⟨w, hrun, hlive, hstatus, fun hinverse => ?_⟩
  have hsuccess := hinverse.1.mpr hlive
  rw [hstatus] at hsuccess
  cases hsuccess

end TtKmd
