import TtKmd.Memory.Effects

/-!
# Tokens of the TLB windows

`ALLOCATE_TLB` returns two tokens for a window, one for each caching kind, and `MAP`
decodes a token back to a window. The encoder writes the windows of BAR 4 behind the
first 512 MiB; the decoder has a branch for either side and one bound on the id for
both. The two agree except where the branch of BAR 0 reaches ids of BAR 4.
-/

namespace TtKmd

/-- What the decoder reads off the encoded part of a token. -/
theorem decodeTlb_eq_some {encoded length bar barOffset id : ℕ} :
    decodeTlb encoded length = some (bar, barOffset, id) ↔
      (encoded < 2 ^ 29 ∧ encoded % 2 ^ 21 = 0 ∧ length ≤ 2 ^ 21 ∧
        bar = 0 ∧ barOffset = encoded ∧ id = encoded / 2 ^ 21) ∨
      (2 ^ 29 ≤ encoded ∧ (encoded - 2 ^ 29) % 2 ^ 32 = 0 ∧ length ≤ 2 ^ 32 ∧
        bar = 4 ∧ barOffset = encoded - 2 ^ 29 ∧ id = 202 + (encoded - 2 ^ 29) / 2 ^ 32) := by
  unfold decodeTlb kernelTlbLen tlb2mCount
  by_cases henc : encoded < 2 ^ 29
  · rw [if_pos henc]
    by_cases hbad : encoded % 2 ^ 21 ≠ 0 ∨ length > 2 ^ 21
    · rw [if_pos hbad]
      constructor
      · intro h
        cases h
      · omega
    · rw [if_neg hbad]
      simp only [Option.some.injEq, Prod.mk.injEq]
      omega
  · rw [if_neg henc]
    by_cases hbad : (encoded - 2 ^ 29) % 2 ^ 32 ≠ 0 ∨ length > 2 ^ 32
    · rw [if_pos hbad]
      constructor
      · intro h
        cases h
      · omega
    · rw [if_neg hbad]
      simp only [Option.some.injEq, Prod.mk.injEq]
      omega

/-- A token of the TLB regions goes to the TLB branch. -/
theorem ttResolveMapTarget_tlb {c : MemoryConfig} {m : MemoryState} {F : Handle}
    {mmapOffset length : ℕ} (hlo : 6 * 2 ^ 36 ≤ mmapOffset) (hhi : mmapOffset < 8 * 2 ^ 36) :
    ttResolveMapTarget c m F mmapOffset length = resolveTlb c m F mmapOffset length := by
  unfold ttResolveMapTarget mmapOffsetDmaBuf
  rw [if_neg (by omega), if_neg (by omega), if_pos hhi]

/-- The description of a window: BAR 0 has the small windows, BAR 4 the large ones. -/
theorem ttTlbDescribe_eq_some {c : MemoryConfig} {id bar barOffset size : ℕ} :
    ttTlbDescribe c id = some (bar, barOffset, size) ↔
      (id < 202 ∧ bar = 0 ∧ barOffset = id * 2 ^ 21 ∧ size = 2 ^ 21) ∨
      (202 ≤ id ∧ id < 202 + c.tlb4gCount ∧ bar = 4 ∧ barOffset = (id - 202) * 2 ^ 32 ∧
        size = 2 ^ 32) := by
  unfold ttTlbDescribe tlb2mCount kernelTlbLen
  by_cases hsmall : id < 202
  · rw [if_pos hsmall]
    simp only [Option.some.injEq, Prod.mk.injEq]
    omega
  · rw [if_neg hsmall]
    by_cases hlarge : id < 202 + c.tlb4gCount
    · rw [if_pos hlarge]
      simp only [Option.some.injEq, Prod.mk.injEq]
      omega
    · rw [if_neg hlarge]
      constructor
      · intro h
        cases h
      · omega

/-- The tokens of a small window. -/
theorem allocateTlbOut_small (c : MemoryConfig) {id : ℕ} (hid : id < 202) :
    allocateTlbOut c id = ⟨id, 6 * 2 ^ 36 + id * 2 ^ 21, 7 * 2 ^ 36 + id * 2 ^ 21⟩ := by
  unfold allocateTlbOut
  rw [ttTlbDescribe_eq_some.mpr (.inl ⟨hid, rfl, rfl, rfl⟩)]
  rfl

/-- The tokens of a large window. -/
theorem allocateTlbOut_large {c : MemoryConfig} {id : ℕ} (hge : 202 ≤ id)
    (hid : id < 202 + c.tlb4gCount) :
    allocateTlbOut c id =
      ⟨id, 6 * 2 ^ 36 + ((id - 202) * 2 ^ 32 + 2 ^ 29),
        7 * 2 ^ 36 + ((id - 202) * 2 ^ 32 + 2 ^ 29)⟩ := by
  unfold allocateTlbOut
  rw [ttTlbDescribe_eq_some.mpr (.inr ⟨hge, hid, rfl, rfl, rfl⟩)]
  rfl

/-- A token is the base of one of the two regions and its encoded part. -/
theorem token_eq {mmapOffset : ℕ} (hlo : 6 * 2 ^ 36 ≤ mmapOffset) :
    mmapOffset = 6 * 2 ^ 36 + tlbEncoded mmapOffset ∨
      mmapOffset = 7 * 2 ^ 36 + tlbEncoded mmapOffset := by
  unfold tlbEncoded
  by_cases hwc : mmapOffset ≥ 7 * 2 ^ 36
  · rw [if_pos hwc]
    omega
  · rw [if_neg hwc]
    omega

/-- The encoded part of an uncached token. -/
theorem tlbEncoded_uc {encoded : ℕ} (h : encoded < 2 ^ 36) :
    tlbEncoded (6 * 2 ^ 36 + encoded) = encoded := by
  unfold tlbEncoded
  rw [if_neg (by omega), Nat.add_sub_cancel_left]

/-- The encoded part of a write-combined token. -/
theorem tlbEncoded_wc (encoded : ℕ) : tlbEncoded (7 * 2 ^ 36 + encoded) = encoded := by
  unfold tlbEncoded
  rw [if_pos (by omega), Nat.add_sub_cancel_left]

/-- BAR 4 holds the windows it is credited with. -/
theorem MemoryConfig.tlb4gCount_fits (c : MemoryConfig) :
    c.tlb4gCount * 2 ^ 32 ≤ c.barLength 4 ∧ c.tlb4gCount ≤ 8 := by
  unfold MemoryConfig.tlb4gCount
  omega

/-- The resolved token is one of the two tokens of the window it resolves to, and the
resolved range lies inside that window. -/
def DecodesEncoded (c : MemoryConfig) (m : MemoryState) (F : Handle)
    (mmapOffset length : ℕ) : Prop :=
  ∀ target id, ttResolveMapTarget c m F mmapOffset length = .ok target → target.tlbId = some id →
    ∃ bar barOffset size, ttTlbDescribe c id = some (bar, barOffset, size) ∧
      (mmapOffset = (allocateTlbOut c id).mmapOffsetUc ∨
        mmapOffset = (allocateTlbOut c id).mmapOffsetWc) ∧
      c.barBase bar + barOffset ≤ target.physical ∧
      target.physical + length ≤ c.barBase bar + barOffset + size

/-- A token of the BAR 0 half whose quotient is the id of a large window of the caller. -/
def GapToken (m : MemoryState) (F : Handle) (mmapOffset length : ℕ) : Prop :=
  let encoded := tlbEncoded mmapOffset
  encoded % 2 ^ 21 = 0 ∧ 202 ≤ encoded / 2 ^ 21 ∧ encoded / 2 ^ 21 < 210 ∧ length ≤ 2 ^ 21 ∧
    m.tlbUsed (encoded / 2 ^ 21) = true ∧ m.tlbOwner (encoded / 2 ^ 21) = some F

/-- A token of the BAR 4 half for a window that BAR 4 does not hold whole. No such
window is ever claimed. -/
def CutToken (c : MemoryConfig) (m : MemoryState) (F : Handle) (mmapOffset length : ℕ) : Prop :=
  let encoded := tlbEncoded mmapOffset
  let index := (encoded - 2 ^ 29) / 2 ^ 32
  2 ^ 29 ≤ encoded ∧ (encoded - 2 ^ 29) % 2 ^ 32 = 0 ∧ c.tlb4gCount ≤ index ∧ index < 8 ∧
    length ≤ 2 ^ 32 ∧ c.barLength 4 ≠ 0 ∧ encoded - 2 ^ 29 + length ≤ c.barLength 4 ∧
    m.tlbUsed (202 + index) = true ∧ m.tlbOwner (202 + index) = some F

/-- A token of the BAR 0 half that names a small window is a token of that window. -/
theorem small_token {mmapOffset id : ℕ} (c : MemoryConfig) (hlo : 6 * 2 ^ 36 ≤ mmapOffset)
    (hencoded : tlbEncoded mmapOffset = id * 2 ^ 21) (hid : id < 202) :
    mmapOffset = (allocateTlbOut c id).mmapOffsetUc ∨
      mmapOffset = (allocateTlbOut c id).mmapOffsetWc := by
  rw [allocateTlbOut_small c hid, ← hencoded]
  exact token_eq hlo

/-- A token of the BAR 4 half that names a described window is a token of that window. -/
theorem large_token {c : MemoryConfig} {mmapOffset id : ℕ} (hlo : 6 * 2 ^ 36 ≤ mmapOffset)
    (hencoded : tlbEncoded mmapOffset = (id - 202) * 2 ^ 32 + 2 ^ 29) (hge : 202 ≤ id)
    (hid : id < 202 + c.tlb4gCount) :
    mmapOffset = (allocateTlbOut c id).mmapOffsetUc ∨
      mmapOffset = (allocateTlbOut c id).mmapOffsetWc := by
  rw [allocateTlbOut_large hge hid, ← hencoded]
  exact token_eq hlo

/-- Outside the two kinds of tokens, a resolved token decodes to what it encodes. -/
theorem decodesEncoded_of_not {c : MemoryConfig} {m : MemoryState} {F : Handle}
    {mmapOffset length : ℕ} (hlo : 6 * 2 ^ 36 ≤ mmapOffset) (hhi : mmapOffset < 8 * 2 ^ 36)
    (hgap : ¬ GapToken m F mmapOffset length) (hcut : ¬ CutToken c m F mmapOffset length) :
    DecodesEncoded c m F mmapOffset length := by
  intro target id hok htlb
  rw [ttResolveMapTarget_tlb hlo hhi, resolveTlb_eq_ok] at hok
  obtain ⟨bar, barOffset, id', hdecode, hid, hlen, hfit, hused, howner, rfl⟩ := hok
  obtain rfl : id' = id := Option.some.inj htlb
  have htotal : id' < 210 := hid
  rcases decodeTlb_eq_some.mp hdecode with
    ⟨henc, haligned, hlength, hb, ho, hi⟩ | ⟨henc, haligned, hlength, hb, ho, hi⟩
  · subst hb ho
    -- The id is below 202, since the gap is excluded.
    have hsmall : id' < 202 := by
      by_contra hge
      subst hi
      exact hgap ⟨haligned, by omega, htotal, hlength, hused, howner⟩
    refine ⟨0, id' * 2 ^ 21, 2 ^ 21, ttTlbDescribe_eq_some.mpr (.inl ⟨hsmall, rfl, rfl, rfl⟩),
      small_token c hlo (by omega) hsmall, ?_, ?_⟩
    · dsimp only
      omega
    · dsimp only
      omega
  · subst hb
    have hcount : id' < 202 + c.tlb4gCount := by
      by_contra hge
      rw [hi] at hused howner
      exact hcut ⟨henc, haligned, by omega, by omega, hlength, hlen, by omega, hused, howner⟩
    have hge : 202 ≤ id' := by omega
    refine ⟨4, (id' - 202) * 2 ^ 32, 2 ^ 32,
      ttTlbDescribe_eq_some.mpr (.inr ⟨hge, hcount, rfl, rfl, rfl⟩),
      large_token hlo (by omega) hge hcount, ?_, ?_⟩
    · dsimp only
      omega
    · dsimp only
      omega

/-- A gap token resolves to a window of BAR 4 at an offset of BAR 0. -/
theorem GapToken.not_decodesEncoded {c : MemoryConfig} {m : MemoryState} {F : Handle}
    {mmapOffset length : ℕ} (hlo : 6 * 2 ^ 36 ≤ mmapOffset) (hhi : mmapOffset < 8 * 2 ^ 36)
    (hbar : 2 ^ 29 ≤ c.barLength 0) (h : GapToken m F mmapOffset length) :
    ¬ DecodesEncoded c m F mmapOffset length := by
  obtain ⟨haligned, hge, hlt, hlength, hused, howner⟩ := h
  intro hdec
  have hok : ttResolveMapTarget c m F mmapOffset length =
      .ok ⟨c.barBase 0 + tlbEncoded mmapOffset, tlbCaching mmapOffset,
        some (tlbEncoded mmapOffset / 2 ^ 21), none⟩ := by
    rw [ttResolveMapTarget_tlb hlo hhi, resolveTlb_eq_ok]
    exact ⟨0, _, _, decodeTlb_eq_some.mpr (.inl ⟨by omega, haligned, hlength, rfl, rfl, rfl⟩),
      hlt, by omega, by omega, hused, howner, rfl⟩
  obtain ⟨bar, barOffset, size, hd, htoken, -, -⟩ := hdec _ _ hok rfl
  have hfits := c.tlb4gCount_fits
  rcases ttTlbDescribe_eq_some.mp hd with ⟨hsmall, -⟩ | ⟨-, hcount, -⟩
  · omega
  · -- The encoded part of a large window is at or above 512 MiB.
    rw [allocateTlbOut_large hge hcount] at htoken
    dsimp only at htoken
    have hequal := token_eq hlo
    omega

/-- A token of a window cut off by the end of BAR 4 resolves to an id without a
description. -/
theorem CutToken.not_decodesEncoded {c : MemoryConfig} {m : MemoryState} {F : Handle}
    {mmapOffset length : ℕ} (hlo : 6 * 2 ^ 36 ≤ mmapOffset) (hhi : mmapOffset < 8 * 2 ^ 36)
    (h : CutToken c m F mmapOffset length) : ¬ DecodesEncoded c m F mmapOffset length := by
  obtain ⟨hhalf, haligned, hcount, hindex, hlength, hbar, hfit, hused, howner⟩ := h
  intro hdec
  have hok : ttResolveMapTarget c m F mmapOffset length =
      .ok ⟨c.barBase 4 + (tlbEncoded mmapOffset - 2 ^ 29), tlbCaching mmapOffset,
        some (202 + (tlbEncoded mmapOffset - 2 ^ 29) / 2 ^ 32), none⟩ := by
    rw [ttResolveMapTarget_tlb hlo hhi, resolveTlb_eq_ok]
    refine ⟨4, _, _, decodeTlb_eq_some.mpr (.inr ⟨hhalf, haligned, hlength, rfl, rfl, rfl⟩),
      ?_, hbar, hfit, hused, howner, rfl⟩
    show 202 + (tlbEncoded mmapOffset - 2 ^ 29) / 2 ^ 32 < 210
    omega
  obtain ⟨bar, barOffset, size, hd, -, -, -⟩ := hdec _ _ hok rfl
  rcases ttTlbDescribe_eq_some.mp hd with ⟨hsmall, -⟩ | ⟨-, hbound, -⟩
  · omega
  · omega

/-- A token of a described window the handle holds resolves to it, for every length
up to its size. -/
theorem own_token_resolves {c : MemoryConfig} {m : MemoryState} {F : Handle}
    {id bar barOffset size length : ℕ} (hbar : 2 ^ 29 ≤ c.barLength 0)
    (hd : ttTlbDescribe c id = some (bar, barOffset, size)) (hused : m.tlbUsed id = true)
    (howner : m.tlbOwner id = some F) (hlength : length ≤ size) :
    ttResolveMapTarget c m F (allocateTlbOut c id).mmapOffsetUc length =
        .ok ⟨c.barBase bar + barOffset, .nonCached, some id, none⟩ ∧
      ttResolveMapTarget c m F (allocateTlbOut c id).mmapOffsetWc length =
        .ok ⟨c.barBase bar + barOffset, .writeCombined, some id, none⟩ := by
  have hfit := c.tlb4gCount_fits
  obtain ⟨encoded, hout, hencoded, hdecode⟩ : ∃ encoded,
      allocateTlbOut c id = ⟨id, 6 * 2 ^ 36 + encoded, 7 * 2 ^ 36 + encoded⟩ ∧
        encoded < 2 ^ 36 ∧ decodeTlb encoded length = some (bar, barOffset, id) := by
    rcases ttTlbDescribe_eq_some.mp hd with ⟨hid, hb, ho, hs⟩ | ⟨hge, hid, hb, ho, hs⟩
    · refine ⟨id * 2 ^ 21, allocateTlbOut_small c hid, by omega, ?_⟩
      exact decodeTlb_eq_some.mpr (.inl (by omega))
    · refine ⟨(id - 202) * 2 ^ 32 + 2 ^ 29, allocateTlbOut_large hge hid, by omega, ?_⟩
      exact decodeTlb_eq_some.mpr (.inr (by omega))
  have hroom : id < tlbTotal ∧ c.barLength bar ≠ 0 ∧ barOffset + length ≤ c.barLength bar := by
    unfold tlbTotal tlb2mCount
    rcases ttTlbDescribe_eq_some.mp hd with ⟨hid, hb, ho, hs⟩ | ⟨hge, hid, hb, ho, hs⟩
    · subst hb
      omega
    · subst hb
      omega
  rw [hout]
  dsimp only
  constructor
  · rw [ttResolveMapTarget_tlb (by omega) (by omega), resolveTlb_eq_ok, tlbEncoded_uc hencoded]
    refine ⟨bar, barOffset, id, hdecode, hroom.1, hroom.2.1, hroom.2.2, hused, howner, ?_⟩
    unfold tlbCaching
    rw [if_neg (by omega)]
  · rw [ttResolveMapTarget_tlb (by omega) (by omega), resolveTlb_eq_ok, tlbEncoded_wc]
    refine ⟨bar, barOffset, id, hdecode, hroom.1, hroom.2.1, hroom.2.2, hused, howner, ?_⟩
    unfold tlbCaching
    rw [if_pos (by omega)]

/-- The window `ALLOCATE_TLB` returns is described with the size asked for, and the
handle holds it. -/
theorem ttIoctlAllocateTlb_success {c : MemoryConfig} {m m' : MemoryState} {F : Handle} {io : Io}
    {size : ℕ} {out : AllocateTlbOut}
    (h : ttIoctlAllocateTlb c m F io size = ⟨.success, some out, m'⟩) :
    (∃ bar barOffset, ttTlbDescribe c out.id = some (bar, barOffset, size)) ∧
      out = allocateTlbOut c out.id ∧ m'.tlbUsed out.id = true ∧ m'.tlbOwner out.id = some F := by
  rcases ttIoctlAllocateTlb_cases c m F io size with
    ⟨_, _, hreply⟩ | ⟨pool, hcheck, ⟨_, hreply⟩ | ⟨id, hid, _, _, hreply⟩⟩
  · rw [hreply] at h
    cases h
  · rw [hreply] at h
    cases h
  · rw [hreply] at h
    split at h
    swap
    · cases h
    cases h
    refine ⟨?_, rfl, Function.update_self .., Function.update_self ..⟩
    have hpool := (allocateTlbCheck_eq_ok.mp hcheck).2.2
    show ∃ bar barOffset, ttTlbDescribe c id = some (bar, barOffset, size)
    unfold tlbPool at hpool
    split_ifs at hpool with hsmall hlarge
    · cases hpool
      exact ⟨0, id * 2 ^ 21, ttTlbDescribe_eq_some.mpr
        (.inl ⟨by simpa [tlb2mCount] using hid, rfl, rfl, hsmall⟩)⟩
    · cases hpool
      exact ⟨4, (id - 202) * 2 ^ 32, ttTlbDescribe_eq_some.mpr
        (.inr ⟨hid.1, hid.2, rfl, rfl, hlarge⟩)⟩

/-- A TLB token decodes to what it encodes, except where the BAR 0 half of the
decoder meets the ids of BAR 4; a token that `ALLOCATE_TLB` returned decodes to its
window as long as the handle holds it. -/
theorem tlb_tokens_decode {c : MemoryConfig} {m : MemoryState} {F : Handle}
    {mmapOffset length : ℕ} (hlo : 6 * 2 ^ 36 ≤ mmapOffset) (hhi : mmapOffset < 8 * 2 ^ 36)
    (hbar : 2 ^ 29 ≤ c.barLength 0) :
    (DecodesEncoded c m F mmapOffset length ↔
      ¬ GapToken m F mmapOffset length ∧ ¬ CutToken c m F mmapOffset length) ∧
    ∀ io size out m', ttIoctlAllocateTlb c m F io size = ⟨.success, some out, m'⟩ →
      ∃ bar barOffset, ttTlbDescribe c out.id = some (bar, barOffset, size) ∧
        m'.tlbUsed out.id = true ∧ m'.tlbOwner out.id = some F ∧
        ∀ later : MemoryState, later.tlbUsed out.id = true → later.tlbOwner out.id = some F →
          ∀ length ≤ size,
            ttResolveMapTarget c later F out.mmapOffsetUc length =
                .ok ⟨c.barBase bar + barOffset, .nonCached, some out.id, none⟩ ∧
              ttResolveMapTarget c later F out.mmapOffsetWc length =
                .ok ⟨c.barBase bar + barOffset, .writeCombined, some out.id, none⟩ := by
  constructor
  · constructor
    · intro hdec
      exact ⟨fun hgap => hgap.not_decodesEncoded hlo hhi hbar hdec,
        fun hcut => hcut.not_decodesEncoded hlo hhi hdec⟩
    · rintro ⟨hgap, hcut⟩
      exact decodesEncoded_of_not hlo hhi hgap hcut
  · intro io size out m' hreply
    obtain ⟨⟨bar, barOffset, hd⟩, hout, hused, howner⟩ := ttIoctlAllocateTlb_success hreply
    refine ⟨bar, barOffset, hd, hused, howner, ?_⟩
    intro later hused' howner' length hlength
    rw [hout]
    exact own_token_resolves hbar hd hused' howner' hlength

/-- A Blackhole whose BAR 4 holds all eight large windows, its BARs side by side. -/
def wideBlackhole : MemoryConfig :=
  { blackholeConfig with
    barLength := fun bar => if bar = 0 then 2 ^ 29 else if bar = 4 then 2 ^ 35 else 0
    barBase := fun bar => if bar = 4 then 2 ^ 40 else 2 ^ 39 }

/-- The memory of the wide Blackhole after the first handle has claimed the first
large window. -/
def largeWindowHeld : MemoryState :=
  (ttIoctlAllocateTlb wideBlackhole (.started wideBlackhole fun _ _ => 0) 0 ⟨16, 48⟩
    (2 ^ 32)).mem

/-- The uncached token of the claimed window resolves to it. -/
theorem tlb_tokens_decode_largeWindow :
    DecodesEncoded wideBlackhole largeWindowHeld 0 (6 * 2 ^ 36 + 2 ^ 29) 4096 :=
  (tlb_tokens_decode (by decide) (by decide) (by decide)).1.mpr
    ⟨by unfold GapToken; decide, by unfold CutToken; decide⟩

/-- The byte offset of the first 2 MiB behind the small windows of BAR 0 resolves to
the first window of BAR 4. -/
theorem gap_token_misdecodes :
    ttIoctlAllocateTlb wideBlackhole (.started wideBlackhole fun _ _ => 0) 0 ⟨16, 48⟩ (2 ^ 32) =
        ⟨.success, some (allocateTlbOut wideBlackhole 202), largeWindowHeld⟩ ∧
      ¬ DecodesEncoded wideBlackhole largeWindowHeld 0 (6 * 2 ^ 36 + 202 * 2 ^ 21) 4096 := by
  refine ⟨rfl, ?_⟩
  have hgap : GapToken largeWindowHeld 0 (6 * 2 ^ 36 + 202 * 2 ^ 21) 4096 := by
    unfold GapToken
    decide
  exact hgap.not_decodesEncoded (by decide) (by decide) (by decide)

end TtKmd
