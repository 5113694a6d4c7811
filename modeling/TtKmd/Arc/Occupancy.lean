import TtKmd.Arc.Queue
import Mathlib.Data.Nat.Prime.Basic
import Mathlib.Data.Nat.Prime.Pow

/-!
# When the ring occupancy is exact

The driver computes the occupancy of a ring as a 32-bit difference of two pointers
that run modulo `2 * NumEntries`. The difference is right for every pair of
pointers only when `2 * NumEntries` divides `2 ^ 32`. Of the queue sizes from 1
to 255 that `TtBhSendArcMessage` accepts these are the powers of two, and for
every other size a start state exists in which a push misjudges the ring.
-/

namespace TtKmd

open Lib

/-- Before the first call: no access is under way, and the pointers of each ring
describe at most `NumEntries` outstanding messages. -/
structure ArcQueue.Start (q : ArcQueue) (s : ArcState) : Prop where
  /-- The driver is outside both functions. -/
  driver : ∃ r, s.driver = .returned r
  /-- The firmware is not reading. -/
  reader : s.reader = none
  /-- The firmware is not writing. -/
  writer : s.writer = none
  /-- The request ring. -/
  req : (q.reqRing s).Start q.numEntries
  /-- The response ring. -/
  res : (q.resRing s).Start q.numEntries

/-- The driver sees both rings as they are, and both histories agree. -/
structure ExactAt (q : ArcQueue) (s : ArcState) : Prop where
  /-- A push sees space exactly when fewer than `NumEntries` requests are unread. -/
  space : ∀ msg wptr, s.driver = .pushPoll msg wptr →
    (pushHasSpace q.numEntries wptr (q.reqRing s).rptr = true ↔
      (q.reqRing s).unread < q.numEntries)
  /-- A pop sees a response exactly when one is unread. -/
  response : ∀ rptr, s.driver = .popPoll rptr →
    (popHasResponse q.numEntries (q.resRing s).wptr rptr = true ↔ 0 < (q.resRing s).unread)
  /-- A push writes to none of the entries the firmware has not consumed. -/
  noOverwrite : ∀ msg wptr i, s.driver = .pushWrite msg wptr i → ∀ j < (q.reqRing s).unread,
    ((q.reqRing s).rptr + j) % q.numEntries ≠ wptr % q.numEntries
  /-- The unread requests and responses are in memory as they were written. -/
  intact : (∀ j < (q.reqRing s).unread, s.pushed[s.taken.length + j]? =
      some ((q.reqRing s).cell (((q.reqRing s).rptr + j) % q.numEntries))) ∧
    ∀ j < (q.resRing s).unread, s.written[s.popped.length + j]? =
      some ((q.resRing s).cell (((q.resRing s).rptr + j) % q.numEntries))
  /-- The firmware reads the requests the driver wrote, in order. -/
  requests : s.taken <+: s.pushed
  /-- The driver reads the responses the firmware wrote, in order. -/
  responses : s.popped <+: s.written

/-- The occupancy is exact in every state of every run on a queue of `n` entries. -/
def Exact (n : ℕ) : Prop :=
  ∀ (q : ArcQueue) (s t : ArcState) (es : List ArcEvent), q.numEntries = n → q.InCsm → q.Start s →
    Run (ArcStep q) s es t → ExactAt q t

/-- A start state satisfies the invariant. -/
theorem ArcQueue.Start.inv {q : ArcQueue} {s : ArcState} (hs : q.Start s) : ArcInv q s := by
  obtain ⟨r, hr⟩ := hs.driver
  refine ⟨hs.req.ok, hs.res.ok, ?_, ?_, ?_⟩
  · rw [hr]
    trivial
  · simp [hs.reader]
  · simp [hs.writer]

/-- Where `2 * n` divides `2 ^ 32` the 32-bit difference counts the unread messages. -/
theorem u32Sub_eq_unread {n : ℕ} {R : Lib.Ring 8 ℕ} (hok : R.Ok n) (hdvd : 2 * n ∣ 2 ^ 32) :
    u32Sub R.wptr R.rptr % (2 * n) = R.unread :=
  hok.wrapped_sub hdvd (Nat.two_pow_pos 32)

/-- Where `2 * NumEntries` divides `2 ^ 32` the invariant makes the driver exact. -/
theorem ArcInv.exactAt {q : ArcQueue} {s : ArcState} (hinv : ArcInv q s)
    (hdvd : 2 * q.numEntries ∣ 2 ^ 32) : ExactAt q s := by
  have hdrv := RingsInv.driver hinv
  refine ⟨?_, ?_, ?_, ⟨(RingsInv.req hinv).intact, (RingsInv.res hinv).intact⟩,
    (RingsInv.req hinv).taken, (RingsInv.res hinv).taken⟩
  · intro msg wptr h
    rw [h] at hdrv
    obtain rfl : wptr = _ := hdrv
    unfold pushHasSpace
    rw [u32Sub_eq_unread (RingsInv.req hinv) hdvd, decide_eq_true_iff]
  · intro rptr h
    rw [h] at hdrv
    obtain rfl : rptr = _ := hdrv
    unfold popHasResponse
    rw [u32Sub_eq_unread (RingsInv.res hinv) hdvd, decide_eq_true_iff]
  · intro msg wptr i h j hj
    rw [h] at hdrv
    obtain ⟨rfl, _, hw⟩ := hdrv
    exact (RingsInv.req hinv).cell_ne hw.free hj

/-- An exact driver's tests are sound. -/
theorem ExactAt.sound {q : ArcQueue} {s : ArcState} (h : ExactAt q s) : TestsSound q s :=
  ⟨fun msg wptr hpc => (h.space msg wptr hpc).mp, fun rptr hpc => (h.response rptr hpc).mp⟩

/-- Queue sizes for which `2 * n` divides `2 ^ 32` are exact. -/
theorem exact_of_dvd {n : ℕ} (hdvd : 2 * n ∣ 2 ^ 32) : Exact n := by
  intro q s t es hn hq hs hrun
  subst hn
  have hinv : ArcInv q t := by
    refine hrun.invariant ?_ hs.inv
    intro s e t hinv hstep
    exact hinv.step hq (hinv.exactAt hdvd).sound hstep
  exact hinv.exactAt hdvd

/-- Memory with an empty response ring and the request pointers `0` and `rptr`. -/
def ArcQueue.wrapped (q : ArcQueue) (rptr : ℕ) : ArcState where
  mem := Function.update (fun _ => 0) (q.base + reqRptr) rptr
  driver := .returned .failed
  reader := none
  writer := none
  pushed := List.replicate ((2 * q.numEntries - rptr) % (2 * q.numEntries)) fun _ => 0
  taken := []
  written := []
  popped := []

/-- Every word of that memory but one is zero. -/
theorem ArcQueue.wrapped_mem (q : ArcQueue) (rptr : ℕ) {a : ℕ} (ha : a ≠ q.base + reqRptr) :
    (q.wrapped rptr).mem a = 0 := by
  simp only [ArcQueue.wrapped, Function.update_of_ne ha]

/-- The header words of that memory. -/
theorem ArcQueue.wrapped_header (q : ArcQueue) (rptr : ℕ) :
    (q.reqRing (q.wrapped rptr)).wptr = 0 ∧ (q.reqRing (q.wrapped rptr)).rptr = rptr ∧
      (q.resRing (q.wrapped rptr)).wptr = 0 ∧ (q.resRing (q.wrapped rptr)).rptr = 0 := by
  refine ⟨q.wrapped_mem rptr ?_, ?_, q.wrapped_mem rptr ?_, q.wrapped_mem rptr ?_⟩
  · simp only [ArcQueue.req, reqWptr, reqRptr]
    omega
  · simp only [ArcQueue.reqRing, RingLayout.view, ArcQueue.wrapped, ArcQueue.req]
    exact Function.update_self _ _ _
  · simp only [ArcQueue.res, resWptr, reqRptr]
    omega
  · simp only [ArcQueue.res, resRptr, reqRptr]
    omega

/-- Its entries are zero. -/
theorem ArcQueue.wrapped_cell (q : ArcQueue) (rptr i : ℕ) :
    (q.reqRing (q.wrapped rptr)).cell i = fun _ => 0 := by
  funext j
  simp only [ArcQueue.reqRing, RingLayout.view]
  split
  · apply q.wrapped_mem rptr
    simp only [RingLayout.addr, ArcQueue.req, reqRptr, entrySize]
    omega
  · rfl

/-- It is a start state whenever it has at most `NumEntries` outstanding requests. -/
theorem ArcQueue.wrapped_start {q : ArcQueue} {rptr : ℕ} (hpos : 0 < q.numEntries)
    (hlo : q.numEntries ≤ rptr) (hhi : rptr < 2 * q.numEntries) : q.Start (q.wrapped rptr) := by
  obtain ⟨h₁, h₂, h₃, h₄⟩ := q.wrapped_header rptr
  have hmod : (2 * q.numEntries - rptr) % (2 * q.numEntries) = 2 * q.numEntries - rptr :=
    Nat.mod_eq_of_lt (by omega)
  refine ⟨⟨_, rfl⟩, rfl, rfl, ⟨by omega, by omega, ?_, ?_, rfl⟩, ⟨by omega, by omega, ?_, ?_, rfl⟩⟩
  · rw [h₁, h₂, Nat.zero_add, hmod]
    omega
  · rw [h₁, h₂, Nat.zero_add]
    simp only [q.wrapped_cell rptr]
    rw [List.map_const', List.length_range]
    rfl
  · rw [h₃, h₄]
    simp
  · rw [h₃, h₄]
    simp [ArcQueue.wrapped, ArcQueue.resRing, RingLayout.view]

/-- A push that starts in this state comes to ask for space. -/
theorem ArcQueue.wrapped_run {q : ArcQueue} (hq : q.InCsm) (rptr : ℕ) (msg : ArcMsg) :
    Run (ArcStep q) (q.wrapped rptr) [.startPush msg, .driver false]
      ((q.wrapped rptr).goto (.pushPoll msg 0)) := by
  refine .cons (t := (q.wrapped rptr).goto (.pushStart msg)) rfl (.cons ?_ (.nil _))
  have hoff : reqWptr + 4 ≤ entrySize := by decide
  have hread := hq.read_header (q.wrapped rptr).mem hoff
  have hzero : (q.wrapped rptr).mem (q.base + reqWptr) = 0 := (q.wrapped_header rptr).1
  have hne : ¬(0 = maxUlong) := by decide
  simp only [ArcStep, partialGraph, arcNext, driverStep, ArcState.goto, hread, hzero, hne, if_false]

/-- The 32-bit difference with a pointer that has wrapped is off by `2 ^ 32 % (2 * n)`. -/
theorem u32Sub_zero_mod {n rptr : ℕ} (hpos : 0 < n) (hsmall : n ≤ 255) (hlo : n ≤ rptr)
    (hhi : rptr < 2 * n) :
    u32Sub 0 rptr % (2 * n) = (2 ^ 32 % (2 * n) + (2 * n - rptr)) % (2 * n) := by
  have hdiv := Nat.div_add_mod (2 ^ 32) (2 * n)
  obtain ⟨d, hd⟩ : ∃ d, 2 ^ 32 / (2 * n) = d + 1 :=
    ⟨2 ^ 32 / (2 * n) - 1, (Nat.sub_add_cancel (Nat.div_pos (by omega) (by omega))).symm⟩
  rw [hd, Nat.mul_add, Nat.mul_one] at hdiv
  have hsub : u32Sub 0 rptr = 2 ^ 32 % (2 * n) + (2 * n - rptr) + 2 * n * d := by
    unfold u32Sub
    rw [Nat.mod_eq_of_lt (by omega)]
    omega
  rw [hsub, Nat.add_mul_mod_self_left]

/-- For a queue size that is exact, `2 * n` divides `2 ^ 32`. -/
theorem dvd_of_exact {n : ℕ} (hpos : 0 < n) (hsmall : n ≤ 255) (hexact : Exact n) :
    2 * n ∣ 2 ^ 32 := by
  by_contra hdvd
  have hcpos : 0 < 2 ^ 32 % (2 * n) :=
    Nat.pos_of_ne_zero fun h => hdvd (Nat.dvd_of_mod_eq_zero h)
  have hclt : 2 ^ 32 % (2 * n) < 2 * n := Nat.mod_lt _ (by omega)
  have hq : (⟨csmBase, n⟩ : ArcQueue).InCsm := by
    refine ⟨le_rfl, ?_, hpos⟩
    simp only [csmSize, entrySize]
    omega
  -- what the driver would have to compute with the request pointers `0` and `rptr`
  have hspace : ∀ rptr, n ≤ rptr → rptr < 2 * n →
      ((2 ^ 32 % (2 * n) + (2 * n - rptr)) % (2 * n) < n ↔ 2 * n - rptr < n) := by
    intro rptr hlo hhi
    have hat := hexact ⟨csmBase, n⟩ _ _ _ rfl hq (ArcQueue.wrapped_start hpos hlo hhi)
      (ArcQueue.wrapped_run hq rptr fun _ => 0)
    have hs := hat.space _ _ rfl
    have hrptr := ((⟨csmBase, n⟩ : ArcQueue).wrapped_header rptr).2.1
    have hunread : ((⟨csmBase, n⟩ : ArcQueue).reqRing
        (((⟨csmBase, n⟩ : ArcQueue).wrapped rptr).goto (.pushPoll (fun _ => 0) 0))).unread =
          2 * n - rptr := by
      simp only [ArcQueue.reqRing, RingLayout.view, Lib.Ring.unread, ArcState.goto,
        ArcQueue.wrapped, List.length_replicate, List.length_nil, Nat.sub_zero]
      exact Nat.mod_eq_of_lt (by omega)
    rw [hunread] at hs
    simp only [ArcQueue.reqRing, ArcState.goto] at hs hrptr
    rw [hrptr] at hs
    simp only [pushHasSpace, u32Sub_zero_mod hpos hsmall hlo hhi, decide_eq_true_eq] at hs
    exact hs
  rcases Nat.lt_or_ge (2 ^ 32 % (2 * n)) n with hc | hc
  · -- with `n - c` requests unread the driver sees a full ring
    have h := hspace (n + 2 ^ 32 % (2 * n)) (by omega) (by omega)
    have hmod : (2 ^ 32 % (2 * n) + (2 * n - (n + 2 ^ 32 % (2 * n)))) % (2 * n) = n := by
      rw [show 2 ^ 32 % (2 * n) + (2 * n - (n + 2 ^ 32 % (2 * n))) = n by omega]
      exact Nat.mod_eq_of_lt (by omega)
    rw [hmod] at h
    omega
  · -- with a full ring the driver sees space
    have h := hspace n le_rfl (by omega)
    have hmod : (2 ^ 32 % (2 * n) + (2 * n - n)) % (2 * n) = 2 ^ 32 % (2 * n) - n := by
      rw [show 2 ^ 32 % (2 * n) + (2 * n - n) = 2 ^ 32 % (2 * n) - n + 2 * n by omega,
        Nat.add_mod_right]
      exact Nat.mod_eq_of_lt (by omega)
    rw [hmod] at h
    omega

/-- For the sizes below 256, `2 * n` divides `2 ^ 32` exactly when `n` is a power of two. -/
theorem two_mul_dvd_iff {n : ℕ} (hsmall : n ≤ 255) : 2 * n ∣ 2 ^ 32 ↔ ∃ k, n = 2 ^ k := by
  constructor
  · intro h
    obtain ⟨k, _, hk⟩ :=
      (Nat.dvd_prime_pow Nat.prime_two).mp (Dvd.dvd.trans ⟨2, Nat.mul_comm 2 n⟩ h)
    exact ⟨k, hk⟩
  · rintro ⟨k, rfl⟩
    have hk : k < 8 := (Nat.pow_lt_pow_iff_right (a := 2) (by omega)).mp (by omega)
    rw [← Nat.pow_succ']
    exact Nat.pow_dvd_pow 2 (by omega)

/-- For every queue the driver discovers, the occupancy of both rings is exact in
every state of every run if and only if the number of entries is a power of two. -/
theorem exact_iff_two_pow {queueBase queueInfo : ℕ} {q : ArcQueue}
    (h : discoverQueue queueBase queueInfo = some q) :
    Exact q.numEntries ↔ ∃ k, q.numEntries = 2 ^ k := by
  have hand : queueInfo &&& 0xFF ≤ 255 := Nat.and_le_right
  simp only [discoverQueue] at h
  split at h
  · cases h
  · rename_i hne
    cases h
    rw [← two_mul_dvd_iff hand]
    exact ⟨dvd_of_exact (Nat.pos_of_ne_zero hne) hand, exact_of_dvd⟩

/-- The theorem above at a control block with three entries. -/
theorem exact_iff_two_pow_three :
    discoverQueue csmBase 0x103 = some ⟨csmBase, 3⟩ ∧ (Exact 3 ↔ ∃ k, 3 = 2 ^ k) :=
  have hfound : discoverQueue csmBase 0x103 = some ⟨csmBase, 3⟩ := rfl
  ⟨hfound, exact_iff_two_pow hfound⟩

/-- A queue of three entries is accepted. With the request pointers `0` and `3` its
ring is full, and a push that starts there sees space: `(2 ^ 32 - 3) % 6 = 1`. -/
theorem three_entries_not_exact :
    let q : ArcQueue := ⟨csmBase, 3⟩
    let t := (q.wrapped 3).goto (.pushPoll (fun _ => 7) 0)
    discoverQueue csmBase 3 = some q ∧ q.InCsm ∧ q.Start (q.wrapped 3) ∧
      Run (ArcStep q) (q.wrapped 3) [.startPush fun _ => 7, .driver false] t ∧ ¬ExactAt q t := by
  have hq : (⟨csmBase, 3⟩ : ArcQueue).InCsm := ⟨le_rfl, by decide, by decide⟩
  refine ⟨rfl, hq, ArcQueue.wrapped_start (by decide) (by decide) (by decide),
    ArcQueue.wrapped_run hq 3 _, ?_⟩
  intro hat
  have hfull := (hat.space _ _ rfl).mp (by decide)
  revert hfull
  decide

end TtKmd
