import TtKmd.Shim.Passthrough

/-!
# Control codes

Every request of a handle comes with a control code of 32 bits that the caller chooses freely.
`TtEvtIoInCallerContext` compares it with four codes; whatever it does not know goes to
`TtEvtIoDeviceControl`, which extracts a number, takes the reset resource by it, passes the gates
with it, compares the code with a few more and switches over the number. The two callbacks do not
agree on what a code is: one looks at all of it, the other one ignores the bits of the access.

This file says for every code which handler it reaches, and under which number it has passed the
gates.
-/

namespace TtKmd

/-! ## Codes -/

/-- `CTL_CODE`. -/
def ctlCode (deviceType function method access : ℕ) : ℕ :=
  (deviceType <<< 16) ||| (access <<< 14) ||| (function <<< 2) ||| method

/-- `TT_DEVICE_TYPE`. -/
def ttDeviceType : ℕ := 0x80FA

/-- `TT_CTL`. -/
def ttCtl (nr : ℕ) : ℕ := ctlCode ttDeviceType (0x800 + nr) 0 0

/-- `TT_CTL_EXT`. -/
def ttCtlExt (nr : ℕ) : ℕ := ctlCode ttDeviceType (0x900 + nr) 0 0

/-- `TT_CTL_DEBUG`. -/
def ttCtlDebug (nr : ℕ) : ℕ := ctlCode ttDeviceType (0xA00 + nr) 0 0

/-- `TtIoctlNr`. -/
def ttIoctlNr (code : ℕ) : ℕ :=
  if code &&& 0xFFFF0000 ≠ ttDeviceType <<< 16 ∨ code &&& 0x3 ≠ 0 then maxUlong
  else u32Sub ((code >>> 2) &&& 0xFFF) 0x800

/-- The handlers. -/
inductive Handler
  | getDeviceInfo
  | queryMappings
  | allocateDmaBuf
  | getDriverInfo
  | resetDevice
  | pinPages
  | lockCtl
  | unpinPages
  | allocateTlb
  | freeTlb
  | configureTlb
  | setNocCleanup
  | setPowerState
  | map
  | unmap
  | queryTelemetry
  | freeDmaBufEx
  | debugReadTelemetry
  | debugArcMsg
  | debugGetAggPower
  deriving DecidableEq

/-- What becomes of a request behind the gates. -/
inductive Route
  /-- A handler serves it. -/
  | handler (h : Handler)
  /-- It is completed. -/
  | completed (status : NtStatus)

/-- How a request is served. -/
structure Dispatch where
  /-- In `TtEvtIoInCallerContext`. -/
  inCallerContext : Bool
  /-- With `TtResetAcquireExclusive`. -/
  exclusive : Bool
  /-- The number for `TtCheckIoGates`. -/
  gateNr : ℕ
  /-- What follows. -/
  route : Route

section Callbacks

/-- The `switch` of `TtEvtIoDeviceControl`. -/
def switchNr : ℕ → Route
  | 0 => .handler .getDeviceInfo
  | 2 => .handler .queryMappings
  | 3 => .handler .allocateDmaBuf
  | 5 => .handler .getDriverInfo
  | 6 => .handler .resetDevice
  | 8 => .handler .lockCtl
  | 11 => .handler .allocateTlb
  | 12 => .handler .freeTlb
  | 13 => .handler .configureTlb
  | 14 => .handler .setNocCleanup
  | 15 => .handler .setPowerState
  | 17 => .completed .notSupported
  | _ => .completed .invalidParameter

variable (debugInterfaces hasFile : Bool) (code : ℕ)

/-- `TtEvtIoDeviceControl` behind the gates; `debugInterfaces` is `TT_DEBUG_INTERFACES`. -/
def deviceControlRoute : Route :=
  if code = ttCtlExt 2 then .handler .queryTelemetry
  else if code = ttCtlExt 4 then
    if hasFile then .handler .freeDmaBufEx else .completed .invalidDeviceRequest
  else if debugInterfaces ∧ code = ttCtlDebug 0 then .handler .debugReadTelemetry
  else if debugInterfaces ∧ code = ttCtlDebug 1 then .handler .debugArcMsg
  else if debugInterfaces ∧ code = ttCtlDebug 2 then .handler .debugGetAggPower
  else switchNr (ttIoctlNr code)

/-- `TtEvtIoDeviceControl`. -/
def ttEvtIoDeviceControl : Dispatch :=
  ⟨false, decide (ttIoctlNr code = 6), ttIoctlNr code,
    deviceControlRoute debugInterfaces hasFile code⟩

/-- The handler that `TtEvtIoInCallerContext` calls itself. -/
def callerContextHandler : Option Handler :=
  if hasFile = false then none
  else if code = ttCtlExt 0 then some .map
  else if code = ttCtlExt 1 then some .unmap
  else if code = ttCtl 7 then some .pinPages
  else if code = ttCtl 10 then some .unpinPages
  else none

/-- `TtEvtIoInCallerContext`. -/
def ttEvtIoInCallerContext : Dispatch :=
  match callerContextHandler hasFile code with
  | some h =>
      ⟨true, false, if code = ttCtl 7 then 7 else if code = ttCtl 10 then 10 else maxUlong,
        .handler h⟩
  | none => ttEvtIoDeviceControl debugInterfaces hasFile code

end Callbacks

/-- The function code of a handler. -/
def Handler.function : Handler → ℕ
  | .getDeviceInfo => 0x800
  | .queryMappings => 0x802
  | .allocateDmaBuf => 0x803
  | .getDriverInfo => 0x805
  | .resetDevice => 0x806
  | .pinPages => 0x807
  | .lockCtl => 0x808
  | .unpinPages => 0x80A
  | .allocateTlb => 0x80B
  | .freeTlb => 0x80C
  | .configureTlb => 0x80D
  | .setNocCleanup => 0x80E
  | .setPowerState => 0x80F
  | .map => 0x900
  | .unmap => 0x901
  | .queryTelemetry => 0x902
  | .freeDmaBufEx => 0x904
  | .debugReadTelemetry => 0xA00
  | .debugArcMsg => 0xA01
  | .debugGetAggPower => 0xA02

/-- The handler is called in the context of the caller. -/
def Handler.inCallerContext (h : Handler) : Bool :=
  h matches .map | .unmap | .pinPages | .unpinPages

/-- The handler is only in a build with `TT_DEBUG_INTERFACES`. -/
def Handler.isDebug (h : Handler) : Bool :=
  h matches .debugReadTelemetry | .debugArcMsg | .debugGetAggPower

/-- The handler needs a file object. -/
def Handler.needsFile (h : Handler) : Bool := h.inCallerContext || h = .freeDmaBufEx

/-- The whole code is compared. -/
def Handler.exact (h : Handler) : Bool :=
  h.inCallerContext || h.isDebug || h = .queryTelemetry || h = .freeDmaBufEx

/-- The number under which the handler is reached; the views have none. -/
def Handler.nr (h : Handler) : ℕ :=
  if h = .map ∨ h = .unmap then maxUlong else h.function - 0x800

/-- The codes that reach a handler. -/
def Handler.Accepts (h : Handler) (debugInterfaces hasFile : Bool) (code : ℕ) : Prop :=
  (∃ access < 4, (h.exact = true → access = 0) ∧
      code = ctlCode ttDeviceType h.function 0 access) ∧
    (h.needsFile = true → hasFile = true) ∧ (h.isDebug = true → debugInterfaces = true)

/-! ## The number of a code -/

section Number

variable {code n : ℕ}

/-- A control code is its four fields in a row. -/
theorem ctlCode_eq {deviceType function method access : ℕ} (hfunction : function < 2 ^ 12)
    (hmethod : method < 2 ^ 2) (haccess : access < 2 ^ 2) :
    ctlCode deviceType function method access =
      deviceType * 2 ^ 16 + access * 2 ^ 14 + function * 2 ^ 2 + method := by
  have hlow : function <<< 2 ||| method = function * 2 ^ 2 + method := by
    rw [← Nat.shiftLeft_add_eq_or_of_lt hmethod, Nat.shiftLeft_eq]
  have hmid : access <<< 14 ||| (function * 2 ^ 2 + method) =
      access * 2 ^ 14 + (function * 2 ^ 2 + method) := by
    rw [← Nat.shiftLeft_add_eq_or_of_lt (by omega), Nat.shiftLeft_eq]
  have hhigh : deviceType <<< 16 ||| (access * 2 ^ 14 + (function * 2 ^ 2 + method)) =
      deviceType * 2 ^ 16 + (access * 2 ^ 14 + (function * 2 ^ 2 + method)) := by
    rw [← Nat.shiftLeft_add_eq_or_of_lt (by omega), Nat.shiftLeft_eq]
  rw [ctlCode, Nat.or_assoc, Nat.or_assoc, hlow, hmid, hhigh]
  omega

/-- The upper half of a code. -/
theorem and_upperHalf (hcode : code < 2 ^ 32) : code &&& 0xFFFF0000 = code / 2 ^ 16 * 2 ^ 16 := by
  have hmask : 0xFFFF0000 = (2 ^ 16 - 1) <<< 16 := by decide
  have hbits : code &&& ((2 ^ 16 - 1) <<< 16) = ((code >>> 16) &&& (2 ^ 16 - 1)) <<< 16 := by
    apply Nat.eq_of_testBit_eq
    intro i
    rw [Nat.testBit_and, Nat.testBit_shiftLeft, Nat.testBit_shiftLeft, Nat.testBit_and,
      Nat.testBit_shiftRight]
    by_cases hi : 16 ≤ i
    · rw [Nat.add_sub_of_le hi]
      simp [hi]
    · simp [hi]
  rw [hmask, hbits, Nat.and_two_pow_sub_one_eq_mod, Nat.shiftLeft_eq, Nat.shiftRight_eq_div_pow]
  omega

/-- `TtIoctlNr` on the fields of a code: a code of another device or with another method has no
number, and the access does not count. -/
theorem ttIoctlNr_eq (hcode : code < 2 ^ 32) :
    ttIoctlNr code =
      if code / 2 ^ 16 ≠ ttDeviceType ∨ code % 2 ^ 2 ≠ 0 then maxUlong
      else (code / 2 ^ 2 % 2 ^ 12 + 2 ^ 32 - 0x800) % 2 ^ 32 := by
  have hmethod : code &&& 0x3 = code % 2 ^ 2 := Nat.and_two_pow_sub_one_eq_mod code 2
  have hfunction : (code >>> 2) &&& 0xFFF = code / 2 ^ 2 % 2 ^ 12 := by
    rw [← Nat.shiftRight_eq_div_pow]
    exact Nat.and_two_pow_sub_one_eq_mod _ 12
  have htype : code / 2 ^ 16 * 2 ^ 16 ≠ ttDeviceType <<< 16 ↔ code / 2 ^ 16 ≠ ttDeviceType := by
    rw [Nat.shiftLeft_eq]
    omega
  rw [ttIoctlNr, and_upperHalf hcode, hmethod, hfunction, u32Sub]
  simp only [htype]

/-- The codes with a number below the extensions of the other callback. -/
theorem ttIoctlNr_iff (hcode : code < 2 ^ 32) (hn : n < 0x800) :
    ttIoctlNr code = n ↔ ∃ access < 4, code = ctlCode ttDeviceType (0x800 + n) 0 access := by
  rw [ttIoctlNr_eq hcode, maxUlong, ttDeviceType]
  constructor
  · intro h
    split at h
    · omega
    rename_i hown
    refine ⟨code / 2 ^ 14 % 4, by omega, ?_⟩
    rw [ctlCode_eq (by omega) (by omega) (by omega)]
    omega
  · rintro ⟨access, haccess, rfl⟩
    rw [ctlCode_eq (by omega) (by omega) (by omega), if_neg (by omega)]
    omega

end Number

/-! ## The handler of a code -/

section Routes

variable {debugInterfaces hasFile : Bool} {code : ℕ} {h : Handler}

/-- The handlers that are found by their number. -/
theorem switchNr_iff (n : ℕ) (h : Handler) :
    switchNr n = .handler h ↔ h.exact = false ∧ n = h.nr := by
  constructor
  · intro hroute
    unfold switchNr at hroute
    split at hroute <;> cases hroute <;> exact ⟨rfl, rfl⟩
  · rintro ⟨hexact, rfl⟩
    cases h with
    | pinPages => cases hexact
    | unpinPages => cases hexact
    | map => cases hexact
    | unmap => cases hexact
    | queryTelemetry => cases hexact
    | freeDmaBufEx => cases hexact
    | debugReadTelemetry => cases hexact
    | debugArcMsg => cases hexact
    | debugGetAggPower => cases hexact
    | _ => rfl

/-- No two handlers have one function code. -/
theorem Handler.function_injective {g h : Handler} (hsame : g.function = h.function) : g = h := by
  cases g <;> cases h <;> first | rfl | cases hsame

/-- A code is accepted by one handler. -/
theorem Handler.Accepts.unique {g h : Handler} (hg : g.Accepts debugInterfaces hasFile code)
    (hh : h.Accepts debugInterfaces hasFile code) : g = h := by
  have hlt : ∀ k : Handler, k.function < 2 ^ 12 := by
    intro k
    cases k <;> decide
  obtain ⟨⟨access, haccess, -, hcode⟩, -⟩ := hg
  obtain ⟨⟨access', haccess', -, hcode'⟩, -⟩ := hh
  have hgh := hcode.symm.trans hcode'
  rw [ctlCode_eq (hlt g) (by omega) haccess, ctlCode_eq (hlt h) (by omega) haccess'] at hgh
  have hg' := hlt g
  have hh' := hlt h
  exact Handler.function_injective (by omega)

/-- The number of a handler that is found by it. -/
theorem Handler.function_of_number (hexact : h.exact = false) :
    h.nr < 0x800 ∧ h.function = 0x800 + h.nr := by
  cases h <;> first | exact ⟨by decide, rfl⟩ | cases hexact

/-- A handler whose code is compared accepts one code. -/
theorem Handler.accepts_of_exact (hexact : h.exact = true) :
    h.Accepts debugInterfaces hasFile code ↔
      code = ctlCode ttDeviceType h.function 0 0 ∧ (h.needsFile = true → hasFile = true) ∧
        (h.isDebug = true → debugInterfaces = true) := by
  unfold Handler.Accepts
  refine and_congr_left fun _ => ⟨?_, fun hcode => ⟨0, by decide, fun _ => rfl, hcode⟩⟩
  rintro ⟨access, -, haccess, hcode⟩
  rw [haccess hexact] at hcode
  exact hcode

/-- A handler that is found by its number accepts the codes with the number. -/
theorem Handler.accepts_of_number (hexact : h.exact = false) (hcode : code < 2 ^ 32) :
    h.Accepts debugInterfaces hasFile code ↔ ttIoctlNr code = h.nr := by
  obtain ⟨hlt, hfunction⟩ := h.function_of_number hexact
  have hplain : h.needsFile = false ∧ h.isDebug = false := by
    cases h <;> first | exact ⟨rfl, rfl⟩ | cases hexact
  rw [ttIoctlNr_iff hcode hlt, Handler.Accepts, hplain.1, hplain.2, hexact, hfunction]
  simp

/-- The handler that `TtEvtIoDeviceControl` calls accepts the code. -/
theorem accepts_of_deviceControlRoute (hcode : code < 2 ^ 32)
    (hroute : deviceControlRoute debugInterfaces hasFile code = .handler h) :
    h.inCallerContext = false ∧ h.Accepts debugInterfaces hasFile code := by
  have hplain : ∀ {p : Prop}, (false = true → p) := fun hfalse => absurd hfalse (by decide)
  unfold deviceControlRoute at hroute
  split at hroute
  · cases hroute
    exact ⟨rfl, (Handler.accepts_of_exact rfl).mpr ⟨‹_›, hplain, hplain⟩⟩
  split at hroute
  · split at hroute
    · cases hroute
      exact ⟨rfl, (Handler.accepts_of_exact rfl).mpr ⟨‹_›, fun _ => ‹_›, hplain⟩⟩
    · cases hroute
  split at hroute
  · rename_i hdebug
    cases hroute
    exact ⟨rfl, (Handler.accepts_of_exact rfl).mpr ⟨hdebug.2, hplain, fun _ => hdebug.1⟩⟩
  split at hroute
  · rename_i hdebug
    cases hroute
    exact ⟨rfl, (Handler.accepts_of_exact rfl).mpr ⟨hdebug.2, hplain, fun _ => hdebug.1⟩⟩
  split at hroute
  · rename_i hdebug
    cases hroute
    exact ⟨rfl, (Handler.accepts_of_exact rfl).mpr ⟨hdebug.2, hplain, fun _ => hdebug.1⟩⟩
  obtain ⟨hexact, hnr⟩ := (switchNr_iff _ h).mp hroute
  refine ⟨?_, (Handler.accepts_of_number hexact hcode).mpr hnr⟩
  simp only [Handler.exact, Bool.or_eq_false_iff] at hexact
  exact hexact.1.1.1

/-- `TtEvtIoDeviceControl` calls the handler that accepts the code. -/
theorem deviceControlRoute_of_accepts (hcode : code < 2 ^ 32) (hctx : h.inCallerContext = false)
    (haccepts : h.Accepts debugInterfaces hasFile code) :
    deviceControlRoute debugInterfaces hasFile code = .handler h := by
  cases hexact : h.exact with
  | true =>
    obtain ⟨rfl, hfile, hdebug⟩ := (Handler.accepts_of_exact hexact).mp haccepts
    cases h with
    | queryTelemetry => rfl
    | freeDmaBufEx =>
      obtain rfl := hfile rfl
      rfl
    | debugReadTelemetry =>
      obtain rfl := hdebug rfl
      rfl
    | debugArcMsg =>
      obtain rfl := hdebug rfl
      rfl
    | debugGetAggPower =>
      obtain rfl := hdebug rfl
      rfl
    | pinPages => cases hctx
    | unpinPages => cases hctx
    | map => cases hctx
    | unmap => cases hctx
    | _ => cases hexact
  | false =>
    have hnr := (Handler.accepts_of_number hexact hcode).mp haccepts
    have hsmall : h.nr < 0x100 := by
      cases h <;> first | decide | cases hexact
    -- the codes that are compared have numbers of their own
    have hother : ∀ other, 0x100 ≤ ttIoctlNr other → code ≠ other := by
      rintro _ hlarge rfl
      omega
    have htelemetry : code ≠ ttCtlExt 2 := hother _ (by decide)
    have hfree : code ≠ ttCtlExt 4 := hother _ (by decide)
    have hread : code ≠ ttCtlDebug 0 := hother _ (by decide)
    have hmsg : code ≠ ttCtlDebug 1 := hother _ (by decide)
    have hpower : code ≠ ttCtlDebug 2 := hother _ (by decide)
    simp only [deviceControlRoute, htelemetry, hfree, hread, hmsg, hpower, and_false, if_false]
    exact (switchNr_iff _ h).mpr ⟨hexact, hnr⟩

/-- The handlers of `TtEvtIoInCallerContext`. -/
theorem callerContextHandler_iff :
    callerContextHandler hasFile code = some h ↔
      h.inCallerContext = true ∧ h.Accepts debugInterfaces hasFile code := by
  unfold callerContextHandler
  constructor
  · intro hsome
    split at hsome
    · cases hsome
    rename_i hfile
    have hfile' : hasFile = true := by simpa using hfile
    have haccepts : ∀ {g : Handler}, g.inCallerContext = true →
        code = ctlCode ttDeviceType g.function 0 0 → g.Accepts debugInterfaces hasFile code := by
      intro g hctx hcode
      have hplain : g.isDebug = true → debugInterfaces = true := by
        cases g <;> first | (intro hdebug; cases hdebug; done) | cases hctx
      exact (Handler.accepts_of_exact (by simp [Handler.exact, hctx])).mpr
        ⟨hcode, fun _ => hfile', hplain⟩
    split at hsome
    · cases hsome
      exact ⟨rfl, haccepts rfl ‹_›⟩
    split at hsome
    · cases hsome
      exact ⟨rfl, haccepts rfl ‹_›⟩
    split at hsome
    · cases hsome
      exact ⟨rfl, haccepts rfl ‹_›⟩
    split at hsome
    · cases hsome
      exact ⟨rfl, haccepts rfl ‹_›⟩
    · cases hsome
  · rintro ⟨hctx, haccepts⟩
    have hexact : h.exact = true := by simp [Handler.exact, hctx]
    obtain ⟨rfl, hfile, -⟩ := (Handler.accepts_of_exact hexact).mp haccepts
    obtain rfl := hfile (by simp [Handler.needsFile, hctx])
    cases h with
    | map => rfl
    | unmap => rfl
    | pinPages => rfl
    | unpinPages => rfl
    | _ => cases hctx

/-- The route of a code. -/
theorem route_iff (hcode : code < 2 ^ 32) :
    (ttEvtIoInCallerContext debugInterfaces hasFile code).route = .handler h ↔
      h.Accepts debugInterfaces hasFile code := by
  unfold ttEvtIoInCallerContext
  cases hcaller : callerContextHandler hasFile code with
  | some g =>
    have hg : g.inCallerContext = true ∧ g.Accepts debugInterfaces hasFile code :=
      callerContextHandler_iff.mp hcaller
    constructor
    · intro hroute
      obtain rfl := Route.handler.inj hroute
      exact hg.2
    · intro haccepts
      cases hctx : h.inCallerContext with
      | true =>
        have hh := callerContextHandler_iff.mpr ⟨hctx, haccepts⟩
        rw [hcaller] at hh
        exact congrArg Route.handler (Option.some.inj hh)
      | false =>
        have hsame := hg.2.unique haccepts
        rw [hsame, hctx] at hg
        cases hg.1
  | none =>
    constructor
    · exact fun hroute => (accepts_of_deviceControlRoute hcode hroute).2
    · intro haccepts
      cases hctx : h.inCallerContext with
      | true =>
        have hh := callerContextHandler_iff.mpr ⟨hctx, haccepts⟩
        rw [hcaller] at hh
        cases hh
      | false => exact deviceControlRoute_of_accepts hcode hctx haccepts

/-- What is fixed about a request by the handler it reaches. -/
theorem dispatch_of_handler
    (hroute : (ttEvtIoInCallerContext debugInterfaces hasFile code).route = .handler h)
    (hcode : code < 2 ^ 32) :
    (ttEvtIoInCallerContext debugInterfaces hasFile code).gateNr = h.nr ∧
      (ttEvtIoInCallerContext debugInterfaces hasFile code).inCallerContext =
        h.inCallerContext := by
  have haccepts := (route_iff hcode).mp hroute
  unfold ttEvtIoInCallerContext at hroute ⊢
  cases hcaller : callerContextHandler hasFile code with
  | some g =>
    rw [hcaller] at hroute
    obtain rfl := Route.handler.inj hroute
    have hg : g.inCallerContext = true ∧ g.Accepts debugInterfaces hasFile code :=
      callerContextHandler_iff.mp hcaller
    have hctx := hg.1
    have hexact : g.exact = true := by simp [Handler.exact, hctx]
    obtain ⟨rfl, -⟩ := (Handler.accepts_of_exact hexact).mp haccepts
    refine ⟨?_, hctx.symm⟩
    cases g with
    | map => rfl
    | unmap => rfl
    | pinPages => rfl
    | unpinPages => rfl
    | _ => cases hctx
  | none =>
    rw [hcaller] at hroute
    obtain ⟨hctx, -⟩ := accepts_of_deviceControlRoute hcode hroute
    refine ⟨?_, hctx.symm⟩
    show ttIoctlNr code = h.nr
    cases hexact : h.exact with
    | false => exact (Handler.accepts_of_number hexact hcode).mp haccepts
    | true =>
      obtain ⟨rfl, -⟩ := (Handler.accepts_of_exact hexact).mp haccepts
      cases h with
      | queryTelemetry => decide
      | freeDmaBufEx => decide
      | debugReadTelemetry => decide
      | debugArcMsg => decide
      | debugGetAggPower => decide
      | pinPages => cases hctx
      | unpinPages => cases hctx
      | map => cases hctx
      | unmap => cases hctx
      | _ => cases hexact

/-- The reset resource is taken exclusively for the codes of `RESET_DEVICE`. -/
theorem exclusive_iff (hcode : code < 2 ^ 32) :
    (ttEvtIoInCallerContext debugInterfaces hasFile code).exclusive = true ↔
      (ttEvtIoInCallerContext debugInterfaces hasFile code).route = .handler .resetDevice := by
  rw [route_iff hcode, Handler.accepts_of_number rfl hcode]
  unfold ttEvtIoInCallerContext
  cases hcaller : callerContextHandler hasFile code with
  | none => exact decide_eq_true_iff
  | some g =>
    -- a code of the other callback has another number
    have hg : g.inCallerContext = true ∧ g.Accepts debugInterfaces hasFile code :=
      callerContextHandler_iff.mp hcaller
    have hnot : ttIoctlNr code ≠ Handler.resetDevice.nr := by
      intro hnr
      have hreset : Handler.resetDevice.Accepts debugInterfaces hasFile code :=
        (Handler.accepts_of_number rfl hcode).mpr hnr
      have hsame := hg.2.unique hreset
      rw [hsame] at hg
      cases hg.1
    simp [hnot]

end Routes

/-! ## The two models of requests -/

/-- The handler of a request of the device. -/
def Request.handler : Request → Option Handler
  | .allocateDmaBuf .. => some .allocateDmaBuf
  | .freeDmaBufEx .. => some .freeDmaBufEx
  | .allocateTlb .. => some .allocateTlb
  | .freeTlb .. => some .freeTlb
  | .map .. => some .map
  | .unmap .. => some .unmap
  | .pinPages .. => some .pinPages
  | .unpinPages .. => some .unpinPages
  | .lockCtl .. => some .lockCtl
  | .resetDevice .. => some .resetDevice
  | .other .. => none

/-- The handler of a request as bytes. -/
def IoctlCode.handler : IoctlCode → Option Handler
  | .getDeviceInfo => some .getDeviceInfo
  | .queryMappings => some .queryMappings
  | .allocateDmaBuf => some .allocateDmaBuf
  | .getDriverInfo => some .getDriverInfo
  | .resetDevice => some .resetDevice
  | .pinPages => some .pinPages
  | .lockCtl => some .lockCtl
  | .unpinPages => some .unpinPages
  | .allocateTlb => some .allocateTlb
  | .freeTlb => some .freeTlb
  | .configureTlb => some .configureTlb
  | .setNocCleanup => some .setNocCleanup
  | .setPowerState => some .setPowerState
  | .map => some .map
  | .queryTelemetry => some .queryTelemetry
  | .lockCtlWoken => none

/-- The control code of `tt_ioctl` for a request of Linux. -/
def ttIoctlCode (request : ℕ) : Option ℕ :=
  if (request >>> 8) &&& 0xFF ≠ 0xFA then none else some (ttCtl (request &&& 0xFF))

/-- A request passes the gates under the number of its handler. -/
theorem Request.nr_of_handler {r : Request} {h : Handler} (hr : r.handler = some h) :
    r.nr = h.nr ∧ r.inCallerContext = h.inCallerContext := by
  cases r <;> cases hr <;> exact ⟨rfl, rfl⟩

/-- The requests with the function codes of Linux. -/
theorem Handler.exists_ioctlCode {h : Handler} (hlt : h.function < 0x900) :
    ∃ i : IoctlCode, i.nr = some (h.function - 0x800) ∧ i.handler = some h := by
  cases h with
  | getDeviceInfo => exact ⟨.getDeviceInfo, rfl, rfl⟩
  | queryMappings => exact ⟨.queryMappings, rfl, rfl⟩
  | allocateDmaBuf => exact ⟨.allocateDmaBuf, rfl, rfl⟩
  | getDriverInfo => exact ⟨.getDriverInfo, rfl, rfl⟩
  | resetDevice => exact ⟨.resetDevice, rfl, rfl⟩
  | pinPages => exact ⟨.pinPages, rfl, rfl⟩
  | lockCtl => exact ⟨.lockCtl, rfl, rfl⟩
  | unpinPages => exact ⟨.unpinPages, rfl, rfl⟩
  | allocateTlb => exact ⟨.allocateTlb, rfl, rfl⟩
  | freeTlb => exact ⟨.freeTlb, rfl, rfl⟩
  | configureTlb => exact ⟨.configureTlb, rfl, rfl⟩
  | setNocCleanup => exact ⟨.setNocCleanup, rfl, rfl⟩
  | setPowerState => exact ⟨.setPowerState, rfl, rfl⟩
  | _ => exact absurd hlt (by decide)

/-- A handler accepts the code of a number of Linux by its function code. -/
theorem Handler.accepts_ttCtl {debugInterfaces : Bool} {n : ℕ} (hn : n < 0x100) {h : Handler} :
    h.Accepts debugInterfaces true (ttCtl n) ↔ h.function = 0x800 + n := by
  have hlt : h.function < 2 ^ 12 := by
    cases h <;> decide
  unfold Handler.Accepts ttCtl
  constructor
  · rintro ⟨⟨access, haccess, -, hcode⟩, -⟩
    rw [ctlCode_eq (by omega) (by omega) (by omega), ctlCode_eq hlt (by omega) haccess] at hcode
    omega
  · intro hfunction
    have hdebug : h.isDebug = true → 0xA00 ≤ h.function := by
      cases h <;> decide
    rw [hfunction]
    refine ⟨⟨0, by decide, fun _ => rfl, rfl⟩, fun _ => rfl, fun h => ?_⟩
    have hlarge := hdebug h
    omega

/-- A number of `tt_ioctl` reaches the handler of its request, and no other one. -/
theorem Handler.accepts_ttCtl_iff {debugInterfaces : Bool} {n : ℕ} (hn : n < 0x100)
    {h : Handler} :
    h.Accepts debugInterfaces true (ttCtl n) ↔
      ∃ i : IoctlCode, i.nr = some n ∧ i.handler = some h := by
  rw [Handler.accepts_ttCtl hn]
  constructor
  · intro hfunction
    obtain ⟨i, hnr, hh⟩ := Handler.exists_ioctlCode (h := h) (by omega)
    rw [hfunction, Nat.add_sub_cancel_left] at hnr
    exact ⟨i, hnr, hh⟩
  · rintro ⟨i, hnr, hh⟩
    cases i <;> cases hnr <;> cases hh <;> rfl

/-! ## Every code -/

/-- For each of the 2 ^ 32 control codes, with or without a file object, in both builds: a handler
is reached exactly by its own codes, and then the request has passed the gates under the number
and in the context that the model of the device has for it; the reset resource is taken
exclusively exactly for the codes that reach `RESET_DEVICE`; and in the window after a reset
no code reaches another handler than the two for information, the reset and the two for views. A
request of the shim reaches the handler of its number, with the magic of Linux only. -/
theorem control_code_routes (debugInterfaces hasFile : Bool) (code : UInt32) :
    (∀ h, (ttEvtIoInCallerContext debugInterfaces hasFile code.toNat).route = .handler h ↔
        h.Accepts debugInterfaces hasFile code.toNat) ∧
      (∀ h g : Handler, h.Accepts debugInterfaces hasFile code.toNat →
        g.Accepts debugInterfaces hasFile code.toNat → h = g) ∧
      (∀ (r : Request) h,
        (ttEvtIoInCallerContext debugInterfaces hasFile code.toNat).route = .handler h →
        r.handler = some h →
          (ttEvtIoInCallerContext debugInterfaces hasFile code.toNat).gateNr = r.nr ∧
          (ttEvtIoInCallerContext debugInterfaces hasFile code.toNat).inCallerContext =
            r.inCallerContext) ∧
      ((ttEvtIoInCallerContext debugInterfaces hasFile code.toNat).exclusive = true ↔
        (ttEvtIoInCallerContext debugInterfaces hasFile code.toNat).route =
          .handler .resetDevice) ∧
      (∀ (w : DeviceContext) F h, w.needsHwInit = true →
        ttCheckIoGates w F (ttEvtIoInCallerContext debugInterfaces hasFile code.toNat).gateNr =
          .success →
        (ttEvtIoInCallerContext debugInterfaces hasFile code.toNat).route = .handler h →
          h ∈ [.getDeviceInfo, .getDriverInfo, .resetDevice, .map, .unmap]) ∧
      ∀ request c, ttIoctlCode request = some c → request / 2 ^ 8 % 2 ^ 8 = 0xFA ∧
        ∀ h, (ttEvtIoInCallerContext debugInterfaces true c).route = .handler h ↔
          ∃ i : IoctlCode, i.nr = some (request % 2 ^ 8) ∧ i.handler = some h := by
  have hcode : code.toNat < 2 ^ 32 := code.toNat_lt
  refine ⟨fun h => route_iff hcode, fun h g hh hg => hh.unique hg, ?_, exclusive_iff hcode, ?_, ?_⟩
  · intro r h hroute hr
    obtain ⟨hgate, hctx⟩ := dispatch_of_handler hroute hcode
    obtain ⟨hnr, hctx'⟩ := Request.nr_of_handler hr
    exact ⟨hgate.trans hnr.symm, hctx.trans hctx'.symm⟩
  · intro w F h hwindow hgate hroute
    have hnr := ttCheckIoGates_of_window hwindow hgate
    rw [(dispatch_of_handler hroute hcode).1] at hnr
    cases h <;> first | decide | (exfalso; revert hnr; decide)
  · intro request c hc
    obtain ⟨hmagic, hc'⟩ := Option.ite_none_left_eq_some.mp hc
    obtain rfl := Option.some.inj hc'
    have hbyte : ∀ n, n &&& 0xFF = n % 2 ^ 8 := fun n => Nat.and_two_pow_sub_one_eq_mod n 8
    rw [hbyte, Nat.shiftRight_eq_div_pow] at hmagic
    refine ⟨not_not.mp hmagic, fun h => ?_⟩
    have hlt : request % 2 ^ 8 < 0x100 := Nat.mod_lt _ (by decide)
    have hcode' : ttCtl (request % 2 ^ 8) < 2 ^ 32 := by
      rw [ttCtl, ttDeviceType, ctlCode_eq (by omega) (by omega) (by omega)]
      omega
    rw [hbyte, route_iff hcode', Handler.accepts_ttCtl_iff hlt]

end TtKmd
