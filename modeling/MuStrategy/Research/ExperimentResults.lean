import MuStrategy.Lib.DecimalRounding
import MuStrategy.Research.StrategyReleases

/-!
# Results of release experiments

The summary of a strategy on a window of history. Its numbers are canonical decimal texts, and they are checked
against each other in decimal arithmetic.

* `ReleaseError` — what the records of releases raise.
* `ExperimentWindowResultFields.postInit` — the checks; an `ExperimentWindowResult` carries the proof that it passed
  them.
* `ExperimentWindowResult.create`, `toDict`, `fromDict` — a result is made, written, and read back.
-/

namespace MuStrategy.Research

open Lib

/-! ## Checks -/

/-- What the records of releases raise. -/
inductive ReleaseError where
  /-- `ValueError`. -/
  | value (text : String)
  /-- `ValueError`: a value that names no member. -/
  | notMember (enumeration : String) (value : JsonValue)
  /-- `StrategyReleaseSchemaError`. -/
  | schema (text : String)
  /-- `StrategyReleaseSchemaError`: `{label} has unknown fields: {names}`. -/
  | unknownFields (label : String) (names : List String)
  /-- `StrategyReleaseSchemaError`: `{label} has missing fields: {names}`. -/
  | missingFields (label : String) (names : List String)
  /-- `StrategyReleaseSchemaError`: `invalid {label}: {cause}`. -/
  | invalid (label : String) (cause : ReleaseError)
  /-- What decimal arithmetic traps. -/
  | decimal (signal : Decimal.Signal)

/-- `except (TypeError, ValueError)`: schema errors, and those of decimal arithmetic, are raised as they are. -/
def ReleaseError.within (label : String) : ReleaseError → ReleaseError
  | .value text => .invalid label (.value text)
  | .notMember enumeration named => .invalid label (.notMember enumeration named)
  | error => error

/-- An operation in the context of Python. -/
def decimal (exact : ℚ) : Except ReleaseError ℚ := raiseAs .decimal (Decimal.Context.default.round exact)

/-- Source: `research/strategy_releases.py` `_require_decimal_range`. -/
def requireDecimalRange (value label : String) (minimum maximum : Option ℚ) (exclusiveMinimum : Bool := false) :
    Except ReleaseError ℚ := do
  let decimalValue ← orThrow (canonicalDecimal? value)
    (.schema ("strategy config " ++ label ++ " must be a canonical decimal string"))
  require (!minimum.any fun bound => decimalValue < bound || exclusiveMinimum && decimalValue = bound)
    (.value (label ++ " is below its allowed minimum"))
  require (!maximum.any fun bound => bound < decimalValue) (.value (label ++ " is above its allowed maximum"))
  pure decimalValue

lemma requireDecimalRange_ok {value label : String} {q : ℚ} {minimum maximum : Option ℚ} {exclusiveMinimum : Bool}
    (h : canonicalDecimal? value = some q) (hmin : ∀ bound ∈ minimum, bound ≤ q ∧ (exclusiveMinimum = true → bound ≠ q))
    (hmax : ∀ bound ∈ maximum, q ≤ bound) :
    requireDecimalRange value label minimum maximum exclusiveMinimum = .ok q := by
  have hlow : (minimum.any fun bound => q < bound || exclusiveMinimum && q = bound) = false := by
    cases minimum with
    | none => rfl
    | some bound =>
        obtain ⟨hle, hne⟩ := hmin bound rfl
        simp only [Option.any_some, Bool.or_eq_false_iff, decide_eq_false_iff_not, not_lt, Bool.and_eq_false_imp]
        exact ⟨hle, fun hexclusive => fun heq => hne hexclusive heq.symm⟩
  have hhigh : (maximum.any fun bound => bound < q) = false := by
    cases maximum with
    | none => rfl
    | some bound => simpa using hmax bound rfl
  rw [requireDecimalRange, h, orThrow_some, ok_bind, hlow, Bool.not_false, require_true, ok_bind, hhigh, Bool.not_false,
    require_true, ok_bind]
  rfl

/-- Source: `research/strategy_releases.py` `_require_exact_mapping`. -/
def requireExactMapping (payload : JsonValue) (expected : List String) (label : String) : Except ReleaseError Unit :=
  match payload with
  | .obj _ => do
      let unknown := payload.keys.filter (· ∉ expected)
      let missing := expected.filter (· ∉ payload.keys)
      require unknown.isEmpty (.unknownFields label unknown)
      require missing.isEmpty (.missingFields label missing)
  | _ => throw (.schema (label ++ " must be an object"))

/-- Source: `research/strategy_releases.py` `_required_int`. -/
def requiredInt (payload : JsonValue) (fieldName : String) : Except ReleaseError ℤ :=
  orThrow ((payload.get? fieldName).bind Json.int?) (.schema (fieldName ++ " must be an integer"))

/-- Source: `research/strategy_releases.py` `_required_text`. -/
def requiredText (payload : JsonValue) (fieldName : String) : Except ReleaseError String := do
  let value ← orThrow ((payload.get? fieldName).bind Json.str?) (.schema (fieldName ++ " must be non-empty text"))
  require (value ≠ "") (.schema (fieldName ++ " must be non-empty text"))
  pure value

/-- A field that is a decimal text. -/
def decimalField (payload : JsonValue) (fieldName : String) : Except ReleaseError String :=
  orThrow ((payload.get? fieldName).bind Json.str?)
    (.schema ("strategy config " ++ fieldName ++ " must be a canonical decimal string"))

/-- `Enum(payload[field_name])`. -/
def requiredMember {α : Type} [PyEnum α] (enumeration : String) (payload : JsonValue) (fieldName : String) :
    Except ReleaseError α :=
  orThrow ((payload.get? fieldName).bind fun value => value.str?.bind PyEnum.ofValue?)
    (.notMember enumeration ((payload.get? fieldName).getD .null))

lemma requiredInt_of_get {payload : JsonValue} {key : String} {n : ℤ} (h : payload.get? key = some (.int n)) :
    requiredInt payload key = .ok n := by
  rw [requiredInt, h]
  rfl

lemma decimalField_of_get {payload : JsonValue} {key text : String} (h : payload.get? key = some (.str text)) :
    decimalField payload key = .ok text := by
  rw [decimalField, h]
  rfl

lemma requiredText_of_get {payload : JsonValue} {key text : String} (h : payload.get? key = some (.str text))
    (hne : text ≠ "") : requiredText payload key = .ok text := by
  rw [requiredText, h, Option.bind_some, Json.str?_str, orThrow_some, ok_bind, decide_eq_true hne, require_true, ok_bind]
  rfl

lemma requiredMember_of_get {α : Type} [PyEnum α] {enumeration : String} {payload : JsonValue} {key : String} {a : α}
    (h : payload.get? key = some (.str (PyEnum.value a))) : requiredMember enumeration payload key = .ok a := by
  rw [requiredMember, h, Option.bind_some, Json.str?_str, Option.bind_some, PyEnum.ofValue?_value, orThrow_some]

/-! ## Results -/

/-- Source: `research/strategy_releases.py` `STRATEGY_RELEASE_SCHEMA_VERSION`. -/
def strategyReleaseSchemaVersion : ℤ := 1

/-- Source: `research/strategy_releases.py` `_RESULT_ARITHMETIC_TOLERANCE`. -/
def resultArithmeticTolerance : ℚ := 0.00000000001

/-- Source: `research/strategy_releases.py` `ExperimentWindowRole`. -/
inductive ExperimentWindowRole where
  | train
  | validation
  | outOfSample
  deriving DecidableEq

instance : PyEnum ExperimentWindowRole where
  members := [.train, .validation, .outOfSample]
  value
    | .train => "train"
    | .validation => "validation"
    | .outOfSample => "out_of_sample"
  find_value := by intro a; cases a <;> decide

/-- The fields of a result. Source: `research/strategy_releases.py` `ExperimentWindowResultV1`. -/
structure ExperimentWindowResultFields where
  role : ExperimentWindowRole
  tradeCount : ℤ
  startingEquity : String
  endingEquity : String
  grossProfit : String
  grossLoss : String
  totalReturnPct : String
  maxDrawdownPct : String
  resultFingerprint : String
  schemaVersion : ℤ := strategyReleaseSchemaVersion
  deriving DecidableEq

namespace ExperimentWindowResultFields

variable (f : ExperimentWindowResultFields)

/-- The items that the fingerprint is of. -/
def fingerprintItems : List (String × JsonValue) :=
  [("schema_version", .int f.schemaVersion), ("role", .str (PyEnum.value f.role)), ("trade_count", .int f.tradeCount),
    ("starting_equity", .str f.startingEquity), ("ending_equity", .str f.endingEquity),
    ("gross_profit", .str f.grossProfit), ("gross_loss", .str f.grossLoss),
    ("total_return_pct", .str f.totalReturnPct), ("max_drawdown_pct", .str f.maxDrawdownPct)]

/-- Source: `research/strategy_releases.py` `ExperimentWindowResultV1._fingerprint_payload`. -/
def fingerprintPayload : JsonValue := .obj f.fingerprintItems

/-- Source: `research/strategy_releases.py` `ExperimentWindowResultV1.to_dict`. -/
def toDict : JsonValue := .obj (f.fingerprintItems ++ [("result_fingerprint", .str f.resultFingerprint)])

/-- The numbers of a result. -/
structure Metrics where
  startingEquity : ℚ
  endingEquity : ℚ
  grossProfit : ℚ
  grossLoss : ℚ
  totalReturnPct : ℚ
  maxDrawdownPct : ℚ

/-- The texts are canonical decimals within their ranges. -/
def metrics : Except ReleaseError Metrics := do
  let startingEquity ← requireDecimalRange f.startingEquity "starting_equity" (some 0) none true
  let endingEquity ← requireDecimalRange f.endingEquity "ending_equity" (some 0) none
  let grossProfit ← requireDecimalRange f.grossProfit "gross_profit" (some 0) none
  let grossLoss ← requireDecimalRange f.grossLoss "gross_loss" (some 0) none
  let totalReturnPct ← requireDecimalRange f.totalReturnPct "total_return_pct" none none
  let maxDrawdownPct ← requireDecimalRange f.maxDrawdownPct "max_drawdown_pct" (some (-1)) (some 0)
  pure ⟨startingEquity, endingEquity, grossProfit, grossLoss, totalReturnPct, maxDrawdownPct⟩

/-- The numbers agree with each other. -/
def Metrics.agree (m : Metrics) (tradeCount : ℤ) : Except ReleaseError Unit := do
  let ratio ← decimal (m.endingEquity / m.startingEquity)
  let expectedReturn ← decimal (ratio - 1)
  let returnGap ← decimal (m.totalReturnPct - expectedReturn)
  require (|returnGap| ≤ resultArithmeticTolerance)
    (.value "result total return does not match starting and ending equity")
  let netEquityChange ← decimal (m.endingEquity - m.startingEquity)
  let grossChange ← decimal (m.grossProfit - m.grossLoss)
  let changeGap ← decimal (netEquityChange - grossChange)
  require (|changeGap| ≤ resultArithmeticTolerance)
    (.value "result gross profit and loss do not match the equity change")
  require (tradeCount ≠ 0 || [netEquityChange, m.grossProfit, m.grossLoss, m.totalReturnPct, m.maxDrawdownPct].all
      fun value => |value| ≤ resultArithmeticTolerance)
    (.value "zero-trade result must not report P&L, return, equity change, or drawdown")
  let directionalTradeMinimum : ℤ := (if 0 < m.grossProfit then 1 else 0) + if 0 < m.grossLoss then 1 else 0
  require (directionalTradeMinimum ≤ tradeCount)
    (.value "result trade count cannot produce the reported directional P&L")

variable [Sha256]

/-- Source: `research/strategy_releases.py` `ExperimentWindowResultV1.__post_init__`. -/
def postInit : Except ReleaseError Unit := do
  require (f.schemaVersion = strategyReleaseSchemaVersion) (.value "unsupported result schema_version")
  require (0 ≤ f.tradeCount) (.value "trade_count must be a non-negative integer")
  let m ← f.metrics
  m.agree f.tradeCount
  require (f.resultFingerprint = (canonicalSha256 f.fingerprintPayload).text)
    (.value "result fingerprint does not match canonical summary")

end ExperimentWindowResultFields

variable [Sha256]

/-- A result that passed its checks. Source: `research/strategy_releases.py` `ExperimentWindowResultV1`. -/
structure ExperimentWindowResult extends ExperimentWindowResultFields where
  /-- `__post_init__` passed. -/
  valid : toExperimentWindowResultFields.postInit = .ok ()

namespace ExperimentWindowResult

/-- The constructor call: check, then build. -/
def ofFields (f : ExperimentWindowResultFields) : Except ReleaseError ExperimentWindowResult :=
  match h : f.postInit with
  | .ok () => .ok ⟨f, h⟩
  | .error e => .error e

@[simp] lemma ofFields_toFields (result : ExperimentWindowResult) :
    ofFields result.toExperimentWindowResultFields = .ok result := by
  unfold ofFields
  split
  · rfl
  · rename_i e h
    rw [result.valid] at h
    cases h

/-- A result of fields without a fingerprint. Source: `research/strategy_releases.py`
`ExperimentWindowResultV1.create`. -/
def create (f : ExperimentWindowResultFields) : Except ReleaseError ExperimentWindowResult :=
  ofFields { f with resultFingerprint := (canonicalSha256 f.fingerprintPayload).text }

/-- **A result is made** of texts that agree. -/
lemma create_ok {f : ExperimentWindowResultFields} {m : ExperimentWindowResultFields.Metrics}
    (hversion : f.schemaVersion = strategyReleaseSchemaVersion) (hcount : 0 ≤ f.tradeCount) (hmetrics : f.metrics = .ok m)
    (hagree : m.agree f.tradeCount = .ok ()) :
    ∃ result, create f = .ok result ∧ result.startingEquity = f.startingEquity := by
  have hvalid : ({ f with resultFingerprint := (canonicalSha256 f.fingerprintPayload).text } :
      ExperimentWindowResultFields).postInit = .ok () := by
    unfold ExperimentWindowResultFields.postInit
    rw [decide_eq_true hversion, require_true, ok_bind, decide_eq_true hcount, require_true, ok_bind]
    change (f.metrics >>= fun m => m.agree f.tradeCount >>= fun _ => require (decide (_ = _)) _) = .ok ()
    rw [hmetrics, ok_bind, hagree, ok_bind, require_eq_ok, decide_eq_true_eq]
    rfl
  refine ⟨⟨_, hvalid⟩, ?_, rfl⟩
  unfold create ofFields
  split
  · rfl
  · rename_i e h
    rw [hvalid] at h
    cases h

/-- The keys of a result. -/
def resultFields : List String :=
  ["schema_version", "role", "trade_count", "starting_equity", "ending_equity", "gross_profit", "gross_loss",
    "total_return_pct", "max_drawdown_pct", "result_fingerprint"]

/-- The fields of a dictionary with the keys of a result. -/
def readFields (payload : JsonValue) : Except ReleaseError ExperimentWindowResult := do
  let schemaVersion ← requiredInt payload "schema_version"
  let role ← requiredMember "ExperimentWindowRole" payload "role"
  let tradeCount ← requiredInt payload "trade_count"
  let startingEquity ← decimalField payload "starting_equity"
  let endingEquity ← decimalField payload "ending_equity"
  let grossProfit ← decimalField payload "gross_profit"
  let grossLoss ← decimalField payload "gross_loss"
  let totalReturnPct ← decimalField payload "total_return_pct"
  let maxDrawdownPct ← decimalField payload "max_drawdown_pct"
  let resultFingerprint ← requiredText payload "result_fingerprint"
  ofFields { role, tradeCount, startingEquity, endingEquity, grossProfit, grossLoss, totalReturnPct, maxDrawdownPct,
             resultFingerprint, schemaVersion }

/-- Source: `research/strategy_releases.py` `ExperimentWindowResultV1.from_dict`.
Fidelity: a decimal field that is no text is reported before the other checks of `__post_init__`. -/
def fromDict (payload : JsonValue) : Except ReleaseError ExperimentWindowResult :=
  match requireExactMapping payload resultFields "window result" with
  | .error e => .error e
  | .ok () =>
      match readFields payload with
      | .error e => .error (e.within "window result")
      | .ok result => .ok result

omit [Sha256] in
lemma requireExactMapping_toDict (f : ExperimentWindowResultFields) :
    requireExactMapping f.toDict resultFields "window result" = .ok () := by
  have hkeys : f.toDict.keys = resultFields := rfl
  have hnone : resultFields.filter (· ∉ resultFields) = [] := by decide
  unfold requireExactMapping ExperimentWindowResultFields.toDict
  change (require (f.toDict.keys.filter (· ∉ resultFields)).isEmpty _ >>= fun _ => require
    (resultFields.filter (· ∉ f.toDict.keys)).isEmpty _) = .ok ()
  rw [hkeys, hnone]
  rfl

/-- A fingerprint is a text. -/
lemma fingerprint_ne_empty (result : ExperimentWindowResult) : result.resultFingerprint ≠ "" := by
  have h := result.valid
  obtain ⟨_, -, h⟩ := bind_eq_ok.mp h
  obtain ⟨_, -, h⟩ := bind_eq_ok.mp h
  obtain ⟨_, -, h⟩ := bind_eq_ok.mp h
  obtain ⟨_, -, h⟩ := bind_eq_ok.mp h
  rw [require_eq_ok, decide_eq_true_eq] at h
  rw [h]
  exact ne_empty_of_isLowerHex (by omega) (HexDigest.isHex _)

/-- **A result is read back** from its dictionary. -/
theorem fromDict_toDict (result : ExperimentWindowResult) : fromDict result.toDict = .ok result := by
  have hread : readFields result.toDict = .ok result := by
    unfold readFields
    rw [requiredInt_of_get rfl, ok_bind, requiredMember_of_get rfl, ok_bind, requiredInt_of_get rfl, ok_bind,
      decimalField_of_get rfl, ok_bind, decimalField_of_get rfl, ok_bind, decimalField_of_get rfl, ok_bind,
      decimalField_of_get rfl, ok_bind, decimalField_of_get rfl, ok_bind, decimalField_of_get rfl, ok_bind,
      requiredText_of_get rfl (fingerprint_ne_empty result), ok_bind]
    exact ofFields_toFields result
  rw [fromDict, requireExactMapping_toDict, hread]

end ExperimentWindowResult

end MuStrategy.Research
