import MuStrategy.Canonical
import MuStrategy.Lib.Check

/-!
# Strategy releases

A release names the configuration that a strategy may trade with. The values of the configuration are texts and
integers; the program reads its decimals as floats before it takes their digest.

* `ConfigValue`, `StrategyConfigPayload` — a configuration whose fields have the values they may have.
* `StrategyConfigPayload.strategyConfig`, `canonicalPayloadSha256` — the configuration of the program, and its digest.
* `StrategyRelease` — a release, as far as orders read it.
-/

namespace MuStrategy.Research

open Lib

/-! ## Configurations -/

/-- A value of a configuration that was read from a file. -/
inductive ConfigValue where
  | none
  | bool (b : Bool)
  | int (n : ℤ)
  | text (s : String)
  | texts (xs : List String)
  | windows (xs : List (String × String))
  deriving DecidableEq

/-- What a field may hold: the names of `_DECIMAL_FIELDS` and its siblings. -/
inductive FieldKind where
  | feeProfile
  | decimal
  | optionalDecimal
  | decimals
  | integer
  | boolean
  | optionalText
  | texts
  | windows
  | text
  deriving DecidableEq

/-- Source: `research/strategy_releases.py` `STRATEGY_CONFIG_V1_FIELD_NAMES`, with the sets of names that
`_validate_config_value` looks a name up in. -/
def strategyConfigV1Fields : List (String × FieldKind) :=
  [("symbol", .text), ("entry_execution", .text), ("second_pullback_wait_bars", .integer), ("stop_tightening", .text),
    ("leverage", .decimal), ("margin_steps", .decimals), ("initial_stop_pct", .decimal),
    ("add_thresholds", .decimals), ("rsi_floor", .decimal), ("rsi_add_floor", .decimal),
    ("fib_tolerance_pct", .decimal), ("fee_profile", .feeProfile), ("fee_rate", .decimal), ("fib_lookback", .integer),
    ("stop_buffer_pct", .decimal), ("stop_transition_bars", .integer), ("stop_transition_curve", .text),
    ("max_entry_above_fib_pct", .optionalDecimal), ("yellow_max_entry_above_fib_pct", .optionalDecimal),
    ("max_signal_range_pct", .optionalDecimal), ("max_entry_above_signal_close_pct", .optionalDecimal),
    ("block_reverse_fib_resistance", .boolean), ("reverse_fib_lookback", .integer),
    ("reverse_fib_tolerance_pct", .decimal), ("yellow_stop_tightening", .optionalText),
    ("green_stop_tightening", .optionalText), ("green_wide_stop_buffer_pct", .decimal), ("allowed_regimes", .texts),
    ("full_size_regime", .text), ("trading_windows_bjt", .windows), ("trading_windows_et", .windows)]

/-- Source: `research/strategy_releases.py` `STRATEGY_CONFIG_V2_FIELD_NAMES`. -/
def strategyConfigV2Fields : List (String × FieldKind) :=
  strategyConfigV1Fields ++ [("trading_calendar_id", .text), ("trading_calendar_sha256", .text)]

/-- Source: `strategy.py` `FEE_PROFILE_CHOICES`. -/
def feeProfileChoices : List String := ["market", "limit"]

/-- The value of a canonical decimal text, with its sign.
Source: `research/strategy_releases.py` `_require_canonical_decimal`. -/
def canonicalDecimal? (text : String) : Option ℚ :=
  match text.toList with
  | '-' :: rest => (plainDecimal? 28 (String.ofList rest)).bind fun q => if q = 0 then none else some (-q)
  | _ => plainDecimal? 28 text

/-- Source: `research/strategy_releases.py` `_validate_config_value`. -/
def isConfigValue : FieldKind → ConfigValue → Bool
  | .feeProfile, .text s => feeProfileChoices.contains s
  | .decimal, .text s => (canonicalDecimal? s).isSome
  | .optionalDecimal, .none => true
  | .optionalDecimal, .text s => (canonicalDecimal? s).isSome
  | .decimals, .texts xs => !xs.isEmpty && xs.all fun s => (canonicalDecimal? s).isSome
  | .integer, .int _ => true
  | .boolean, .bool _ => true
  | .optionalText, .none => true
  | .optionalText, .text s => s ≠ ""
  | .texts, .texts xs => !xs.isEmpty && xs.all (· ≠ "")
  | .windows, .windows xs => !xs.isEmpty && xs.all fun w => w.1 ≠ "" && w.2 ≠ ""
  | .text, .text s => s ≠ ""
  | _, _ => false

/-- The versions of the payload. Source: `research/strategy_releases.py` `StrategyConfigPayloadV1`,
`StrategyConfigPayloadV2`. -/
inductive PayloadVersion where
  | v1
  | v2
  deriving DecidableEq

/-- `FIELD_NAMES`, with what each field may hold. -/
def PayloadVersion.fields : PayloadVersion → List (String × FieldKind)
  | .v1 => strategyConfigV1Fields
  | .v2 => strategyConfigV2Fields

/-- `VERSION`. -/
def PayloadVersion.number : PayloadVersion → ℤ
  | .v1 => 1
  | .v2 => 2

/-- Source: `research/strategy_releases.py` `StrategyConfigPayloadV1`, `StrategyConfigPayloadV2`. -/
structure StrategyConfigPayload where
  version : PayloadVersion
  values : List (String × ConfigValue)
  /-- The fields of the version in their order. -/
  names : values.map Prod.fst = version.fields.map Prod.fst
  /-- Each field has a value that it may hold. -/
  valid : ((version.fields.zip values).all fun field => isConfigValue field.1.2 field.2.2) = true

/-- The value of a configuration in a JSON text. Source: `research/strategy_releases.py` `_wire_value`. -/
def ConfigValue.wire : ConfigValue → JsonValue
  | .none => .null
  | .bool b => .bool b
  | .int n => .int n
  | .text s => .str s
  | .texts xs => .arr (xs.map .str)
  | .windows xs => .arr (xs.map fun w => .arr [.str w.1, .str w.2])

/-- `float(text)`. A decimal beyond the floats gives an infinity. -/
class FloatReader where
  float : String → PyFloat

/-- The float is a number. -/
def isFinite : PyFloat → Bool
  | .finite _ _ => true
  | _ => false

namespace StrategyConfigPayload

variable (payload : StrategyConfigPayload)

/-- `values.get(name)`. -/
def get? (name : String) : Option ConfigValue := (payload.values.find? fun item => item.1 = name).map Prod.snd

/-- Source: `research/strategy_releases.py` `StrategyConfigPayloadV1.strategy_config_sha256`. -/
def strategyConfigSha256 [Sha256] : HexDigest :=
  canonicalSha256 (.obj [("schema_version", .int payload.version.number),
    ("fields", .obj (payload.values.map fun item => (item.1, item.2.wire)))])

section config

variable [FloatReader]

/-- The floats that a value is read as. -/
def floatsOf (kind : FieldKind) (value : ConfigValue) : List PyFloat :=
  match kind, value with
  | .decimal, .text s | .optionalDecimal, .text s => [FloatReader.float s]
  | .decimals, .texts xs => xs.map FloatReader.float
  | _, _ => []

/-- Source: `research/strategy_releases.py` `_decode_config_value`. -/
def decodeConfigValue (kind : FieldKind) (value : ConfigValue) : JsonValue :=
  match kind, value with
  | .decimal, .text s | .optionalDecimal, .text s => .float (FloatReader.float s)
  | .decimals, .texts xs => .arr (xs.map fun s => .float (FloatReader.float s))
  | _, value => value.wire

/-- The floats of the configuration. -/
def floats : List PyFloat :=
  (payload.version.fields.zip payload.values).flatMap fun field => floatsOf field.1.2 field.2.2

/-- Source: `core/trading_calendar.py` `calendar_sha256`, of `LEGACY_CALENDAR`. -/
def legacyCalendarSha256 [Sha256] : HexDigest :=
  canonicalSha256 (.obj [("id", .str "weekday_windows_v1"), ("timezone", .str "America/New_York"),
    ("window_end", .str "inclusive_minute"), ("weekends_closed", .bool true)])

/-- `asdict(to_strategy_config())`: a configuration of the first version has the calendar of old.
Source: `research/strategy_releases.py` `StrategyConfigPayloadV1.to_strategy_config`. -/
def strategyConfig [Sha256] : JsonValue :=
  .obj (((payload.version.fields.zip payload.values).map fun field =>
      (field.1.1, decodeConfigValue field.1.2 field.2.2)) ++
    match payload.version with
    | .v1 => [("trading_calendar_id", .str "weekday_windows_v1"),
        ("trading_calendar_sha256", .str legacyCalendarSha256.text)]
    | .v2 => [])

/-- The digest of the configuration: canonical JSON has no text for a float that is not a number.
Source: `observations.py` `canonical_payload_sha256`. Fidelity: an integer of any length has a text. -/
def canonicalPayloadSha256 [Sha256] : Except ValueError HexDigest := do
  require (payload.floats.all isFinite) ⟨"Out of range float values are not JSON compliant", []⟩
  pure (canonicalSha256 payload.strategyConfig)

end config

end StrategyConfigPayload

/-! ## Releases -/

/-- What a release is of. Source: `research/strategy_releases.py` `StrategyReleaseCandidateV1`. -/
structure StrategyReleaseCandidate where
  strategyRuleId : String
  strategyName : String
  strategyConfig : StrategyConfigPayload

/-- Source: `research/strategy_releases.py` `StrategyReleaseV1`. -/
structure StrategyRelease where
  candidate : StrategyReleaseCandidate
  strategyReleaseId : String
  releaseId_format : hasPrefixHex "sr1_" 64 strategyReleaseId = true

end MuStrategy.Research
