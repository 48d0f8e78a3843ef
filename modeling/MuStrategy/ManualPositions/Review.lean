import MuStrategy.LiveExit
import MuStrategy.Strategy.MarketContext
import MuStrategy.TrustedData.Evaluate
import MuStrategy.ManualPositions.StageProjection

/-!
# The review of a position

A position whose state and management inputs are confirmed is reviewed against the candles that closed since. Every
candle sees the confirmed snapshot; what it proposes is never applied.

* `managementChecks` — the inputs a review needs.
* `ReviewLoader` — where the candles come from.
* `scanBar`, `scan` — the candles after the confirmation, one after the other.
* `reviewPosition` — all of it.
-/

namespace MuStrategy.ManualPositions

open Lib TrustedData Strategy LiveExit

/-! ## What a review takes from the rest of the program -/

/-- An exception of a review. -/
inductive ReviewError where
  /-- `OSError`, `RuntimeError`, `ValueError`, `KeyError` or `TypeError`: the review reports that it is blocked. -/
  | reported
  /-- Another one: it leaves the review. -/
  | raised

/-- The exceptions of the rules. -/
def ReviewError.ofStrategy : StrategyError → ReviewError
  | .value _ | .calendarUnavailable _ => .reported
  | .zeroDivision | .index => .raised

/-- The exceptions of the ledger. -/
def ReviewError.ofLedger : LedgerError → ReviewError
  | .value _ | .key => .reported
  | _ => .raised

/-- The exceptions of one part, as the review sees them. -/
def seenAs {ε α : Type} (f : ε → ReviewError) : Except ε α → Except ReviewError α
  | .ok a => .ok a
  | .error e => .error (f e)

/-- What a review takes from the rest of the program, as arbitrary functions.
Fidelity: nothing is assumed of them but that they are functions of their arguments. -/
class ReviewLibrary (F : Type) [Number F] where
  /-- `parse_strategy_config_payload(configuration).to_strategy_config()`. -/
  toStrategyConfig : JsonValue → Except LedgerError (StrategyConfig F)
  /-- `baseline_strategy_group(symbol).rule.strategy_rule_id`. -/
  baselineRuleId : String → Except LedgerError String
  /-- `type(payload).from_config(config).strategy_config_sha256`. -/
  effectiveConfigSha256 : JsonValue → StrategyConfig F → Except LedgerError String
  /-- `float(text)`. -/
  floatOfText : String → Except LedgerError F
  /-- `float(d)`. -/
  floatOfDecimal : ℚ → F

export ReviewLibrary (toStrategyConfig baselineRuleId effectiveConfigSha256 floatOfText floatOfDecimal)

/-! ## The inputs -/

/-- A check of the inputs. Source: `position_management.py` `management_checks`. -/
structure ManagementCheck where
  key : String
  label : String
  ok : Bool

section inputs

variable {F : Type} [Number F] [DecimalDigits] [LedgerLibrary] [ReviewLibrary F]

variable (F) in
/-- Whether the configuration is a baseline that can be reviewed. -/
def isBaseline (v : PositionView) (record : ManagementRecord) (config : StrategyConfig F) :
    Except LedgerError Bool := do
  let payload ← parseStrategyConfigPayload record.template.configuration
  let ruleId ← baselineRuleId F v.position.symbol
  pure (record.template.strategyName = "baseline" && record.template.strategyRuleId = ruleId &&
    payload.symbol = v.position.symbol && config.stopTightening = .baseline && config.yellowStopTightening.isNone &&
    config.greenStopTightening.isNone)

/-- The check of the configuration. -/
def configurationCheck (v : PositionView) (record : ManagementRecord) (config : StrategyConfig F) :
    Except LedgerError ManagementCheck := do
  let baseline ← isBaseline F v record config
  if v.currentState.stage.any fun stage => !(1 ≤ stage && stage ≤ config.marginSteps.length) then
    pure ⟨"configuration", "当前阶段超出已选 baseline 的阶段范围，暂不能复核。", false⟩
  else pure ⟨"configuration", "已明确选用并冻结受支持的 baseline 配置", baseline⟩

/-- The check of the mapping: its text says what is wrong. -/
def mappingCheck (v : PositionView) (record : ManagementRecord) : Except LedgerError ManagementCheck :=
  match projectRuleFillsByStage v.projection v.currentState.stage record with
  | .ok _ => pure ⟨"mapping", "全部有效买入已明确映射到连续策略阶段", true⟩
  | .error (.value text) => pure ⟨"mapping", text, false⟩
  | .error e => throw e

/-- The last two checks need inputs. -/
def ruleChecks (F : Type) [Number F] [ReviewLibrary F] (v : PositionView) :
    Except LedgerError (ManagementCheck × ManagementCheck) :=
  match v.managementInputs.latest with
  | none => pure (⟨"configuration", "已明确选用并冻结受支持的 baseline 配置", false⟩,
      ⟨"mapping", "全部有效买入已明确映射到连续策略阶段", false⟩)
  | some latest => do
      let config ← toStrategyConfig (F := F) latest.payload.template.configuration
      let configuration ← configurationCheck v latest.payload config
      let mapping ← mappingCheck v latest.payload
      pure (configuration, mapping)

variable (F) in
/-- Source: `position_management.py` `management_checks`. -/
def managementChecks (v : PositionView) : Except LedgerError (List ManagementCheck) := do
  let current := v.currentState
  let management := v.managementInputs
  let active := v.projection.fills.filter fun row => !row.fill.voided
  let (configuration, mapping) ← ruleChecks F v
  pure [
    ⟨"position", "仍有已记录的多头持仓", v.projection.status = .open⟩,
    ⟨"state", "当前阶段与手记止损已确认",
      current.status = .confirmed && current.stage.isSome && current.stopPrice.isSome⟩,
    ⟨"buys_only", "当前支持有效买入，卖出后的规则映射尚未接入",
      !active.isEmpty && active.all fun row => row.fill.action = .buy⟩,
    ⟨"management", "本次管理输入与成交、状态版本一致", management.status = .confirmed⟩,
    configuration,
    ⟨"anchors", "加仓基准价与初始止损已人工确认", management.latest.any fun latest =>
      latest.payload.entryAnchor.isSome && latest.payload.initialStopPrice.isSome⟩,
    ⟨"leverage", "实际杠杆已人工确认（不从配置默认值推定）",
      management.latest.any fun latest => latest.payload.actualLeverage.isSome⟩,
    mapping]

end inputs

/-! ## The result -/

/-- `status`. -/
inductive ReviewStatus where
  | unknown
  | notOpen
  | needsReview
  | unsupported
  | dataBlocked
  | waiting
  | evaluated
  | partly
  deriving DecidableEq

/-- The text of a status. -/
def ReviewStatus.text : ReviewStatus → String
  | .unknown => "unknown"
  | .notOpen => "not_open"
  | .needsReview => "needs_review"
  | .unsupported => "unsupported"
  | .dataBlocked => "data_blocked"
  | .waiting => "waiting"
  | .evaluated => "evaluated"
  | .partly => "partial"

/-- What a person is told to look at. -/
inductive ReviewOutcome where
  | exitReview
  | addCandidate
  | stopReview
  | noAction
  deriving DecidableEq

/-- The data of an evaluation. -/
structure ReviewEvaluation (F : Type) where
  outcome : ReviewOutcome
  firstOpenMs : ℤ
  lastOpenMs : ℤ
  checkedThroughMs : ℤ
  candleCount : ℕ
  earliestExit : Option (ExitObservation F)
  confirmedStop : F
  suggestedStop : Option F
  closeBelowSuggestedStop : Option Bool
  latestClose : F
  regime : String
  /-- None if it was not asked for. -/
  addition : Option (Option (PyramidAddDecision F))
  projectedFills : List StageFill
  actualLeverage : String
  calendarError : Option String

/-- What an evaluation was made from. The identity of a review, the digest of all this, is left out. -/
structure ReviewProvenance where
  generationId : String
  runId : String
  contentSha256 : List (String × String)
  configurationSha256 : String
  strategyRuleId : String
  fillSequence : ℕ
  stateRevision : ℕ
  managementRevision : ℕ
  requestedDays : ℤ
  indicatorStartMs : ℤ
  hourlyStartMs : ℤ
  evaluatedAtMs : ℤ
  effectiveConfigurationSha256 : Option String := none

/-- Source: `position_management.py` `review_position`, its result. -/
structure ReviewResult (F : Type) where
  status : ReviewStatus
  checks : List ManagementCheck
  evaluatedAtMs : ℤ
  messages : List String
  evaluation : Option (ReviewEvaluation F) := none
  confirmedAtMs : Option ℤ := none
  firstEligibleOpenMs : Option ℤ := none
  dataReason : Option String := none
  calendarError : Option String := none
  provenance : Option ReviewProvenance := none

/-! ## The candles -/

/-- A pinned generation. Source: `contracts.py` `TrustedLoadContext`, as far as it is read. -/
structure LoadContext where
  generationId : String
  runId : String
  nowMs : ℤ
  deriving DecidableEq

/-- Source: `load.py` `LoadTrustedBundleQuery`. -/
structure BundleQuery where
  symbol : String
  intervals : List String
  days : ℤ
  nowMs : ℤ

/-- Source: `contracts.py` `TrustedBundle`, as far as it is read. -/
structure LoadedBundle (F : Type) where
  allowed : Bool
  reason : String
  loadContext : LoadContext
  runId : String
  candlesByInterval : String → Option (List (Candle F))
  contentSha256 : String → Option (Option String)

/-- Where the candles come from: the argument `loader`. Source: `load.py` `LoadTrustedBundle`. -/
structure ReviewLoader (F : Type) where
  openContext : ℤ → Except ReviewError LoadContext
  execute : BundleQuery → LoadContext → Except ReviewError (LoadedBundle F)

/-- `BAR_MS`. -/
def barMs : ℤ := 900000

/-- A sequence of closed candles without a gap. -/
def closedSequence {F : Type} (rows : List (Candle F)) (intervalMs nowMs : ℤ) : Bool :=
  rows.getLast?.any (fun last => last.openTimeMs + intervalMs ≤ nowMs) &&
    (rows.zip rows.tail).all fun pair => pair.2.openTimeMs - pair.1.openTimeMs = intervalMs

/-! ## The scan -/

section scan

variable {F : Type} [Number F] [Eastern]

/-- What the scan knows after some candles. -/
structure ReviewScan (F : Type) where
  latest : Option (ExitObservation F) := none
  earliestExit : Option (ExitObservation F) := none
  calendarError : Option String := none

/-- `text or other`. -/
def orText (text other : Option String) : Option String := if text.any (· ≠ "") then text else other

variable (snapshot : PositionStateSnapshot F) (candles : List (Candle F)) (context : ℤ → Option String)
  (config : StrategyConfig F)

/-- The step of the loop. -/
def scanBar (s : ReviewScan F) (bar : Candle F × ℕ) : Except ReviewError (ReviewScan F) := do
  let regime ← orThrow (context bar.1.openTimeMs) .reported
  let latest ← seenAs .ofStrategy (evaluateExit snapshot bar.1 bar.2 candles regime config)
  pure {
    latest := some latest
    earliestExit := if latest.exitTriggered = some true && s.earliestExit.isNone then some latest else s.earliestExit
    calendarError := orText s.calendarError latest.calendarError }

/-- The loop. -/
def scan (firstIndex : ℕ) : Except ReviewError (ReviewScan F) :=
  (candles.zipIdx.drop firstIndex).foldlM (scanBar snapshot candles context config) {}

end scan

/-! ## All of it -/

section review

variable {F : Type} [Number F] [Eastern] [DecimalDigits] [LedgerLibrary] [ReviewLibrary F]

/-- The inputs of a review that are confirmed. -/
structure Confirmed where
  inputs : Revision ManagementRecord
  stage : ℕ
  stopPrice : String
  entryAnchor : String
  initialStopPrice : String
  actualLeverage : String
  stateConfirmedAtMs : ℤ

/-- The confirmed inputs: what the checks make sure is there. -/
def confirmed (v : PositionView) : Except ReviewError Confirmed := do
  let inputs ← orThrow v.managementInputs.latest .raised
  let stage ← orThrow v.currentState.stage .raised
  let stopPrice ← orThrow v.currentState.stopPrice .raised
  let entryAnchor ← orThrow inputs.payload.entryAnchor .raised
  let initialStopPrice ← orThrow inputs.payload.initialStopPrice .raised
  let actualLeverage ← orThrow inputs.payload.actualLeverage .raised
  let stateConfirmedAtMs ← orThrow v.currentState.confirmedAtMs .raised
  pure ⟨inputs, stage, stopPrice, entryAnchor, initialStopPrice, actualLeverage, stateConfirmedAtMs⟩

/-- The time from which on all inputs were confirmed. -/
def Confirmed.confirmedAtMs (c : Confirmed) : ℤ := max c.inputs.payload.confirmedAtMs c.stateConfirmedAtMs

/-- The first bar that opens after the confirmation. -/
def Confirmed.firstOpenMs (c : Confirmed) : ℤ := (c.confirmedAtMs + barMs - 1) / barMs * barMs

/-- The days of candles to ask for: the interval of the review, and its indicators before. -/
def Confirmed.requestedDays (c : Confirmed) (nowMs : ℤ) : ℤ :=
  max 7 ((nowMs - c.firstOpenMs + dayMs - 1) / dayMs + 2)

/-- The configuration with the confirmed leverage. -/
def Confirmed.config (F : Type) [Number F] [ReviewLibrary F] (c : Confirmed) :
    Except LedgerError (StrategyConfig F) := do
  let config ← toStrategyConfig c.inputs.payload.template.configuration
  let leverage ← floatOfText c.actualLeverage
  pure { config with leverage := leverage }

/-- The snapshot that every candle sees. -/
def Confirmed.snapshot (F : Type) [Number F] [ReviewLibrary F] (c : Confirmed) (projected : List StageFill) :
    Except ReviewError (PositionStateSnapshot F) := do
  let stopPrice ← seenAs .ofLedger (floatOfText c.stopPrice)
  let entryAnchor ← seenAs .ofLedger (floatOfText c.entryAnchor)
  let initialStopPrice ← seenAs .ofLedger (floatOfText c.initialStopPrice)
  let fills : List (PositionFillSnapshot F) :=
    projected.map fun item => ⟨item.timeMs, floatOfDecimal item.price, floatOfDecimal item.units⟩
  if hne : fills ≠ [] then
    pure {
      fills := fills
      fills_ne := hne
      stopPrice := stopPrice
      entryAnchor := entryAnchor
      initialStopPrice := initialStopPrice
      maxStage := c.stage
      stopTransitionFillCount := 0
      stopTransitionStart := 0 }
  else throw .raised

/-- The candles of a review. -/
structure ReviewCandles (F : Type) where
  quarters : List (Candle F)
  hours : List (Candle F)
  provenance : ReviewProvenance

/-- What loading comes to. -/
inductive Loaded (F : Type) where
  | refused (reason : String)
  | candles (loaded : ReviewCandles F)

/-- The candles, or the reason why they are not trusted. -/
def loadCandles (loader : ReviewLoader F) (v : PositionView) (c : Confirmed) (nowMs : ℤ) :
    Except ReviewError (Loaded F) := do
  let days := c.requestedDays nowMs
  let context ← loader.openContext nowMs
  let bundle ← loader.execute ⟨v.position.symbol, ["15m", "1h"], days, nowMs⟩ context
  if !bundle.allowed then pure (.refused bundle.reason)
  else
    require (bundle.loadContext = context && bundle.runId ≠ "" && bundle.runId = context.runId) ReviewError.reported
    let quarters ← orThrow (bundle.candlesByInterval "15m") ReviewError.reported
    let hours ← orThrow (bundle.candlesByInterval "1h") ReviewError.reported
    require (closedSequence quarters barMs nowMs) ReviewError.reported
    require (closedSequence hours hourMs nowMs) ReviewError.reported
    let hashes ← ["5m", "15m", "1h"].mapM fun interval => do
      let digest ← orThrow (bundle.contentSha256 interval) ReviewError.reported
      let digest ← orThrow (digest.filter (· ≠ "")) ReviewError.reported
      pure (interval, digest)
    let firstQuarter ← orThrow quarters.head? ReviewError.reported
    let firstHour ← orThrow hours.head? ReviewError.reported
    let template := c.inputs.payload.template
    pure (.candles ⟨quarters, hours,
      { generationId := context.generationId
        runId := bundle.runId
        contentSha256 := hashes
        configurationSha256 := template.configurationSha256
        strategyRuleId := template.strategyRuleId
        fillSequence := v.projection.fillSequence
        stateRevision := v.currentState.revision
        managementRevision := c.inputs.revision
        requestedDays := days
        indicatorStartMs := firstQuarter.openTimeMs
        hourlyStartMs := firstHour.openTimeMs
        evaluatedAtMs := nowMs }⟩)

/-- The first candle that is not before the first eligible one. -/
def firstIndex? (quarters : List (Candle F)) (firstOpenMs : ℤ) : Option ℕ :=
  quarters.findIdx? fun candle => firstOpenMs ≤ candle.openTimeMs

/-- The range is complete, and the indicators have their history. -/
def completeRange (quarters hours : List (Candle F)) (firstIndex : ℕ) (firstOpenMs : ℤ) : Bool :=
  quarters[firstIndex]?.any (fun candle => candle.openTimeMs = firstOpenMs) && 35 ≤ firstIndex &&
    35 ≤ (hours.filter fun candle => candle.openTimeMs + hourMs ≤ firstOpenMs).length

/-- `values[-back]`. -/
def fromEnd {α : Type} (values : List α) (back : ℕ) : Except ReviewError α :=
  if values.length < back then throw .raised else orThrow values[values.length - back]? .raised

/-- What is proposed for the last candle: an add, if no exit was found. -/
def proposeAddition (snapshot : PositionStateSnapshot F) (quarters : List (Candle F)) (last : Candle F) (regime : String)
    (config : StrategyConfig F) : Except ReviewError (Option (PyramidAddDecision F)) := do
  let closes := quarters.map Candle.closePrice
  let histogram := (macd closes).2.2
  let rsiValue ← fromEnd (rsi 14 closes) 1
  let macdHist ← fromEnd histogram 1
  let previousMacdHist ← fromEnd histogram 2
  seenAs .ofStrategy (decidePyramidAdd snapshot last rsiValue macdHist previousMacdHist regime config)

/-- The evaluation of a scan, or the calendar error that blocks it. -/
def evaluateScan (c : Confirmed) (snapshot : PositionStateSnapshot F) (projected : List StageFill)
    (quarters : List (Candle F)) (firstIndex : ℕ) (context : ℤ → Option String) (config : StrategyConfig F)
    (s : ReviewScan F) : Except ReviewError (ReviewEvaluation F ⊕ String) := do
  let last ← orThrow quarters.getLast? ReviewError.raised
  let latest ← orThrow s.latest ReviewError.raised
  let regime ← orThrow (context last.openTimeMs) ReviewError.reported
  match s.earliestExit, s.calendarError.filter (· ≠ "") with
  | none, some text => pure (.inr text)
  | earliestExit, _ =>
      let addition ← if earliestExit.isNone then
          (proposeAddition snapshot quarters last regime config).map some
        else pure none
      pure (.inl {
        outcome :=
          if earliestExit.isSome then .exitReview
          else if (addition.join).isSome then .addCandidate
          else if snapshot.stopPrice < latest.stopAfterCandleIfOpen then .stopReview
          else .noAction
        firstOpenMs := c.firstOpenMs
        lastOpenMs := last.openTimeMs
        checkedThroughMs := last.openTimeMs + barMs
        candleCount := quarters.length - firstIndex
        earliestExit := earliestExit
        confirmedStop := snapshot.stopPrice
        suggestedStop := if earliestExit.isNone then some latest.stopAfterCandleIfOpen else none
        closeBelowSuggestedStop :=
          if earliestExit.isNone then some latest.latestCloseAtOrBelowTightenedStop else none
        latestClose := last.closePrice
        regime := regime
        addition := addition
        projectedFills := projected
        actualLeverage := c.actualLeverage
        calendarError := s.calendarError })

/-- `except (OSError, RuntimeError, ValueError, KeyError, TypeError)`. -/
def reporting (result : ReviewResult F) (x : Except ReviewError (ReviewResult F)) :
    Except ReviewError (ReviewResult F) :=
  match x with
  | .ok reviewed => .ok reviewed
  | .error .reported => .ok { result with
      status := .dataBlocked
      messages := ["行情或规则输入不足以完整复核本次确认后的区间，请检查来源与覆盖范围。"] }
  | .error .raised => .error .raised

/-- The review on candles with a configuration. -/
def reviewCandles (v : PositionView) (c : Confirmed) (loaded : ReviewCandles F) (firstIndex : ℕ)
    (config : StrategyConfig F) (result : ReviewResult F) : Except ReviewError (ReviewResult F) := do
  let projected ← seenAs .ofLedger (projectRuleFillsByStage v.projection v.currentState.stage c.inputs.payload)
  let snapshot ← c.snapshot F projected
  let context ← seenAs .ofStrategy (buildHourlyContext loaded.quarters loaded.hours)
  let s ← scan snapshot loaded.quarters context config firstIndex
  let evaluated ← evaluateScan c snapshot projected loaded.quarters firstIndex context config s
  match evaluated with
  | .inr text => pure { result with
      status := .dataBlocked
      calendarError := some text
      messages := ["已检查确认止损；参考日历不可用，无法完成退出与加仓条件复核。"] }
  | .inl evaluation =>
      let hidden := evaluation.calendarError.any (· ≠ "")
      pure { result with
        status := if hidden then .partly else .evaluated
        messages := if hidden then ["参考日历不可用；已确认触及退出条件，日历相关风险条件仍未知，加仓未评估。"] else []
        evaluation := some evaluation }

/-- The review on loaded candles. -/
def reviewLoaded (v : PositionView) (c : Confirmed) (loaded : ReviewCandles F) (result : ReviewResult F) :
    Except ReviewError (ReviewResult F) :=
  match firstIndex? loaded.quarters c.firstOpenMs with
  | none => pure { result with
      status := .waiting
      messages := ["等待确认后的第一根完整 15m K 线；不会把当前止损回投到确认前的行情。"] }
  | some firstIndex => do
      require (completeRange loaded.quarters loaded.hours firstIndex c.firstOpenMs) ReviewError.reported
      let config ← seenAs .ofLedger (c.config F)
      let digest ← seenAs .ofLedger (effectiveConfigSha256 c.inputs.payload.template.configuration config)
      let configured := { result with
        provenance := some { loaded.provenance with effectiveConfigurationSha256 := some digest } }
      reporting configured (reviewCandles v c loaded firstIndex config configured)

/-- The review of a position that passes its checks. -/
def reviewConfirmed (loader : ReviewLoader F) (v : PositionView) (nowMs : ℤ) (c : Confirmed) (result : ReviewResult F) :
    Except ReviewError (ReviewResult F) :=
  if nowMs < c.confirmedAtMs then pure { result with
    status := .dataBlocked, messages := ["查询时间早于人工确认时间，暂不能复核。"] }
  else if 180 < c.requestedDays nowMs then pure { result with
    status := .dataBlocked, messages := ["本次确认后的区间超过复核上限，请核对历史记录后重新确认状态。"] }
  else reporting result do
    let loaded ← loadCandles loader v c nowMs
    match loaded with
    | .refused reason => pure { result with
        status := .dataBlocked
        messages := ["可信行情未通过当前交易严格校验，请检查行情来源后重新复核。"]
        dataReason := some reason }
    | .candles loaded =>
        let pinned := { result with provenance := some loaded.provenance }
        reporting pinned (reviewLoaded v c loaded pinned)

/-- The status of a position that does not pass its checks. -/
def refusedStatus (v : PositionView) (checks : List ManagementCheck) : ReviewStatus :=
  if v.projection.status ≠ .open then .notOpen
  else if v.managementInputs.status = .needsReview || v.currentState.status = .needsReview then .needsReview
  else if (checks.any fun check => check.key = "buys_only" && !check.ok) || (v.managementInputs.latest.isSome &&
      checks.any fun check => check.key = "configuration" && !check.ok) then .unsupported
  else .unknown

/-- Source: `position_management.py` `review_position`. -/
def reviewPosition (loader : ReviewLoader F) (v : PositionView) (nowMs : ℤ) : Except ReviewError (ReviewResult F) := do
  let checks ← seenAs .ofLedger (managementChecks F v)
  let result : ReviewResult F :=
    { status := .unknown
      checks := checks
      evaluatedAtMs := nowMs
      messages := (checks.filter fun check => !check.ok).map ManagementCheck.label }
  if !checks.all ManagementCheck.ok then pure { result with status := refusedStatus v checks }
  else
    let c ← confirmed v
    reviewConfirmed loader v nowMs c { result with
      confirmedAtMs := some c.confirmedAtMs, firstEligibleOpenMs := some c.firstOpenMs }

end review

end MuStrategy.ManualPositions
