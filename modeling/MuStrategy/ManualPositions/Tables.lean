import MuStrategy.Lib.Table
import MuStrategy.ManualPositions.Projection

/-!
# The tables of the ledger

The SQLite file of the manual position ledger, and what is read from it.

* `Tables` — positions, fill revisions, state confirmations and management inputs. The last two tables
  are created by their first row.
* `managementRecord`, `stateRecord` — the checks a stored record passes each time it is read.
* `Tables.read` — every position with its projection, its current state and its management inputs.
-/

namespace MuStrategy.ManualPositions

open Lib

/-! ## Records -/

/-- The alert a position was opened on. Source: `manual_positions.py` `ManualPositionLedger.entry_source`. -/
structure EntrySource where
  eventId : String
  observationId : String
  symbol : String
  strategyName : String
  signalConfigFingerprint : String
  trustedRunId : String
  deriving DecidableEq

/-- The quantity units. Source: `manual_positions.py` `UNITS`. -/
inductive QuantityUnit where
  | contracts
  | base
  deriving DecidableEq

instance : PyEnum QuantityUnit where
  members := [.contracts, .base]
  value
    | .contracts => "contracts"
    | .base => "base"
  find_value unit := by cases unit <;> decide

/-- A position. Source: `manual_positions.py` `ManualPositionLedger.save`. -/
structure Position where
  positionId : String
  symbol : String
  unit : QuantityUnit
  label : String
  signalSource : Option EntrySource
  createdAtMs : ℤ
  deriving DecidableEq

/-- A confirmed state. Source: `manual_positions.py` `ManualPositionLedger.save_state`. -/
structure StateRecord where
  stage : Option ℕ
  stopPrice : Option String
  note : String
  fillSequence : ℕ
  confirmedAtMs : ℤ

/-- A selectable rule configuration. Source: `position_management.py` `baseline_configuration`. -/
structure Template where
  strategyName : String
  strategyRuleId : String
  configuration : JsonValue
  configurationSha256 : String

/-- Confirmed management inputs. Source: `manual_positions.py` `ManualPositionLedger.save_management`. -/
structure ManagementRecord where
  template : Template
  configurationSource : String
  entryAnchor : Option String
  initialStopPrice : Option String
  actualLeverage : Option String
  leverageSource : Option String
  fillStages : List (String × Option ℕ)
  fillRevisions : List (String × ℕ)
  fillSequence : ℕ
  stateRevision : ℕ
  confirmedAtMs : ℤ
  note : String

/-- A parsed configuration: its digest and its symbol. -/
structure ConfigPayload where
  strategyConfigSha256 : String
  symbol : String

/-- What the ledger takes from the rest of the program, as arbitrary functions.
Fidelity: nothing is assumed of them but that they are functions of their arguments. -/
class LedgerLibrary where
  /-- The digest of a request: `hashlib.sha256(json.dumps(payload, …)).hexdigest()`. -/
  digest : Payload → HexDigest
  /-- Source: `research/strategy_releases.py` `parse_strategy_config_payload`. -/
  parseStrategyConfigPayload : JsonValue → Except LedgerError ConfigPayload
  /-- Source: `position_management.py` `baseline_configuration`. -/
  baselineConfiguration : String → Except LedgerError Template

export LedgerLibrary (digest parseStrategyConfigPayload baselineConfiguration)

/-- `MAX_MAPPED_FILLS`. -/
def maxMappedFills : ℕ := 32

/-- `[a-z0-9]`. -/
def isLowerAlphanumeric (c : Char) : Bool := ('a' ≤ c && c ≤ 'z') || ('0' ≤ c && c ≤ '9')

section checks

variable [DecimalDigits]

/-- `v[1-9]\d*`. -/
def isRuleVersion : List Char → Bool
  | 'v' :: c :: rest => isLeadingDigit c && rest.all isDigit
  | _ => false

/-- `[a-z0-9]+(?:[._][a-z0-9]+)*\.v[1-9]\d*`: the version follows the last point. -/
def isRuleId (value : String) : Bool :=
  let name := (value.toList.rdropWhile (· != '.')).dropLast
  isRuleVersion (value.toList.rtakeWhile (· != '.')) &&
    (name.splitOnP fun c => c = '.' || c = '_').all fun part => !part.isEmpty && part.all isLowerAlphanumeric

/-- A price or leverage that may be missing. -/
def optionalDecimal (value : Option String) (label : String) : Except LedgerError Unit :=
  match value with
  | none => pure ()
  | some text => do
      let _ ← decimal (some text) label
      pure ()

/-- A stage that may be missing. -/
def optionalStage (value : Option ℕ) (error : LedgerError) : Except LedgerError Unit :=
  match value with
  | none => pure ()
  | some stage => require (1 ≤ stage && stage ≤ 99) error

/-- One fill of a mapping. -/
def mappedFill (revisions : List (String × ℕ)) (entry : String × Option ℕ) : Except LedgerError Unit := do
  let _ ← identifier (some entry.1)
  optionalStage entry.2 (.value "invalid mapped stage")
  let revision ← orThrow (revisions.lookup entry.1) .key
  require (1 ≤ revision) (.value "invalid mapped fill revision")

/-- `set(a) == set(b)` on lists of names. -/
def sameNames (a b : List String) : Bool := a.all (· ∈ b) && b.all (· ∈ a)

/-- Source: `manual_positions.py` `_management_record`. -/
def managementRecord [LedgerLibrary] (record : ManagementRecord) (symbol : String) :
    Except LedgerError Unit := do
  let configuration ← parseStrategyConfigPayload record.template.configuration
  require (configuration.strategyConfigSha256 = record.template.configurationSha256 &&
      configuration.symbol = symbol && record.template.strategyName = "baseline" &&
      isRuleId record.template.strategyRuleId && record.configurationSource = "manual_baseline_selection")
    (.value "invalid frozen management configuration")
  optionalDecimal record.entryAnchor "entry_anchor"
  optionalDecimal record.initialStopPrice "initial_stop_price"
  optionalDecimal record.actualLeverage "actual_leverage"
  require (record.leverageSource = record.actualLeverage.map fun _ => "manual_confirmation")
    (.value "invalid leverage source")
  require (1 ≤ record.fillSequence && 0 < record.confirmedAtMs) (.value "invalid management revision")
  let _ ← note record.note
  require (sameNames (record.fillStages.map Prod.fst) (record.fillRevisions.map Prod.fst) &&
      1 ≤ record.fillStages.length && record.fillStages.length ≤ maxMappedFills)
    (.value "invalid management fill mapping")
  forEach (mappedFill record.fillRevisions) record.fillStages

/-- The checks of a state record. Source: `manual_positions.py` `ManualPositionLedger._read`. -/
def stateRecord (record : StateRecord) : Except LedgerError Unit := do
  require (0 < record.fillSequence && 0 < record.confirmedAtMs) (.value "invalid position state record")
  optionalStage record.stage (.value "invalid position stage")
  optionalDecimal record.stopPrice "当前手记止损"
  let _ ← note record.note
  pure ()

end checks

/-! ## Tables -/

/-- A row of `fill_revisions`. -/
structure FillRevision where
  row : FillRow
  requestId : String
  requestHash : HexDigest
  positionId : String

/-- A row of `position_state_revisions` or `position_management_revisions`. -/
structure Revision (α : Type) where
  positionId : String
  revision : ℕ
  requestId : String
  requestHash : HexDigest
  payload : α

/-- The tables, each in the order of its row ids. -/
structure Tables where
  positions : List Position
  fillRevisions : List FillRevision
  stateRevisions : Option (List (Revision StateRecord))
  managementRevisions : Option (List (Revision ManagementRecord))

namespace Tables

/-- The tables a first request creates. -/
def empty : Tables := ⟨[], [], none, none⟩

/-- The rows of `position_state_revisions`. -/
def states (t : Tables) : List (Revision StateRecord) := t.stateRevisions.getD []

/-- The rows of `position_management_revisions`. -/
def managements (t : Tables) : List (Revision ManagementRecord) := t.managementRevisions.getD []

/-- The position with that identity. -/
def position? (t : Tables) (positionId : String) : Option Position :=
  Table.lookup Position.positionId t.positions positionId

/-- `histories[position_id]`. -/
def history (t : Tables) (positionId : String) : List FillRow :=
  (t.fillRevisions.filter fun r => r.positionId = positionId).map FillRevision.row

end Tables

/-- The revisions of a position, `ORDER BY revision`. -/
def revisionsOf {α : Type} (rows : List (Revision α)) (positionId : String) : List (Revision α) :=
  (rows.filter fun r => r.positionId = positionId).insertionSort fun a b => a.revision ≤ b.revision

/-! ## Views -/

/-- Whether the state of a position is confirmed. -/
inductive StateStatus where
  | notOpen
  | unconfirmed
  | needsReview
  | confirmed
  deriving DecidableEq

/-- The current state of a position. Source: `manual_positions.py` `_current_state`. -/
structure CurrentState where
  status : StateStatus
  revision : ℕ
  stage : Option ℕ
  stopPrice : Option String
  confirmedAtMs : Option ℤ

/-- Whether the management inputs of a position are confirmed. -/
inductive ManagementStatus where
  | notOpen
  | unconfigured
  | needsReview
  | confirmed
  deriving DecidableEq

/-- The management inputs of a position. Source: `manual_positions.py` `_current_management`. -/
structure CurrentManagement where
  status : ManagementStatus
  latest : Option (Revision ManagementRecord)

/-- `latest["revision"] if latest else 0`. -/
def latestRevision {α : Type} (history : List (Revision α)) : ℕ :=
  (history.getLast?.map Revision.revision).getD 0

/-- Source: `manual_positions.py` `_current_state`. -/
def currentState (p : Projection) (history : List (Revision StateRecord)) : CurrentState :=
  let latest := history.getLast?
  let status : StateStatus :=
    if p.status ≠ .open then .notOpen
    else match latest with
      | none => .unconfirmed
      | some r => if r.payload.fillSequence ≠ p.fillSequence then .needsReview else .confirmed
  { status
    revision := latestRevision history
    stage := if status = .confirmed then latest.bind fun r => r.payload.stage else none
    stopPrice := if status = .confirmed then latest.bind fun r => r.payload.stopPrice else none
    confirmedAtMs := latest.map fun r => r.payload.confirmedAtMs }

/-- Source: `manual_positions.py` `_current_management`. -/
def currentManagement (p : Projection) (state : CurrentState) (history : List (Revision ManagementRecord)) :
    CurrentManagement :=
  let latest := history.getLast?
  let status : ManagementStatus :=
    if p.status ≠ .open then .notOpen
    else match latest with
      | none => .unconfigured
      | some r =>
          if r.payload.fillSequence ≠ p.fillSequence ∨ r.payload.stateRevision ≠ state.revision then .needsReview
          else .confirmed
  { status, latest }

/-- A position as it is read. Source: `manual_positions.py` `ManualPositionLedger._read`. -/
structure PositionView where
  position : Position
  projection : Projection
  stateHistory : List (Revision StateRecord)
  managementHistory : List (Revision ManagementRecord)

namespace PositionView

/-- `position["current_state"]`. -/
def currentState (v : PositionView) : CurrentState := ManualPositions.currentState v.projection v.stateHistory

/-- `position["management_inputs"]`. -/
def managementInputs (v : PositionView) : CurrentManagement :=
  currentManagement v.projection v.currentState v.managementHistory

/-- `position["management_inputs"]["revision"]`. -/
def managementRevision (v : PositionView) : ℕ := latestRevision v.managementHistory

end PositionView

section read

variable [DecimalDigits]

/-- A position with its projection and histories. -/
def Tables.view (t : Tables) (p : Position) : Except LedgerError PositionView := do
  let projection ← project (t.history p.positionId)
  pure ⟨p, projection, revisionsOf t.states p.positionId, revisionsOf t.managements p.positionId⟩

/-- A stored state confirmation as it is read. -/
def Tables.checkState (t : Tables) (r : Revision StateRecord) : Except LedgerError Unit := do
  stateRecord r.payload
  let _ ← orThrow (t.position? r.positionId) .key
  pure ()

/-- Stored management inputs as they are read. -/
def Tables.checkManagement [LedgerLibrary] (t : Tables) (r : Revision ManagementRecord) :
    Except LedgerError Unit := do
  let p ← orThrow (t.position? r.positionId) .key
  managementRecord r.payload p.symbol

/-- The management inputs of a position are numbered `1, 2, …`. -/
def Tables.checkManagementSequence (t : Tables) (p : Position) : Except LedgerError Unit :=
  let rows := revisionsOf t.managements p.positionId
  require (rows.map Revision.revision = List.range' 1 rows.length)
    (.value "invalid management history sequence")

/-- Every position, the last one first. Source: `manual_positions.py` `ManualPositionLedger._read`. -/
def Tables.read [LedgerLibrary] (t : Tables) : Except LedgerError (List PositionView) := do
  forEach (fun r => require (t.position? r.positionId).isSome .key) t.fillRevisions
  forEach t.checkState t.states
  forEach t.checkManagement t.managements
  forEach t.checkManagementSequence t.positions
  t.positions.reverse.mapM t.view

end read

end MuStrategy.ManualPositions
