import MuStrategy.Lib.System
import MuStrategy.ManualPositions.Tables

/-!
# The manual position ledger

The three requests that write to the ledger, each one transaction on its SQLite file.

* `save` — a fill: of a new position, appended to a position, or a revision that corrects or voids a
  fill.
* `saveState`, `saveManagement` — confirmations against the exact revisions the person saw.
* `system` — the ledger as a transition system: a label is a request.

A request that raises leaves the tables as they were. The first one creates the file even then, because
SQLite opens the file before the transaction that is rolled back.
-/

namespace MuStrategy.ManualPositions

open Lib

/-! ## Requests -/

/-- The largest integer of a column, plus one. -/
def columnBound : ℕ := 2 ^ 63

/-- Source: `manual_positions.py` `_request_identity`. -/
structure RequestIdentity where
  requestId : String
  positionId : String
  digest : HexDigest

/-- Source: `manual_positions.py` `_request_identity`. -/
def requestIdentity [LedgerLibrary] (payload : Payload) : Except LedgerError RequestIdentity := do
  let requestId ← identifier (payload.get "request_id")
  let positionId ← identifier (payload.get "position_id")
  pure ⟨requestId, positionId, digest payload⟩

/-- The position an earlier request with this identity was about. Source: `manual_positions.py`
`_saved_request`, on rows given by request identity, hash and position. -/
def savedRequest (rows : List (String × HexDigest × String)) (request : RequestIdentity) :
    Except LedgerError (Option String) :=
  match rows.lookup request.requestId with
  | none => pure none
  | some (hash, positionId) => do
      require (hash = request.digest) (.value "同次提交内容已变化，请重新打开录入页后记录。")
      pure (some positionId)

/-- What identifies the request of a fill revision. -/
def FillRevision.request (r : FillRevision) : String × HexDigest × String :=
  (r.requestId, r.requestHash, r.positionId)

/-- What identifies the request of a confirmation. -/
def Revision.request {α : Type} (r : Revision α) : String × HexDigest × String :=
  (r.requestId, r.requestHash, r.positionId)

/-- The file of the ledger. -/
inductive Store where
  /-- There is no file. -/
  | absent
  /-- The tables that were committed, if any. -/
  | file (tables : Option Tables)

namespace Store

/-- `self.path.exists()`. -/
def exists? : Store → Bool
  | .absent => false
  | .file _ => true

/-- The committed tables. -/
def tables : Store → Option Tables
  | .absent => none
  | .file t => t

/-- `sqlite3.connect(self.path)`: the file is created. -/
def connected (s : Store) : Store := .file s.tables

/-- Source: `manual_positions.py` `ManualPositionLedger.read`. -/
def read [DecimalDigits] [LedgerLibrary] : Store → Except LedgerError (List PositionView)
  | .absent => pure []
  | .file none => throw .operational
  | .file (some t) => t.read

end Store

/-! ## Fills -/

/-- What `save` is asked to do. -/
inductive Command where
  | create
  | append
  | revise
  deriving DecidableEq

instance : PyEnum Command where
  members := [.create, .append, .revise]
  value
    | .create => "create"
    | .append => "append"
    | .revise => "revise"
  find_value command := by cases command <;> decide

/-- `[A-Z0-9]{1,20}-USDT-SWAP`. -/
def isPositionSymbol (value : String) : Bool :=
  let cs := value.toList
  let name := cs.take (cs.length - "-USDT-SWAP".toList.length)
  cs = name ++ "-USDT-SWAP".toList && 1 ≤ name.length && name.length ≤ 20 &&
    name.all fun c => ('A' ≤ c && c ≤ 'Z') || ('0' ≤ c && c ≤ '9')

/-- The alerts of the outbox that a position can be opened on, by event identity. -/
abbrev EntryLookup := String → Except LedgerError (Option EntrySource)

/-- Source: `manual_positions.py` `ManualPositionLedger.entry_source`. -/
def entrySource (entries : EntryLookup) (eventId : String) : Except LedgerError EntrySource := do
  require (isLowerHex 64 eventId) (.value "关联入场事件无效。")
  let source ← entries eventId
  orThrow source (.value "只能关联已存在的入场提醒。")

/-- The position a form opens. -/
structure Opening where
  symbol : String
  unit : QuantityUnit
  label : String
  source : Option EntrySource

/-- The alert named by a form, if any. -/
def openingSource (payload : Payload) (entries : EntryLookup) : Except LedgerError (Option EntrySource) :=
  if payload.getD "event_id" = "" then pure none
  else do
    let source ← entrySource entries (payload.getD "event_id")
    pure (some source)

/-- The checks of a new position. -/
def opening (payload : Payload) (entered : Fill) (entries : EntryLookup) : Except LedgerError Opening := do
  require (entered.action = .buy) (.value "新持仓须由一笔实际买入建立。")
  let symbol ← orThrow (payload.get "symbol") (.value "请填写 USDT 永续标的，例如 MU-USDT-SWAP。")
  require (isPositionSymbol symbol) (.value "请填写 USDT 永续标的，例如 MU-USDT-SWAP。")
  let unit ← orThrow (payload.get "unit" >>= PyEnum.ofValue?) (.value "请明确数量单位。")
  require ((payload.getD "label").toList.length ≤ 80) (.value "持仓标签最多 80 字。")
  let source ← openingSource payload entries
  require (source.all fun s => s.symbol = symbol) (.value "成交标的与关联信号不一致。")
  pure ⟨symbol, unit, payload.getD "label", source⟩

/-- A fill that passed the checks made before the transaction. -/
structure Submission where
  request : RequestIdentity
  command : Command
  entered : Fill
  opening : Option Opening

/-- The opening of a creation. -/
def openingOf (command : Command) (payload : Payload) (entered : Fill) (entries : EntryLookup) :
    Except LedgerError (Option Opening) :=
  if command = .create then do
    let o ← opening payload entered entries
    pure (some o)
  else pure none

section save

variable [DecimalDigits]

/-- The checks of a new request, before the transaction. -/
def checkFill (s : Store) (request : RequestIdentity) (payload : Payload) (nowMs : ℤ) (entries : EntryLookup) :
    Except LedgerError Submission := do
  let command ← orThrow (payload.get "command" >>= PyEnum.ofValue?) (.value "录入动作无效。")
  let entered ← fill payload nowMs
  require (payload.get "confirmed" = some "yes") (.value "请确认填写的是已经发生的实际成交。")
  require (command = .revise || !entered.voided) (.value "只能作废已记录成交。")
  require (command ≠ .revise || entered.note ≠ "") (.value "更正或作废须填写原因。")
  require (command = .create || s.exists?) (.value "持仓记录不存在。")
  let opening ← openingOf command payload entered entries
  pure ⟨request, command, entered, opening⟩

/-- The look-up made before the transaction. -/
def savedFill (s : Store) (request : RequestIdentity) : Except LedgerError (Option String) :=
  match s with
  | .absent => pure none
  | .file none => throw .operational
  | .file (some t) => savedRequest (t.fillRevisions.map FillRevision.request) request

/-- A position to add a fill to: its row, and the fills it has. -/
structure Target where
  position : Position
  isNew : Bool
  history : List FillRow
  fills : List FillRow

/-- The position of a submission, new or read. -/
def target (views : List PositionView) (payload : Payload) (submission : Submission) (nowMs : ℤ) :
    Except LedgerError Target :=
  let id := submission.request.positionId
  match submission.opening with
  | some o => do
      require (views.all fun v => v.position.positionId ≠ id) (.value "该持仓已存在，请从卡片补录成交。")
      pure ⟨⟨id, o.symbol, o.unit, strip o.label, o.source, nowMs⟩, true, [], []⟩
  | none => do
      let v ← orThrow (views.find? fun v => v.position.positionId = id) (.value "持仓记录不存在。")
      require (payload.get "unit" = some (PyEnum.value v.position.unit))
        (.value "数量单位须与此笔持仓一致，请重新打开录入页核对。")
      pure ⟨v.position, false, v.projection.history, v.projection.fills⟩

/-- The fill and the revision of it that a submission records. -/
def fillRevision (payload : Payload) (submission : Submission) (fills : List FillRow) :
    Except LedgerError (String × ℕ) :=
  if submission.command = .revise then do
    let fillId ← identifier (payload.get "fill_id")
    let previous ← orThrow (fills.find? fun row => row.fillId = fillId) (.value "成交不属于此持仓。")
    require (payload.get "expected_revision" = some (toString previous.revision))
      (.value "这笔成交已被更正，请重新打开后核对。")
    pure (fillId, previous.revision + 1)
  else pure (submission.request.requestId, 1)

/-- `INSERT INTO fill_revisions`: the table numbers its rows `1, 2, …`. -/
def Tables.insertFill (t : Tables) (request : RequestIdentity) (positionId : String) (row : FillRow) :
    Except LedgerError (List FillRevision) := do
  require (row.recordedAtMs < columnBound && row.revision < columnBound) .overflow
  require (t.fillRevisions.all fun r => r.requestId ≠ request.requestId &&
    !(r.row.fillId = row.fillId && r.row.revision = row.revision)) .integrity
  require (t.fillRevisions.length + 1 < columnBound) .full
  pure (t.fillRevisions ++
    [⟨⟨row.fill, row.fillId, row.revision, t.fillRevisions.length + 1, row.recordedAtMs⟩,
      request.requestId, request.digest, positionId⟩])

/-- A new fill, inside the transaction. -/
def addFill [LedgerLibrary] (t : Tables) (payload : Payload) (submission : Submission) (nowMs : ℤ) :
    Except LedgerError Tables := do
  let views ← t.read
  let dest ← target views payload submission nowMs
  let (fillId, revision) ← fillRevision payload submission dest.fills
  let candidate : FillRow := ⟨submission.entered, fillId, revision, maxSequence dest.history + 1, nowMs⟩
  let _ ← project (dest.history ++ [candidate])
  let fillRevisions ← t.insertFill submission.request submission.request.positionId candidate
  pure ⟨if dest.isNew then t.positions ++ [dest.position] else t.positions, fillRevisions,
    t.stateRevisions, t.managementRevisions⟩

/-- The transaction of `save`. -/
def commitFill [LedgerLibrary] (tables : Option Tables) (payload : Payload) (submission : Submission)
    (nowMs : ℤ) : Except LedgerError (String × Tables) := do
  let t := tables.getD .empty
  let previous ← savedRequest (t.fillRevisions.map FillRevision.request) submission.request
  match previous with
  | some positionId => pure (positionId, t)
  | none => do
      let t ← addFill t payload submission nowMs
      pure (submission.request.positionId, t)

/-- What a transaction leaves: the tables it committed, or those there were. -/
def Store.after (s : Store) : Except LedgerError (String × Tables) → Store × Except LedgerError String
  | .ok (positionId, t) => (.file (some t), .ok positionId)
  | .error e => (s, .error e)

/-- The part of `save` after a request was identified. -/
def saveIdentified [LedgerLibrary] (s : Store) (request : RequestIdentity) (payload : Payload) (nowMs : ℤ)
    (entries : EntryLookup) : Store × Except LedgerError String :=
  match savedFill s request with
  | .error e => (s, .error e)
  | .ok (some previous) => (s, .ok previous)
  | .ok none =>
      match checkFill s request payload nowMs entries with
      | .error e => (s, .error e)
      | .ok submission => s.connected.after (commitFill s.tables payload submission nowMs)

/-- Source: `manual_positions.py` `ManualPositionLedger.save`. -/
def save [LedgerLibrary] (s : Store) (payload : Payload) (nowMs : ℤ) (entries : EntryLookup) :
    Store × Except LedgerError String :=
  match requestIdentity payload with
  | .error e => (s, .error e)
  | .ok request => saveIdentified s request payload nowMs entries

end save

/-! ## Confirmations -/

section confirm

variable [DecimalDigits] [LedgerLibrary]

/-- `INSERT INTO position_state_revisions`, or `position_management_revisions`. -/
def insertRevision {α : Type} (rows : List (Revision α)) (row : Revision α) :
    Except LedgerError (List (Revision α)) := do
  require (row.revision < columnBound) .overflow
  require (rows.all fun r => r.requestId ≠ row.requestId &&
    !(r.positionId = row.positionId && r.revision = row.revision)) .integrity
  pure (rows ++ [row])

/-- The open position a confirmation is about. -/
def openView (views : List PositionView) (positionId text : String) : Except LedgerError PositionView := do
  let v ← orThrow (views.find? fun v => v.position.positionId = positionId) (.value text)
  require (v.projection.status = .open) (.value text)
  pure v

/-- A new state confirmation, inside the transaction. -/
def addState (t : Tables) (request : RequestIdentity) (payload : Payload) (record : ℕ → StateRecord) :
    Except LedgerError Tables := do
  let views ← t.read
  let v ← openView views request.positionId "仅可确认仍有已记录数量的持仓。"
  require (payload.get "expected_fill_sequence" = some (toString v.projection.fillSequence) &&
      payload.get "expected_state_revision" = some (toString v.currentState.revision))
    (.value "成交或持仓状态已变化，请重新打开最新持仓核对后再保存。")
  let rows ← insertRevision t.states
    ⟨request.positionId, v.currentState.revision + 1, request.requestId, request.digest,
      record v.projection.fillSequence⟩
  pure ⟨t.positions, t.fillRevisions, some rows, t.managementRevisions⟩

/-- The transaction of `save_state`. -/
def commitState (t : Tables) (request : RequestIdentity) (payload : Payload) (record : ℕ → StateRecord) :
    Except LedgerError (String × Tables) := do
  let previous ← savedRequest (t.states.map Revision.request) request
  match previous with
  | some positionId => pure (positionId, t)
  | none => do
      let t ← addState t request payload record
      pure (request.positionId, t)

/-- The state a form describes, but for the fill sequence it is confirmed against. -/
def stateOf (payload : Payload) (nowMs : ℤ) : Except LedgerError (ℕ → StateRecord) := do
  let stageNumber ← stage (payload.getD "stage")
  let stopPrice ← optionalNumber (payload.getD "stop_price") "当前手记止损"
  let noteText ← note (payload.getD "note")
  pure fun fillSequence => ⟨stageNumber, stopPrice, noteText, fillSequence, nowMs⟩

/-- The checked part of `save_state`. -/
def confirmState (s : Store) (payload : Payload) (nowMs : ℤ) : Except LedgerError (String × Tables) := do
  let request ← requestIdentity payload
  require s.exists? (.value "持仓记录不存在。")
  let record ← stateOf payload nowMs
  require (payload.get "confirmed" = some "yes")
    (.value "请确认这些信息对应当前已记录的持仓；不知道的字段请留空。")
  let t ← orThrow s.tables .operational
  commitState t request payload record

/-- Source: `manual_positions.py` `ManualPositionLedger.save_state`. -/
def saveState (s : Store) (payload : Payload) (nowMs : ℤ) : Store × Except LedgerError String :=
  s.after (confirmState s payload nowMs)

/-- The buys that count, in ledger order. -/
def activeBuys (p : Projection) : List FillRow :=
  p.fills.filter fun row => !row.fill.voided && row.fill.action = .buy

/-- The accept check of `project_rule_fills`: the stages proceed from 1 to the current one. Its result is
not used. Source: `position_management.py` `project_rule_fills`. -/
def projectRuleFills (p : Projection) (currentStage : Option ℕ) (record : ManagementRecord) :
    Except LedgerError Unit := do
  let buys := activeBuys p
  require (sameNames (record.fillStages.map Prod.fst) (buys.map FillRow.fillId))
    (.value "请逐笔核对全部有效买入所属的策略阶段。")
  require (sameNames (record.fillRevisions.map Prod.fst) (buys.map FillRow.fillId) &&
      buys.all fun row => record.fillRevisions.lookup row.fillId = some row.revision)
    (.value "成交修订已变化，请重新核对阶段映射。")
  let sequence ← orThrow (buys.mapM fun row => (record.fillStages.lookup row.fillId).join)
    (.value "买入所属阶段尚未全部确认；成交笔数不会自动转换为阶段。")
  require (!sequence.isEmpty) (.value "买入所属阶段尚未全部确认；成交笔数不会自动转换为阶段。")
  let highest := sequence.foldl max 0
  require (sequence = sequence.insertionSort (· ≤ ·) &&
      sequence.all (fun stage => 1 ≤ stage && stage ≤ highest) &&
      (List.range' 1 highest).all (· ∈ sequence))
    (.value "阶段须按成交时间从 1 连续推进；同一阶段可以包含多笔买入。")
  require (currentStage = some highest) (.value "买入阶段映射与已确认的当前阶段不一致。")

/-- The stages a form gives to fills. -/
def suppliedStages (payload : Payload) : Except LedgerError (List (String × Option ℕ)) :=
  (payload.filter fun item => "fill_stage_".toList.isPrefixOf item.1.toList).mapM fun item => do
    let stageNumber ← stage item.2
    pure (String.ofList (item.1.toList.drop "fill_stage_".toList.length), stageNumber)

/-- The optional parameters of a form. -/
structure Parameters where
  entryAnchor : Option String
  initialStopPrice : Option String
  actualLeverage : Option String
  note : String

/-- The parameters of a form. -/
def parameters (payload : Payload) : Except LedgerError Parameters := do
  let entryAnchor ← optionalNumber (payload.getD "entry_anchor") "加仓基准价"
  let initialStopPrice ← optionalNumber (payload.getD "initial_stop_price") "初始止损"
  let actualLeverage ← optionalNumber (payload.getD "actual_leverage") "实际杠杆"
  let noteText ← note (payload.getD "note")
  pure ⟨entryAnchor, initialStopPrice, actualLeverage, noteText⟩

/-- `previous or baseline_configuration(position["symbol"])`. -/
def templateOf (v : PositionView) : Except LedgerError Template :=
  match v.managementInputs.latest with
  | some latest => pure latest.payload.template
  | none => baselineConfiguration v.position.symbol

/-- The check against the stages of the rule, once all of them are known. -/
def checkStages (v : PositionView) (record : ManagementRecord) : Except LedgerError Unit :=
  if (record.fillStages.all fun entry => entry.2.isSome) && v.currentState.stage.isSome then
    projectRuleFills v.projection v.currentState.stage record
  else pure ()

/-- The management inputs a form describes. -/
def managementOf (v : PositionView) (payload : Payload) (values : Parameters) (nowMs : ℤ) :
    Except LedgerError ManagementRecord := do
  require (payload.get "expected_fill_sequence" = some (toString v.projection.fillSequence) &&
      payload.get "expected_state_revision" = some (toString v.currentState.revision) &&
      payload.get "expected_management_revision" = some (toString v.managementRevision))
    (.value "成交、持仓状态或管理输入已变化，请重新打开最新持仓核对。")
  let template ← templateOf v
  require (payload.get "configuration_sha256" = some template.configurationSha256)
    (.value "本页规则配置已变化，请重新打开后核对完整参数。")
  let buys := activeBuys v.projection
  require (1 ≤ buys.length && buys.length ≤ maxMappedFills)
    (.value "当前规则复核最多支持 32 笔有效买入的阶段映射，成交台账仍可正常使用。")
  let supplied ← suppliedStages payload
  require (sameNames (supplied.map Prod.fst) (buys.map FillRow.fillId))
    (.value "请逐笔核对当前全部有效买入的阶段；不知道时保留空白。")
  pure ⟨template, "manual_baseline_selection", values.entryAnchor, values.initialStopPrice,
    values.actualLeverage, values.actualLeverage.map fun _ => "manual_confirmation", supplied,
    buys.map fun row => (row.fillId, row.revision), v.projection.fillSequence, v.currentState.revision,
    nowMs, values.note⟩

/-- New management inputs, inside the transaction. -/
def addManagement (t : Tables) (request : RequestIdentity) (payload : Payload) (values : Parameters)
    (nowMs : ℤ) : Except LedgerError Tables := do
  let views ← t.read
  let v ← openView views request.positionId "仅可为仍有已记录数量的持仓确认管理输入。"
  let record ← managementOf v payload values nowMs
  managementRecord record v.position.symbol
  checkStages v record
  let rows ← insertRevision t.managements
    ⟨request.positionId, v.managementRevision + 1, request.requestId, request.digest, record⟩
  pure ⟨t.positions, t.fillRevisions, t.stateRevisions, some rows⟩

/-- The transaction of `save_management`. -/
def commitManagement (t : Tables) (request : RequestIdentity) (payload : Payload) (values : Parameters)
    (nowMs : ℤ) : Except LedgerError (String × Tables) := do
  let previous ← savedRequest (t.managements.map Revision.request) request
  match previous with
  | some positionId => pure (positionId, t)
  | none => do
      let t ← addManagement t request payload values nowMs
      pure (request.positionId, t)

/-- The checked part of `save_management`. -/
def confirmManagement (s : Store) (payload : Payload) (nowMs : ℤ) : Except LedgerError (String × Tables) := do
  let request ← requestIdentity payload
  require s.exists? (.value "持仓记录不存在。")
  require (payload.get "confirmed" = some "yes")
    (.value "请确认本次选择的规则配置、已知参数与成交阶段归属。")
  let values ← parameters payload
  let t ← orThrow s.tables .operational
  commitManagement t request payload values nowMs

/-- Source: `manual_positions.py` `ManualPositionLedger.save_management`. -/
def saveManagement (s : Store) (payload : Payload) (nowMs : ℤ) : Store × Except LedgerError String :=
  s.after (confirmManagement s payload nowMs)

/-! ## The ledger as a system -/

/-- The methods that write. -/
inductive Method where
  | save
  | saveState
  | saveManagement

/-- A request: its form, a positive clock reading, and the alerts of the outbox at that time. -/
structure Request where
  method : Method
  payload : Payload
  nowMs : ℤ
  entries : EntryLookup
  /-- The clock reads a positive number. -/
  now_pos : 0 < nowMs

/-- The effect and the result of a request. -/
def Store.handle (s : Store) (r : Request) : Store × Except LedgerError String :=
  match r.method with
  | .save => save s r.payload r.nowMs r.entries
  | .saveState => saveState s r.payload r.nowMs
  | .saveManagement => saveManagement s r.payload r.nowMs

/-- The ledger, from the time before its file exists. -/
def system : System Store Request := System.ofFn .absent fun s r => (s.handle r).1

end confirm

end MuStrategy.ManualPositions
