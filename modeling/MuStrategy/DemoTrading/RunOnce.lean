import Mathlib.Algebra.Order.Field.Rat
import Mathlib.Logic.Function.Basic
import MuStrategy.Lib.Check
import MuStrategy.Lib.IntText

/-!
# One confirmed demo cycle

The orders `run_once` cancels and submits when it is not a dry run. The account, the universe, what
the scanner says about each symbol and everything the exchange answers are inputs.

* `Broker` — the exchange as an object with state: every call answers or raises.
* `isBotFibLimitOrder`, `expireStaleLimitOrders` — cancel the bot orders the current signal no
  longer backs.
* `scanPhase` — the loop over the scanned symbols, which credits every cancellation to the capacity.
* `submitOne`, `submitAll` — the order submission loop.
* `runOnce` — the cycle.
-/

namespace MuStrategy.DemoTrading

open Lib

/-! ## What the exchange answers -/

/-- What a call raises: the name of the exception. -/
structure Raised where
  errorType : String
  deriving DecidableEq

/-- A response, as the code reads it: the text of its code, its rows and the `sCode` texts among
them. -/
structure Response (ρ : Type) where
  code : String
  sCodes : List String
  data : List ρ
  deriving DecidableEq

/-- Source: `demo_trading.py` `_okx_response_failed`. -/
def Response.failed {ρ : Type} (response : Response ρ) : Bool :=
  !(["", "0"].contains response.code) || response.sCodes.any fun code => !(["", "0"].contains code)

/-- A row of the positions. `pos` is what `_decimal` reads; only whether it is zero matters. -/
structure PositionRow where
  instId : String
  pos : ℚ
  deriving DecidableEq

/-- A row of the open orders; an absent text is empty. -/
structure OrderRow where
  instId : String
  clOrdId : String
  ordId : String
  state : String
  ordType : String
  side : String
  deriving DecidableEq

/-- The exchange, with its own state `β`: every call answers or raises, and may change it. -/
structure Broker (β F : Type) where
  /-- `cancel_order` of an instrument, an order and a client order identifier. -/
  cancelOrder : β → String → Option String → String → Except Raised (Response Unit × β)
  /-- `get_instruments`, and from its row the limit price and the size of an order for the notional;
  `none` when there is no row. -/
  orderSizing : β → String → F → Except Raised (Option (String × ℚ) × β)
  /-- `set_leverage` of an instrument. -/
  setLeverage : β → String → ℤ → Except Raised (Response Unit × β)
  /-- `place_limit_buy` of a size at a price under a client order identifier. -/
  placeLimitBuy : β → String → ℚ → String → String → Except Raised (Response Unit × β)

/-! ## What the scanner answers -/

/-- What the code reads of a scan. Source: `entry/scanner.py` `EntryScanResult`. -/
structure EntryScanResult (F : Type) where
  symbol : String
  action : String
  reason : String
  triggerPrice : Option F
  signalTimeMs : Option ℤ
  deriving DecidableEq

/-- What the evaluation of a symbol comes to: unusable data with a reason, or a scan. -/
inductive Evaluated (F : Type) where
  | dataError (reason : String)
  | scanned (result : EntryScanResult F)
  deriving DecidableEq

/-- Source: `demo_trading.py` `_data_error_scan_result`. -/
def dataErrorScanResult {F : Type} (symbol reason : String) : EntryScanResult F where
  symbol := symbol
  action := "skip"
  reason := reason
  triggerPrice := none
  signalTimeMs := none

/-- The texts of order identifiers. -/
class OrderIdText (F : Type) where
  /-- `f"{price:.8f}"`. -/
  fixed8 : F → String
  /-- `hashlib.sha1(text.encode("utf-8")).hexdigest()`. -/
  sha1 : String → String

variable {F β : Type} [OrderIdText F]

/-- Source: `demo_trading.py` `generate_client_order_id`. -/
def generateClientOrderId (symbol : String) (signalTimeMs : Option ℤ) (triggerPrice : F) : String :=
  let source := symbol ++ ":" ++ intText (signalTimeMs.getD 0) ++ ":" ++
    OrderIdText.fixed8 triggerPrice
  "OD" ++ String.ofList (((OrderIdText.sha1 F source).toList.take 20).map Char.toUpper)

/-! ## The account -/

/-- Source: `demo_trading.py` `_account_context_error`. -/
def accountContextError (positions : Response PositionRow) (openOrders : Response OrderRow) : Bool :=
  !(["", "0"].contains positions.code) || !(["", "0"].contains openOrders.code)

/-- The open positions: the rows whose size is not zero. -/
def openPositions (positions : Response PositionRow) : ℕ :=
  positions.data.countP fun row => row.pos ≠ 0

/-- Source: `demo_trading.py` `_count_open_exposure`. -/
def countOpenExposure (positions : Response PositionRow) (openOrders : Response OrderRow) : ℤ :=
  openPositions positions + openOrders.data.length

/-- Source: `demo_trading.py` `_open_position_inst_ids`. -/
def openPositionInstIds (positions : Response PositionRow) : List String :=
  (positions.data.filter fun row => row.instId ≠ "" && row.pos ≠ 0).map PositionRow.instId

/-- Source: `demo_trading.py` `_open_order_inst_ids`. -/
def openOrderInstIds (rows : List OrderRow) : List String :=
  (rows.filter fun row => row.instId ≠ "").map OrderRow.instId

/-- The rows of one instrument. Source: `demo_trading.py` `_open_order_rows_by_inst_id`. -/
def openOrderRowsByInstId (rows : List OrderRow) (instId : String) : List OrderRow :=
  rows.filter fun row => row.instId ≠ "" && row.instId = instId

/-- Source: `demo_trading.py` `_client_order_ids`. -/
def clientOrderIds (rows : List OrderRow) : List String :=
  (rows.filter fun row => row.clOrdId ≠ "").map OrderRow.clOrdId

/-! ## Expiring stale orders -/

/-- `OD[A-F0-9]{20}`. Source: `demo_trading.py` `BOT_CLIENT_ORDER_ID_PATTERN`. -/
def isBotClientOrderId (text : String) : Bool :=
  match text.toList with
  | 'O' :: 'D' :: digits => digits.length = 20 &&
      digits.all fun c => ('A' ≤ c && c ≤ 'F') || ('0' ≤ c && c ≤ '9')
  | _ => false

/-- Source: `demo_trading.py` `_is_bot_fib_limit_order`. -/
def isBotFibLimitOrder (row : OrderRow) : Bool :=
  let orderType := (if row.ordType = "" then "limit" else row.ordType).toLower
  let side := (if row.side = "" then "buy" else row.side).toLower
  isBotClientOrderId row.clOrdId && ["", "live", "partially_filled"].contains row.state.toLower &&
    orderType = "limit" && side = "buy"

/-- Source: `demo_trading.py` `_matches_active_signal_order`. -/
def matchesActiveSignalOrder (clientOrderId : String) (result : EntryScanResult F) : Bool :=
  match result.triggerPrice with
  | some triggerPrice => result.action = "enter" &&
      clientOrderId = generateClientOrderId result.symbol result.signalTimeMs triggerPrice
  | none => false

/-- What became of a cancellation. -/
inductive ExpiryStatus where
  | expired
  | expireFailed
  deriving DecidableEq

/-- An order whose cancellation was asked for, and what became of it. -/
structure ExpiredOrder where
  symbol : String
  status : ExpiryStatus
  reason : String
  orderId : Option String
  clientOrderId : String
  deriving DecidableEq

/-- Source: `demo_trading.py` `_stale_order_reason`. -/
def staleOrderReason (result : EntryScanResult F) : String :=
  if result.action = "enter" then "superseded_by_current_signal" else result.reason

/-- Source: `demo_trading.py` `_text_or_none`. -/
def textOrNone (text : String) : Option String := if text = "" then none else some text

/-- Cancel the rows that are bot orders and do not match the signal.
Source: `demo_trading.py` `_expire_stale_limit_orders`. -/
def expireStaleLimitOrders (broker : Broker β F) (symbol : String) (result : EntryScanResult F) :
    List OrderRow → β → Except Raised (List ExpiredOrder × β)
  | [], b => .ok ([], b)
  | row :: rows, b =>
      if !isBotFibLimitOrder row || matchesActiveSignalOrder row.clOrdId result then
        expireStaleLimitOrders broker symbol result rows b
      else do
        let (response, b) ← broker.cancelOrder b symbol (textOrNone row.ordId) row.clOrdId
        let (expired, b) ← expireStaleLimitOrders broker symbol result rows b
        pure
          ({ symbol := symbol
             status := if response.failed then .expireFailed else .expired
             reason := staleOrderReason result
             orderId := textOrNone row.ordId
             clientOrderId := row.clOrdId } :: expired, b)

/-! ## The cycle -/

/-- The settings of a cycle. Source: `demo_trading.py` `DemoTradingConfig`. -/
structure DemoTradingConfig where
  maxOpenPositions : ℤ
  leverage : ℤ
  watchlistSymbols : List String
  deriving DecidableEq

/-- The inputs of a cycle. -/
structure Inputs (β F : Type) where
  config : DemoTradingConfig
  broker : Broker β F
  /-- The exchange when the cycle begins. -/
  exchange : β
  positions : Response PositionRow
  openOrders : Response OrderRow
  /-- The universe, or the error of loading it. -/
  universeTickers : Except Raised (List String)
  /-- What the evaluation of a symbol comes to, or raises. -/
  evaluate : String → Except Raised (Evaluated F)

/-- Keep the first of equal entries. Source: `demo_trading.py` `_dedupe_tickers`. -/
def dedupeTickers (tickers : List String) : List String :=
  tickers.foldl (fun seen ticker => if seen.contains ticker then seen else seen ++ [ticker]) []

/-- Source: `readonly_scan.py` `merge_watchlist_tickers`. -/
def mergeWatchlistTickers (tickers watchlistSymbols : List String) : List String :=
  watchlistSymbols.foldl
    (fun merged symbol => if merged.contains symbol then merged else merged ++ [symbol]) tickers

/-- The mutable variables of the scan loop. -/
structure ScanPhase (β F : Type) where
  exchange : β
  existingClientOrderIds : List String
  openOrderInstIds : List String
  openOrderRows : String → List OrderRow
  openExposure : ℤ
  remainingCapacity : ℤ
  expiredOrders : List ExpiredOrder
  scanResults : List (EntryScanResult F)

namespace Inputs

variable (i : Inputs β F)

/-- The universe of the cycle: nothing when the account or the universe cannot be read. -/
def tickers : List String :=
  if accountContextError i.positions i.openOrders then []
  else
    match i.universeTickers with
    | .ok tickers => mergeWatchlistTickers (dedupeTickers tickers) i.config.watchlistSymbols
    | .error _ => []

/-- The rows of the open orders, unless the response failed. -/
def orderRows : List OrderRow := if i.openOrders.failed then [] else i.openOrders.data

/-- The symbols to evaluate. Source: `demo_trading.py` `_tickers_to_scan`. -/
def tickersToScan : List String :=
  let botInstIds := (dedupeTickers (openOrderInstIds i.orderRows)).filter fun instId =>
    (openOrderRowsByInstId i.orderRows instId).any isBotFibLimitOrder
  mergeWatchlistTickers i.tickers botInstIds

/-- The exposure the cycle starts from. -/
def openExposure : ℤ :=
  if accountContextError i.positions i.openOrders then 0
  else countOpenExposure i.positions i.openOrders

/-- The variables before the scan loop. -/
def scanStart : ScanPhase β F where
  exchange := i.exchange
  existingClientOrderIds := clientOrderIds i.orderRows
  openOrderInstIds := openOrderInstIds i.orderRows
  openOrderRows := openOrderRowsByInstId i.orderRows
  openExposure := i.openExposure
  remainingCapacity := max 0 (i.config.maxOpenPositions - i.openExposure)
  expiredOrders := []
  scanResults := []

end Inputs

/-- Book the cancellations of a symbol: the ones that succeeded leave the order book, and their
number is taken from the exposure and added to the capacity.
Source: `demo_trading.py` `run_once`. -/
def ScanPhase.bookExpirations (p : ScanPhase β F) (symbol : String) (stale : List ExpiredOrder) :
    ScanPhase β F :=
  let successful := stale.filter fun order => order.status = .expired
  let clientOrderIds := (successful.map ExpiredOrder.clientOrderId).filter (· ≠ "")
  let orderIds := successful.filterMap ExpiredOrder.orderId
  let remaining := (p.openOrderRows symbol).filter fun row =>
    !clientOrderIds.contains row.clOrdId && !orderIds.contains row.ordId
  if successful.isEmpty then { p with expiredOrders := p.expiredOrders ++ stale }
  else
    { p with
      expiredOrders := p.expiredOrders ++ stale
      existingClientOrderIds := p.existingClientOrderIds.filter (!clientOrderIds.contains ·)
      openOrderRows := Function.update p.openOrderRows symbol remaining
      openOrderInstIds :=
        if remaining.isEmpty then p.openOrderInstIds.filter (· ≠ symbol) else p.openOrderInstIds
      openExposure := max 0 (p.openExposure - successful.length)
      remainingCapacity := p.remainingCapacity + successful.length }

/-- One symbol of the scan loop. Source: `demo_trading.py` `run_once`. -/
def scanSymbol (i : Inputs β F) (p : ScanPhase β F) (symbol : String) :
    Except Raised (ScanPhase β F) := do
  let evaluated ← i.evaluate symbol
  let (result, scanResults) :=
    match evaluated with
    | .dataError reason => (dataErrorScanResult symbol reason, p.scanResults)
    | .scanned result => (result, p.scanResults ++ [result])
  let (stale, exchange) ← expireStaleLimitOrders i.broker symbol result (p.openOrderRows symbol)
    p.exchange
  pure ({ p with exchange := exchange, scanResults := scanResults }.bookExpirations symbol stale)

/-- The scan loop. Source: `demo_trading.py` `run_once`. -/
def scanPhase (i : Inputs β F) : Except Raised (ScanPhase β F) :=
  i.tickersToScan.foldlM (scanSymbol i) i.scanStart

/-- What became of an order plan. -/
inductive PlanStatus where
  | blocked
  | submitted
  deriving DecidableEq

/-- An order plan. Source: `demo_trading.py` `_build_order_plan`. -/
structure OrderPlan where
  symbol : String
  clientOrderId : String
  status : PlanStatus
  reason : String
  deriving DecidableEq

/-- A scan that asks for an entry: the symbol may be entered, and there is a trigger price. -/
def entryTrigger (eligible : List String) (result : EntryScanResult F) : Option F :=
  if eligible.contains result.symbol && result.action = "enter" then result.triggerPrice else none

/-- The plan of a scan, blocked for a reason. -/
def blockedPlan (result : EntryScanResult F) (triggerPrice : F) (reason : String) : OrderPlan where
  symbol := result.symbol
  clientOrderId := generateClientOrderId result.symbol result.signalTimeMs triggerPrice
  status := .blocked
  reason := reason

/-- The plan of a scan, submitted. -/
def submittedPlan (result : EntryScanResult F) (triggerPrice : F) : OrderPlan where
  symbol := result.symbol
  clientOrderId := generateClientOrderId result.symbol result.signalTimeMs triggerPrice
  status := .submitted
  reason := result.reason

/-- What the gates behind the capacity check read besides the exchange. -/
structure Gates where
  openOrderInstIds : List String
  openPositionInstIds : List String

/-- The gates behind the capacity check: the plan, and the exchange after the calls.
Source: `demo_trading.py` `run_once`. -/
def tryEntry (i : Inputs β F) (gates : Gates) (existingClientOrderIds : List String)
    (result : EntryScanResult F) (triggerPrice : F) (b : β) : Except Raised (OrderPlan × β) := do
  let clientOrderId := generateClientOrderId result.symbol result.signalTimeMs triggerPrice
  let blocked := blockedPlan result triggerPrice
  if existingClientOrderIds.contains clientOrderId then
    pure (blocked "duplicate_client_order_id", b)
  else if gates.openOrderInstIds.contains result.symbol then
    pure (blocked "symbol_order_already_open", b)
  else if gates.openPositionInstIds.contains result.symbol then
    pure (blocked "symbol_position_already_open", b)
  else do
    let (sizing, b) ← i.broker.orderSizing b result.symbol triggerPrice
    match sizing with
    | none => pure (blocked "order_size_below_lot", b)
    | some (limitPrice, size) =>
        if size ≤ 0 then pure (blocked "order_size_below_lot", b)
        else do
          let (leverage, b) ← i.broker.setLeverage b result.symbol i.config.leverage
          if leverage.failed then pure (blocked "leverage_setup_failed", b)
          else do
            let (response, b) ← i.broker.placeLimitBuy b result.symbol size limitPrice clientOrderId
            if response.failed then pure (blocked "order_placement_failed", b)
            else pure (submittedPlan result triggerPrice, b)

/-- The mutable variables of the submission loop. -/
structure Submission (β : Type) where
  exchange : β
  existingClientOrderIds : List String
  remainingCapacity : ℤ
  orders : List OrderPlan

/-- Book a plan: a submitted one takes its client order identifier and one unit of capacity. -/
def Submission.book (s : Submission β) (plan : OrderPlan) (exchange : β) : Submission β :=
  if plan.status = .submitted then
    { exchange := exchange
      existingClientOrderIds := plan.clientOrderId :: s.existingClientOrderIds
      remainingCapacity := s.remainingCapacity - 1
      orders := s.orders ++ [plan] }
  else { s with exchange := exchange, orders := s.orders ++ [plan] }

/-- One scan of the submission loop. Source: `demo_trading.py` `run_once`. -/
def submitOne (i : Inputs β F) (gates : Gates) (s : Submission β) (result : EntryScanResult F) :
    Except Raised (Submission β) :=
  match entryTrigger i.tickers result with
  | none => .ok s
  | some triggerPrice =>
      if s.remainingCapacity ≤ 0 then
        .ok { s with orders := s.orders ++
          [blockedPlan result triggerPrice "max_open_exposure_reached"] }
      else do
        let (plan, exchange) ← tryEntry i gates s.existingClientOrderIds result triggerPrice
          s.exchange
        pure (s.book plan exchange)

/-- The submission loop; an error ends it after the orders already submitted.
Source: `demo_trading.py` `run_once`. -/
def submitAll (i : Inputs β F) (gates : Gates) :
    List (EntryScanResult F) → Submission β → Submission β × Option Raised
  | [], s => (s, none)
  | result :: results, s =>
      match submitOne i gates s result with
      | .ok s => submitAll i gates results s
      | .error error => (s, some error)

/-- The orders of a cycle. -/
structure Report where
  openExposure : ℤ
  orders : List OrderPlan
  expiredOrders : List ExpiredOrder
  raised : Option Raised
  deriving DecidableEq

/-- What the gates read after the scan loop. -/
def gatesAfter (i : Inputs β F) (p : ScanPhase β F) : Gates where
  openOrderInstIds := p.openOrderInstIds
  openPositionInstIds :=
    if accountContextError i.positions i.openOrders then [] else openPositionInstIds i.positions

/-- The variables before the submission loop. -/
def submissionStart (p : ScanPhase β F) : Submission β where
  exchange := p.exchange
  existingClientOrderIds := p.existingClientOrderIds
  remainingCapacity := p.remainingCapacity
  orders := []

/-- A confirmed demo cycle. An error of the scan loop ends it before any order is submitted.
Source: `demo_trading.py` `run_once`. -/
def runOnce (i : Inputs β F) : Report :=
  match scanPhase i with
  | .error error =>
      { openExposure := i.openExposure, orders := [], expiredOrders := [], raised := some error }
  | .ok p =>
      let (s, raised) := submitAll i (gatesAfter i p) p.scanResults (submissionStart p)
      { openExposure := p.openExposure
        orders := s.orders
        expiredOrders := p.expiredOrders
        raised := raised }

end MuStrategy.DemoTrading
