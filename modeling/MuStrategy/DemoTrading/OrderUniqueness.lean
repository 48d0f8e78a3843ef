import MuStrategy.DemoTrading.ExposureCap
import MuStrategy.Entry.Scanner

/-!
# The orders of a demo cycle are unique

* `PlaceCall`, `runCalls` — the calls of `place_limit_buy` a cycle makes, read off the gates of
  `tryEntry`; `submitted_eq_accepted` — the submitted plans are the accepted ones.
* `OrdersUnique` — every call is for an eligible instrument without position and without an order
  that was not cancelled, under an identifier nothing uses; no two are for one instrument.
* `Booked` — what the scan loop keeps about the rows of the account: a row that was not cancelled is
  still in the tables, an identifier that left them belongs to a cancelled order.
* `SetsFit` — what an account has to satisfy. A response of the open orders whose code is good and
  whose rows are not leaves the tables empty, and the identifiers are one table for all
  instruments, so that a cancellation also forgets the order of another instrument.
* `probe` — a cycle on one signal, which shows what an account lets through.
* `ordersUnique_iff` — the account fits exactly when every cycle on it places its orders well.
-/

namespace MuStrategy.DemoTrading

open Lib

variable {F β : Type} [OrderIdText F]

/-! ## The calls of a cycle -/

/-- A call of `place_limit_buy`, and whether the exchange accepted it. -/
structure PlaceCall where
  symbol : String
  clientOrderId : String
  accepted : Bool
  deriving DecidableEq

/-- Whether the exchange answered, and the response did not fail. -/
def wasAccepted {ρ : Type} : Except Raised (Response ρ × β) → Bool
  | .ok (response, _) => !response.failed
  | .error _ => false

/-- The call behind the gates of `tryEntry`.
Source: `demo_trading.py` `run_once`. -/
def entryCall (i : Inputs β F) (gates : Gates) (existingClientOrderIds : List String)
    (result : EntryScanResult F) (triggerPrice : F) (b : β) : Option PlaceCall :=
  let clientOrderId := generateClientOrderId result.symbol result.signalTimeMs triggerPrice
  if existingClientOrderIds.contains clientOrderId then none
  else if gates.openOrderInstIds.contains result.symbol then none
  else if gates.openPositionInstIds.contains result.symbol then none
  else
    match i.broker.orderSizing b result.symbol triggerPrice with
    | .ok (some (limitPrice, size), b) =>
        if size ≤ 0 then none
        else
          match i.broker.setLeverage b result.symbol i.config.leverage with
          | .ok (leverage, b) =>
              if leverage.failed then none
              else some
                { symbol := result.symbol
                  clientOrderId := clientOrderId
                  accepted := wasAccepted
                    (i.broker.placeLimitBuy b result.symbol size limitPrice clientOrderId) }
          | .error _ => none
    | .ok (none, _) | .error _ => none

/-- The call of one scan of the submission loop. Source: `demo_trading.py` `run_once`. -/
def submitCall (i : Inputs β F) (gates : Gates) (s : Submission β) (result : EntryScanResult F) :
    Option PlaceCall :=
  match entryTrigger i.tickers result with
  | none => none
  | some triggerPrice =>
      if s.remainingCapacity ≤ 0 then none
      else entryCall i gates s.existingClientOrderIds result triggerPrice s.exchange

/-- The calls of the submission loop, the one that raises included.
Source: `demo_trading.py` `run_once`. -/
def submitCalls (i : Inputs β F) (gates : Gates) :
    List (EntryScanResult F) → Submission β → List PlaceCall
  | [], _ => []
  | result :: results, s =>
      (submitCall i gates s result).toList ++
        match submitOne i gates s result with
        | .ok s => submitCalls i gates results s
        | .error _ => []

/-- The call of a submitted plan. -/
def submittedCall : Except Raised (OrderPlan × β) → Option PlaceCall
  | .ok (plan, _) =>
      if plan.status = .submitted then some ⟨plan.symbol, plan.clientOrderId, true⟩ else none
  | .error _ => none

/-- The calls of the submitted plans. -/
def submittedCalls (orders : List OrderPlan) : List PlaceCall :=
  (orders.filter fun plan => plan.status = .submitted).map fun plan =>
    ⟨plan.symbol, plan.clientOrderId, true⟩

/-- The calls of a cycle. Source: `demo_trading.py` `run_once`. -/
def runCalls (i : Inputs β F) : List PlaceCall :=
  match scanPhase i with
  | .error _ => []
  | .ok p => submitCalls i (gatesAfter i p) p.scanResults (submissionStart p)

/-! ## The property -/

/-- A row of the open orders is one of the instrument. -/
def OrderRow.On (row : OrderRow) (symbol : String) : Prop := row.instId ≠ "" ∧ row.instId = symbol

/-- A row of the positions is one of the instrument, and it is not empty. -/
def PositionRow.On (row : PositionRow) (symbol : String) : Prop :=
  row.instId ≠ "" ∧ row.instId = symbol ∧ row.pos ≠ 0

/-- A cancellation of the instrument that succeeded named the row by one of its identifiers. -/
def Cancelled (expiredOrders : List ExpiredOrder) (row : OrderRow) : Prop :=
  ∃ order ∈ expiredOrders, order.status = .expired ∧ order.symbol = row.instId ∧
    (order.clientOrderId = row.clOrdId ∨ order.orderId = some row.ordId)

/-- What a call of a cycle has to satisfy. -/
structure PlacedWell (i : Inputs β F) (call : PlaceCall) : Prop where
  accountRead : accountContextError i.positions i.openOrders = false
  eligible : call.symbol ∈ i.tickers
  loaded : ∃ result, i.evaluate call.symbol = .ok (.scanned result)
  noPosition : ∀ row ∈ i.positions.data, ¬ row.On call.symbol
  noOrder : ∀ row ∈ i.openOrders.data, row.On call.symbol → Cancelled (runOnce i).expiredOrders row
  freshId : ∀ row ∈ i.openOrders.data, row.clOrdId = call.clientOrderId →
    Cancelled (runOnce i).expiredOrders row

/-- The orders of a cycle are well placed, no two are for one instrument, and none has the
identifier of an earlier one. -/
structure OrdersUnique (i : Inputs β F) : Prop where
  placed : ∀ call ∈ runCalls i, PlacedWell i call
  instruments : (runCalls i).Pairwise fun call call' => call.symbol ≠ call'.symbol
  identifiers : (runCalls i).Pairwise fun call call' =>
    call.accepted → call.clientOrderId ≠ call'.clientOrderId

/-- A scan is one of the symbol it was asked for. Source: `entry/scanner.py` `scan_entry`. -/
def ScansOwn (i : Inputs β F) : Prop :=
  ∀ symbol result, i.evaluate symbol = .ok (.scanned result) → result.symbol = symbol

omit [OrderIdText F] in
/-- The scanner a cycle runs by default scans the symbol it is asked for. -/
lemma scansOwn_of_scanEntry [Number F] [Strategy.Eastern] {i : Inputs β F}
    (h : ∀ symbol result, i.evaluate symbol = .ok (.scanned result) →
      ∃ candles15m candles1h config lookbackBars, ∃ maxFibDistancePct : F, ∃ scan,
        Entry.scanEntry symbol candles15m candles1h config lookbackBars maxFibDistancePct = .ok scan ∧
          result.symbol = scan.symbol) : ScansOwn i := by
  intro symbol result hresult
  obtain ⟨_, _, _, _, _, scan, hscan, hsymbol⟩ := h symbol result hresult
  exact hsymbol.trans (Entry.scanEntry_symbol hscan)

/-! ## The submission loop -/

section submission

variable {i : Inputs β F} {gates : Gates}

/-- A call passed every gate of its scan. -/
lemma entryCall_spec {ids : List String} {result : EntryScanResult F} {triggerPrice : F} {b : β}
    {call : PlaceCall} (h : entryCall i gates ids result triggerPrice b = some call) :
    call.symbol = result.symbol ∧
      call.clientOrderId = generateClientOrderId result.symbol result.signalTimeMs triggerPrice ∧
      call.clientOrderId ∉ ids ∧ call.symbol ∉ gates.openOrderInstIds ∧
      call.symbol ∉ gates.openPositionInstIds := by
  unfold entryCall at h
  simp only [ite_eq_iff, reduceCtorEq, and_false, false_or, List.contains_iff_mem] at h
  obtain ⟨hids, horders, hpositions, h⟩ := h
  split at h
  · simp only [ite_eq_iff, reduceCtorEq, and_false, false_or] at h
    obtain ⟨-, h⟩ := h
    split at h
    · simp only [ite_eq_iff, reduceCtorEq, and_false, false_or, Option.some.injEq] at h
      obtain ⟨-, rfl⟩ := h
      exact ⟨rfl, rfl, hids, horders, hpositions⟩
    · cases h
  · cases h
  · cases h

/-- A call is one behind the gates of a scan that asks for an entry. -/
lemma exists_of_submitCall {s : Submission β} {result : EntryScanResult F} {call : PlaceCall}
    (h : submitCall i gates s result = some call) :
    ∃ triggerPrice, entryTrigger i.tickers result = some triggerPrice ∧
      entryCall i gates s.existingClientOrderIds result triggerPrice s.exchange = some call := by
  unfold submitCall at h
  cases htrigger : entryTrigger i.tickers result with
  | none => simp [htrigger] at h
  | some triggerPrice =>
      simp only [htrigger, ite_eq_iff, reduceCtorEq, and_false, false_or] at h
      exact ⟨triggerPrice, rfl, h.2⟩

/-- The accepted call of an attempt is the one of its submitted plan. -/
lemma entryCall_accepted (ids : List String) (result : EntryScanResult F) (triggerPrice : F) (b : β) :
    (entryCall i gates ids result triggerPrice b).filter PlaceCall.accepted =
      submittedCall (tryEntry i gates ids result triggerPrice b) := by
  unfold entryCall tryEntry
  dsimp only
  by_cases hids : ids.contains (generateClientOrderId result.symbol result.signalTimeMs triggerPrice)
  · rw [if_pos hids, if_pos hids]
    rfl
  rw [if_neg hids, if_neg hids]
  by_cases horders : gates.openOrderInstIds.contains result.symbol
  · rw [if_pos horders, if_pos horders]
    rfl
  rw [if_neg horders, if_neg horders]
  by_cases hpositions : gates.openPositionInstIds.contains result.symbol
  · rw [if_pos hpositions, if_pos hpositions]
    rfl
  rw [if_neg hpositions, if_neg hpositions]
  rcases i.broker.orderSizing b result.symbol triggerPrice with error | ⟨_ | ⟨limitPrice, size⟩, b⟩
  · rfl
  · rfl
  dsimp only [ok_bind]
  by_cases hsize : size ≤ 0
  · rw [if_pos hsize, if_pos hsize]
    rfl
  rw [if_neg hsize, if_neg hsize]
  rcases i.broker.setLeverage b result.symbol i.config.leverage with error | ⟨leverage, b⟩
  · rfl
  dsimp only [ok_bind]
  by_cases hleverage : leverage.failed = true
  · rw [if_pos hleverage, if_pos hleverage]
    rfl
  rw [if_neg hleverage, if_neg hleverage]
  rcases i.broker.placeLimitBuy b result.symbol size limitPrice
    (generateClientOrderId result.symbol result.signalTimeMs triggerPrice) with error | ⟨response, b⟩
  · rfl
  dsimp only [ok_bind, wasAccepted]
  by_cases hresponse : response.failed = true
  · rw [if_pos hresponse, hresponse]
    rfl
  · rw [if_neg hresponse, Bool.eq_false_iff.mpr hresponse]
    rfl

/-- An iteration books the accepted call of its scan, and nothing else. -/
lemma submitOne_spec (i : Inputs β F) (gates : Gates) (s : Submission β) (result : EntryScanResult F) :
    match submitOne i gates s result with
    | .ok s' =>
        s'.existingClientOrderIds =
            ((submitCall i gates s result).filter PlaceCall.accepted).toList.map PlaceCall.clientOrderId ++
              s.existingClientOrderIds ∧
          submittedCalls s'.orders =
            submittedCalls s.orders ++ ((submitCall i gates s result).filter PlaceCall.accepted).toList
    | .error _ => (submitCall i gates s result).filter PlaceCall.accepted = none := by
  unfold submitOne submitCall
  cases htrigger : entryTrigger i.tickers result with
  | none => simp
  | some triggerPrice =>
      by_cases hcapacity : s.remainingCapacity ≤ 0
      · simp [hcapacity, submittedCalls, blockedPlan]
      simp only [if_neg hcapacity, entryCall_accepted]
      rcases tryEntry i gates s.existingClientOrderIds result triggerPrice s.exchange with
        error | ⟨plan, exchange⟩
      · rfl
      · by_cases hstatus : plan.status = .submitted
        · simp [submittedCall, submittedCalls, Submission.book, hstatus, pure, Except.pure]
        · simp [submittedCall, submittedCalls, Submission.book, hstatus, pure, Except.pure]

/-- The accepted calls of the loop are the plans it submits. -/
lemma submitAll_submittedCalls (results : List (EntryScanResult F)) (s : Submission β) :
    submittedCalls (submitAll i gates results s).1.orders =
      submittedCalls s.orders ++ (submitCalls i gates results s).filter PlaceCall.accepted := by
  induction results generalizing s with
  | nil => simp [submitAll, submitCalls]
  | cons result results ih =>
      have hspec := submitOne_spec i gates s result
      have hhead : ((submitCall i gates s result).toList).filter PlaceCall.accepted =
          ((submitCall i gates s result).filter PlaceCall.accepted).toList := by
        cases submitCall i gates s result with
        | none => rfl
        | some call => cases haccepted : call.accepted <;> simp [Option.filter, haccepted]
      rw [submitAll, submitCalls, List.filter_append, hhead]
      cases hone : submitOne i gates s result with
      | error error =>
          rw [hone] at hspec
          simp [hspec]
      | ok s' =>
          rw [hone] at hspec
          dsimp only at hspec ⊢
          rw [ih, hspec.2, List.append_assoc]

/-- The calls of the loop go through the scans in order. -/
lemma submitCalls_sublist (i : Inputs β F) (gates : Gates) (results : List (EntryScanResult F))
    (s : Submission β) :
    ((submitCalls i gates results s).map PlaceCall.symbol).Sublist
      (results.map EntryScanResult.symbol) := by
  induction results generalizing s with
  | nil => exact List.Sublist.slnil
  | cons result results ih =>
      have htail : ((match submitOne i gates s result with
          | .ok s => submitCalls i gates results s
          | .error _ => []).map PlaceCall.symbol).Sublist (results.map EntryScanResult.symbol) := by
        cases submitOne i gates s result with
        | error error => exact List.nil_sublist _
        | ok s' => exact ih s'
      rw [submitCalls, List.map_append, List.map_cons]
      cases hcall : submitCall i gates s result with
      | none => exact htail.cons _
      | some call =>
          obtain ⟨triggerPrice, hentry⟩ := exists_of_submitCall hcall
          rw [← (entryCall_spec hentry.2).1]
          exact htail.cons_cons _

/-- Every call of the loop is one of a scan that asks for an entry, and passed the gates with the
identifiers from before the loop at least. -/
lemma submitCalls_spec {results : List (EntryScanResult F)} {s : Submission β} {call : PlaceCall}
    (h : call ∈ submitCalls i gates results s) :
    ∃ result ∈ results, ∃ triggerPrice, entryTrigger i.tickers result = some triggerPrice ∧
      call.symbol = result.symbol ∧
      call.clientOrderId = generateClientOrderId result.symbol result.signalTimeMs triggerPrice ∧
      call.clientOrderId ∉ s.existingClientOrderIds ∧ call.symbol ∉ gates.openOrderInstIds ∧
      call.symbol ∉ gates.openPositionInstIds := by
  induction results generalizing s with
  | nil => cases h
  | cons result results ih =>
      rw [submitCalls, List.mem_append, Option.mem_toList] at h
      rcases h with hcall | hcall
      · obtain ⟨triggerPrice, htrigger, hentry⟩ := exists_of_submitCall hcall
        exact ⟨result, List.mem_cons_self, triggerPrice, htrigger, entryCall_spec hentry⟩
      · have hspec := submitOne_spec i gates s result
        cases hone : submitOne i gates s result with
        | error error =>
            rw [hone] at hcall
            cases hcall
        | ok s' =>
            rw [hone] at hcall hspec
            obtain ⟨result', hmem, triggerPrice, htrigger, hsymbol, hid, hfresh, hgates⟩ := ih hcall
            -- the loop only adds identifiers
            rw [hspec.1, List.mem_append, not_or] at hfresh
            exact ⟨result', List.mem_cons_of_mem _ hmem, triggerPrice, htrigger, hsymbol, hid,
              hfresh.2, hgates⟩

/-- An accepted call takes its identifier from the later ones. -/
lemma submitCalls_identifiers (results : List (EntryScanResult F)) (s : Submission β) :
    (submitCalls i gates results s).Pairwise fun call call' =>
      call.accepted → call.clientOrderId ≠ call'.clientOrderId := by
  induction results generalizing s with
  | nil => exact List.Pairwise.nil
  | cons result results ih =>
      have hspec := submitOne_spec i gates s result
      rw [submitCalls]
      cases hone : submitOne i gates s result with
      | error error => cases submitCall i gates s result <;> simp
      | ok s' =>
          rw [hone] at hspec
          cases hcall : submitCall i gates s result with
          | none => exact ih s'
          | some call =>
              refine List.Pairwise.cons ?_ (ih s')
              intro call' hcall' haccepted heq
              obtain ⟨-, -, -, -, -, -, hfresh, -⟩ := submitCalls_spec hcall'
              apply hfresh
              rw [hspec.1, hcall, ← heq]
              simp [Option.filter, haccepted]

end submission

/-- The submitted plans of a cycle are its accepted calls. -/
theorem submitted_eq_accepted (i : Inputs β F) :
    submittedCalls (runOnce i).orders = (runCalls i).filter PlaceCall.accepted := by
  cases hscan : scanPhase i with
  | error error => simp only [runOnce, runCalls, hscan, submittedCalls, List.filter_nil, List.map_nil]
  | ok p =>
      simp only [runOnce, runCalls, hscan]
      rw [submitAll_submittedCalls]
      rfl

/-! ## The symbols a cycle scans -/

lemma mem_mergeWatchlistTickers {tickers watchlistSymbols : List String} {symbol : String} :
    symbol ∈ mergeWatchlistTickers tickers watchlistSymbols ↔
      symbol ∈ tickers ∨ symbol ∈ watchlistSymbols := by
  induction watchlistSymbols generalizing tickers with
  | nil => simp [mergeWatchlistTickers]
  | cons first rest ih =>
      have hstep : mergeWatchlistTickers tickers (first :: rest) = mergeWatchlistTickers
          (if tickers.contains first then tickers else tickers ++ [first]) rest := rfl
      rw [hstep, ih]
      by_cases hfirst : first ∈ tickers
      · rw [if_pos (by simpa using hfirst), List.mem_cons]
        constructor
        · exact Or.imp_right .inr
        · rintro (h | rfl | h)
          · exact .inl h
          · exact .inl hfirst
          · exact .inr h
      · rw [if_neg (by simpa using hfirst), List.mem_append, List.mem_singleton, List.mem_cons, or_assoc]

lemma mergeWatchlistTickers_nodup {tickers : List String} (h : tickers.Nodup)
    (watchlistSymbols : List String) : (mergeWatchlistTickers tickers watchlistSymbols).Nodup := by
  induction watchlistSymbols generalizing tickers with
  | nil => exact h
  | cons first rest ih =>
      have hstep : mergeWatchlistTickers tickers (first :: rest) = mergeWatchlistTickers
          (if tickers.contains first then tickers else tickers ++ [first]) rest := rfl
      rw [hstep]
      apply ih
      by_cases hfirst : first ∈ tickers
      · rw [if_pos (by simpa using hfirst)]
        exact h
      · rw [if_neg (by simpa using hfirst)]
        exact List.nodup_append.mpr ⟨h, List.pairwise_singleton _ first, by
          rintro x hx y hy rfl
          exact hfirst (List.mem_singleton.mp hy ▸ hx)⟩

lemma dedupeTickers_eq (tickers : List String) :
    dedupeTickers tickers = mergeWatchlistTickers [] tickers := rfl

omit [OrderIdText F] in
/-- No symbol is scanned twice. -/
lemma tickersToScan_nodup (i : Inputs β F) : i.tickersToScan.Nodup := by
  apply mergeWatchlistTickers_nodup
  unfold Inputs.tickers
  split
  · exact List.nodup_nil
  · split
    · rw [dedupeTickers_eq]
      exact mergeWatchlistTickers_nodup (mergeWatchlistTickers_nodup List.nodup_nil _) _
    · exact List.nodup_nil

omit [OrderIdText F] in
/-- The instrument of a bot order is scanned. -/
lemma mem_tickersToScan_of_bot {i : Inputs β F} {row : OrderRow} {symbol : String}
    (hrow : row ∈ i.orderRows) (hon : row.On symbol) (hbot : isBotFibLimitOrder row = true) :
    symbol ∈ i.tickersToScan := by
  obtain ⟨hnamed, rfl⟩ := hon
  rw [Inputs.tickersToScan, mem_mergeWatchlistTickers]
  refine .inr (List.mem_filter.mpr ⟨?_, List.any_eq_true.mpr ⟨row, ?_, hbot⟩⟩)
  · rw [dedupeTickers_eq, mem_mergeWatchlistTickers]
    refine .inr (List.mem_map.mpr ⟨row, List.mem_filter.mpr ⟨hrow, by simpa using hnamed⟩, rfl⟩)
  · exact List.mem_filter.mpr ⟨hrow, by simpa using hnamed⟩

/-! ## The scan loop -/

/-- A cancellation that succeeded named the row. -/
def ExpiredOrder.Took (order : ExpiredOrder) (row : OrderRow) : Prop :=
  order.status = .expired ∧ (order.clientOrderId = row.clOrdId ∨ order.orderId = some row.ordId)

instance (order : ExpiredOrder) (row : OrderRow) : Decidable (order.Took row) :=
  inferInstanceAs (Decidable (_ ∧ _))

/-- What the cancellations of a symbol are: each one of a bot row that the scan does not back. -/
lemma expireStaleLimitOrders_spec {broker : Broker β F} {symbol : String} {result : EntryScanResult F}
    {rows : List OrderRow} {b b' : β} {stale : List ExpiredOrder}
    (h : expireStaleLimitOrders broker symbol result rows b = .ok (stale, b')) :
    ∀ order ∈ stale, order.symbol = symbol ∧ ∃ row ∈ rows, isBotFibLimitOrder row = true ∧
      matchesActiveSignalOrder row.clOrdId result = false ∧ order.clientOrderId = row.clOrdId ∧
      order.orderId = textOrNone row.ordId := by
  induction rows generalizing b b' stale with
  | nil =>
      obtain ⟨rfl, -⟩ := Prod.mk.inj (Except.ok.inj h)
      simp
  | cons row rows ih =>
      rw [expireStaleLimitOrders] at h
      by_cases hkept : (!isBotFibLimitOrder row || matchesActiveSignalOrder row.clOrdId result) = true
      · rw [if_pos hkept] at h
        intro order horder
        obtain ⟨hsymbol, row', hrow', hrest⟩ := ih h order horder
        exact ⟨hsymbol, row', List.mem_cons_of_mem _ hrow', hrest⟩
      · rw [if_neg hkept] at h
        simp only [bind_eq_ok, pure_eq_ok_iff] at h
        obtain ⟨⟨response, c⟩, -, ⟨tail, c'⟩, htail, heq⟩ := h
        obtain ⟨rfl, -⟩ := Prod.mk.inj heq
        simp only [Bool.or_eq_true, Bool.not_eq_true', not_or, Bool.not_eq_false,
          Bool.not_eq_true] at hkept
        intro order horder
        rcases List.mem_cons.mp horder with rfl | horder
        · exact ⟨rfl, row, List.mem_cons_self, hkept.1, hkept.2, rfl, rfl⟩
        · obtain ⟨hsymbol, row', hrow', hrest⟩ := ih htail order horder
          exact ⟨hsymbol, row', List.mem_cons_of_mem _ hrow', hrest⟩

omit [OrderIdText F] in
lemma bookExpirations_scanResults (p : ScanPhase β F) (symbol : String) (stale : List ExpiredOrder) :
    (p.bookExpirations symbol stale).scanResults = p.scanResults := by
  unfold ScanPhase.bookExpirations
  dsimp only
  split <;> rfl

section book

variable {p : ScanPhase β F} {symbol : String} {stale : List ExpiredOrder}

/-- The rows the successful cancellations leave. -/
def remainingRows (stale : List ExpiredOrder) (rows : List OrderRow) : List OrderRow :=
  rows.filter fun row => ∀ order ∈ stale, ¬ order.Took row

/-- The loop drops a row when a successful cancellation took it. -/
lemma remainingRows_eq (hids : ∀ order ∈ stale, order.clientOrderId ≠ "") (rows : List OrderRow) :
    (rows.filter fun row =>
      !((((stale.filter fun order => order.status = .expired).map
          ExpiredOrder.clientOrderId).filter (· ≠ "")).contains row.clOrdId) &&
        !((stale.filter fun order => order.status = .expired).filterMap
          ExpiredOrder.orderId).contains row.ordId) = remainingRows stale rows := by
  refine List.filter_congr fun row _ => Bool.eq_iff_iff.mpr ?_
  simp only [Bool.and_eq_true, Bool.not_eq_true', List.contains_eq_mem, decide_eq_false_iff_not,
    List.mem_filter, List.mem_map, List.mem_filterMap, decide_eq_true_eq, ExpiredOrder.Took]
  constructor
  · rintro ⟨hclient, horder⟩
    refine decide_eq_true ?_
    rintro order hmem ⟨hstatus, hid | hid⟩
    · exact hclient ⟨⟨order, ⟨hmem, hstatus⟩, hid⟩, hid ▸ hids order hmem⟩
    · exact horder ⟨order, ⟨hmem, hstatus⟩, hid⟩
  · intro hkept
    have htaken := of_decide_eq_true hkept
    constructor
    · rintro ⟨⟨order, ⟨hmem, hstatus⟩, hid⟩, -⟩
      exact htaken order hmem ⟨hstatus, .inl hid⟩
    · rintro ⟨order, ⟨hmem, hstatus⟩, hid⟩
      exact htaken order hmem ⟨hstatus, .inr hid⟩

/-- Without a successful cancellation every row stays. -/
lemma remainingRows_of_isEmpty (h : (stale.filter fun order => order.status = .expired).isEmpty = true)
    (rows : List OrderRow) : remainingRows stale rows = rows := by
  refine List.filter_eq_self.mpr fun row _ => decide_eq_true fun order hmem htook => ?_
  have hmem' : order ∈ stale.filter fun order => order.status = .expired :=
    List.mem_filter.mpr ⟨hmem, decide_eq_true htook.1⟩
  rw [List.isEmpty_iff.mp h] at hmem'
  cases hmem'

omit [OrderIdText F] in
lemma bookExpirations_openOrderRows (hids : ∀ order ∈ stale, order.clientOrderId ≠ "") :
    (p.bookExpirations symbol stale).openOrderRows =
      Function.update p.openOrderRows symbol (remainingRows stale (p.openOrderRows symbol)) := by
  unfold ScanPhase.bookExpirations
  dsimp only
  rw [remainingRows_eq hids]
  split
  · rename_i hnone
    rw [remainingRows_of_isEmpty hnone, Function.update_eq_self]
  · rfl

omit [OrderIdText F] in
lemma mem_bookExpirations_ids (hids : ∀ order ∈ stale, order.clientOrderId ≠ "") {id : String} :
    id ∈ (p.bookExpirations symbol stale).existingClientOrderIds ↔ id ∈ p.existingClientOrderIds ∧
      ∀ order ∈ stale, order.status = .expired → order.clientOrderId ≠ id := by
  have hsuccessful : ∀ order, order ∈ (stale.filter fun order => order.status = .expired) ↔
      order ∈ stale ∧ order.status = .expired := by simp
  unfold ScanPhase.bookExpirations
  dsimp only
  split
  · rename_i hnone
    rw [List.isEmpty_iff.mp hnone] at hsuccessful
    refine (and_iff_left ?_).symm
    intro order hmem hstatus
    cases (hsuccessful order).mpr ⟨hmem, hstatus⟩
  · simp only [List.mem_filter, List.contains_eq_mem, Bool.not_eq_true', decide_eq_false_iff_not,
      List.mem_map, hsuccessful, decide_eq_true_eq, not_and, not_not]
    refine and_congr_right fun _ => ?_
    constructor
    · intro h order hmem hstatus heq
      exact hids order hmem (heq ▸ h ⟨order, ⟨hmem, hstatus⟩, heq⟩)
    · rintro h ⟨order, ⟨hmem, hstatus⟩, heq⟩
      exact absurd heq (h order hmem hstatus)

omit [OrderIdText F] in
lemma mem_bookExpirations_instIds (hids : ∀ order ∈ stale, order.clientOrderId ≠ "") {s : String} :
    s ∈ (p.bookExpirations symbol stale).openOrderInstIds ↔ s ∈ p.openOrderInstIds ∧
      (s = symbol → (∃ order ∈ stale, order.status = .expired) →
        remainingRows stale (p.openOrderRows symbol) ≠ []) := by
  unfold ScanPhase.bookExpirations
  dsimp only
  rw [remainingRows_eq hids]
  have hsome : (∃ order ∈ stale, order.status = .expired) ↔
      ¬ (stale.filter fun order => order.status = .expired).isEmpty = true := by
    simp [List.filter_eq_nil_iff]
  rw [hsome]
  split
  · rename_i hnone
    simp [hnone]
  · rename_i hany
    dsimp only
    by_cases hremaining : remainingRows stale (p.openOrderRows symbol) = []
    · rw [if_pos (List.isEmpty_iff.mpr hremaining)]
      simp [hremaining, hany]
    · rw [if_neg (by simpa using hremaining)]
      simp [hremaining]

end book

/-- The result the cancellations of a symbol go by. -/
def Evaluated.result (symbol : String) : Evaluated F → EntryScanResult F
  | .dataError reason => dataErrorScanResult symbol reason
  | .scanned result => result

/-- The result an evaluation adds to the scans. -/
def Evaluated.found : Evaluated F → List (EntryScanResult F)
  | .dataError _ => []
  | .scanned result => [result]

/-- What one symbol of the scan loop does. -/
lemma scanSymbol_cases {i : Inputs β F} {p p' : ScanPhase β F} {symbol : String}
    (h : scanSymbol i p symbol = .ok p') :
    ∃ evaluated stale exchange, i.evaluate symbol = .ok evaluated ∧
      expireStaleLimitOrders i.broker symbol (evaluated.result symbol) (p.openOrderRows symbol)
        p.exchange = .ok (stale, exchange) ∧
      p' = { p with
        exchange := exchange
        scanResults := p.scanResults ++ evaluated.found }.bookExpirations symbol stale := by
  simp only [scanSymbol, bind_eq_ok, pure_eq_ok_iff] at h
  obtain ⟨evaluated, hevaluated, ⟨stale, exchange⟩, hstale, rfl⟩ := h
  refine ⟨evaluated, stale, exchange, hevaluated, ?_, ?_⟩
  · cases evaluated with
    | dataError reason => exact hstale
    | scanned result => exact hstale
  · cases evaluated with
    | dataError reason => simp [Evaluated.found]
    | scanned result => rfl

/-- What the scan loop keeps about the rows of the account. -/
structure Booked (i : Inputs β F) (p : ScanPhase β F) : Prop where
  /-- The rows of an instrument are rows of the account. -/
  rows : ∀ symbol, ∀ row ∈ p.openOrderRows symbol, row ∈ i.orderRows ∧ row.On symbol
  /-- A row that was not cancelled is in both tables. -/
  kept : ∀ row ∈ i.orderRows, row.instId ≠ "" → Cancelled p.expiredOrders row ∨
    (row ∈ p.openOrderRows row.instId ∧ row.instId ∈ p.openOrderInstIds)
  /-- An identifier that left the table is one of a cancelled order. -/
  ids : ∀ row ∈ i.orderRows, row.clOrdId ≠ "" → row.clOrdId ∈ p.existingClientOrderIds ∨
    ∃ order ∈ p.expiredOrders, order.status = .expired ∧ order.clientOrderId = row.clOrdId
  /-- A cancellation was asked for a bot row that the scan of its instrument did not back. -/
  stale : ∀ order ∈ p.expiredOrders, ∃ row ∈ i.orderRows, row.On order.symbol ∧
    isBotFibLimitOrder row = true ∧ order.clientOrderId = row.clOrdId ∧
    order.orderId = textOrNone row.ordId ∧
    ∀ result, i.evaluate order.symbol = .ok (.scanned result) →
      matchesActiveSignalOrder row.clOrdId result = false

/-- A bot identifier is not empty. -/
lemma clOrdId_ne_empty {row : OrderRow} (h : isBotFibLimitOrder row = true) : row.clOrdId ≠ "" := by
  intro hempty
  simp [isBotFibLimitOrder, isBotClientOrderId, hempty] at h

lemma Cancelled.append {orders stale : List ExpiredOrder} {row : OrderRow} (h : Cancelled orders row) :
    Cancelled (orders ++ stale) row := by
  obtain ⟨order, hmem, hrest⟩ := h
  exact ⟨order, List.mem_append_left _ hmem, hrest⟩

lemma booked_scanStart (i : Inputs β F) : Booked i i.scanStart where
  rows symbol row hrow := by
    obtain ⟨hmem, hon⟩ := List.mem_filter.mp hrow
    exact ⟨hmem, by simpa [OrderRow.On] using hon⟩
  kept row hrow hnamed := by
    refine .inr ⟨List.mem_filter.mpr ⟨hrow, by simpa using hnamed⟩, ?_⟩
    exact List.mem_map.mpr ⟨row, List.mem_filter.mpr ⟨hrow, by simpa using hnamed⟩, rfl⟩
  ids row hrow hid :=
    .inl (List.mem_map.mpr ⟨row, List.mem_filter.mpr ⟨hrow, by simpa using hid⟩, rfl⟩)
  stale order horder := by cases horder

/-- Scanning a symbol keeps the books. -/
lemma Booked.scanSymbol {i : Inputs β F} {p p' : ScanPhase β F} {symbol : String} (hp : Booked i p)
    (h : scanSymbol i p symbol = .ok p') : Booked i p' := by
  obtain ⟨evaluated, stale, exchange, hevaluated, hexpire, rfl⟩ := scanSymbol_cases h
  have hstale := expireStaleLimitOrders_spec hexpire
  have hids : ∀ order ∈ stale, order.clientOrderId ≠ "" := by
    intro order horder
    obtain ⟨-, row, -, hbot, -, hid, -⟩ := hstale order horder
    exact hid ▸ clOrdId_ne_empty hbot
  constructor
  · intro s row hrow
    rw [bookExpirations_openOrderRows hids] at hrow
    rcases eq_or_ne s symbol with rfl | hne
    · rw [Function.update_self] at hrow
      exact hp.rows s row (List.mem_of_mem_filter hrow)
    · rw [Function.update_of_ne hne] at hrow
      exact hp.rows s row hrow
  · intro row hrow hnamed
    rw [bookExpirations_expiredOrders, bookExpirations_openOrderRows hids,
      mem_bookExpirations_instIds hids]
    dsimp only
    rcases hp.kept row hrow hnamed with hcancelled | ⟨hrows, hinst⟩
    · exact .inl hcancelled.append
    rcases eq_or_ne row.instId symbol with heq | hne
    · by_cases htook : ∃ order ∈ stale, order.Took row
      · obtain ⟨order, horder, hstatus, hnames⟩ := htook
        exact .inl ⟨order, List.mem_append_right _ horder, hstatus,
          ((hstale order horder).1.trans heq.symm), hnames⟩
      · push Not at htook
        have hremaining : row ∈ remainingRows stale (p.openOrderRows symbol) :=
          List.mem_filter.mpr ⟨heq ▸ hrows, decide_eq_true htook⟩
        refine .inr ⟨?_, hinst, fun _ _ => List.ne_nil_of_mem hremaining⟩
        rw [heq, Function.update_self]
        exact hremaining
    · refine .inr ⟨?_, hinst, fun heq => absurd heq hne⟩
      rw [Function.update_of_ne hne]
      exact hrows
  · intro row hrow hid
    rw [bookExpirations_expiredOrders, mem_bookExpirations_ids hids]
    dsimp only
    rcases hp.ids row hrow hid with hexisting | ⟨order, horder, hrest⟩
    · by_cases hexpired : ∃ order ∈ stale, order.status = .expired ∧ order.clientOrderId = row.clOrdId
      · obtain ⟨order, horder, hrest⟩ := hexpired
        exact .inr ⟨order, List.mem_append_right _ horder, hrest⟩
      · push Not at hexpired
        exact .inl ⟨hexisting, hexpired⟩
    · exact .inr ⟨order, List.mem_append_left _ horder, hrest⟩
  · intro order horder
    rw [bookExpirations_expiredOrders, List.mem_append] at horder
    rcases horder with horder | horder
    · exact hp.stale order horder
    · obtain ⟨hsymbol, row, hrow, hbot, hmatch, hid, horderId⟩ := hstale order horder
      obtain ⟨hmem, hon⟩ := hp.rows symbol row hrow
      refine ⟨row, hmem, hsymbol.symm ▸ hon, hbot, hid, horderId, ?_⟩
      intro result hresult
      rw [hsymbol, hevaluated] at hresult
      obtain rfl := Except.ok.inj hresult
      exact hmatch

/-- The books after the scan loop. -/
lemma booked_scanPhase {i : Inputs β F} {p : ScanPhase β F} (h : scanPhase i = .ok p) : Booked i p :=
  foldlM_invariant (I := Booked i) (fun _ _ _ _ hp hstep => hp.scanSymbol hstep) (booked_scanStart i) h

/-- The scans of the loop are of the symbols it goes through, in order. -/
lemma foldlM_scanSymbol_found {i : Inputs β F} (hown : ScansOwn i) {symbols : List String}
    {p p' : ScanPhase β F} (h : symbols.foldlM (scanSymbol i) p = .ok p') :
    ∃ found, p'.scanResults = p.scanResults ++ found ∧
      (found.map EntryScanResult.symbol).Sublist symbols ∧
      (∀ result ∈ found, i.evaluate result.symbol = .ok (.scanned result)) ∧
      ∀ symbol ∈ symbols, ∀ result, i.evaluate symbol = .ok (.scanned result) → result ∈ found := by
  induction symbols generalizing p with
  | nil =>
      obtain rfl := pure_eq_ok_iff.mp h
      exact ⟨[], by simp⟩
  | cons symbol symbols ih =>
      rw [List.foldlM_cons, bind_eq_ok] at h
      obtain ⟨q, hq, h⟩ := h
      obtain ⟨evaluated, stale, exchange, hevaluated, -, rfl⟩ := scanSymbol_cases hq
      obtain ⟨found, hfound, hsublist, hresults, hall⟩ := ih h
      rw [bookExpirations_scanResults] at hfound
      refine ⟨evaluated.found ++ found, by rw [hfound, List.append_assoc], ?_⟩
      cases evaluated with
      | dataError reason =>
          refine ⟨hsublist.cons symbol, hresults, ?_⟩
          rintro symbol' hsymbol' result hresult
          rcases List.mem_cons.mp hsymbol' with rfl | hmem
          · rw [hevaluated] at hresult
            cases hresult
          · exact hall symbol' hmem result hresult
      | scanned result =>
          have hsymbol := hown symbol result hevaluated
          refine ⟨?_, ?_, ?_⟩
          · rw [Evaluated.found, List.singleton_append, List.map_cons, hsymbol]
            exact hsublist.cons_cons symbol
          · rintro result' (_ | ⟨_, hmem⟩)
            · rw [hsymbol, hevaluated]
            · exact hresults result' hmem
          · rintro symbol' hsymbol' result' hresult'
            rcases List.mem_cons.mp hsymbol' with rfl | hmem
            · rw [hevaluated] at hresult'
              cases hresult'
              exact List.mem_cons_self
            · exact List.mem_cons_of_mem _ (hall symbol' hmem result' hresult')

/-- The scans after the loop: no two are of one symbol, and they are what the symbols evaluated
to. -/
lemma scanResults_spec {i : Inputs β F} (hown : ScansOwn i) {p : ScanPhase β F}
    (h : scanPhase i = .ok p) :
    (p.scanResults.map EntryScanResult.symbol).Nodup ∧
      (∀ result ∈ p.scanResults, i.evaluate result.symbol = .ok (.scanned result)) ∧
      ∀ symbol ∈ i.tickersToScan, ∀ result, i.evaluate symbol = .ok (.scanned result) →
        result ∈ p.scanResults := by
  obtain ⟨found, hfound, hsublist, hresults⟩ := foldlM_scanSymbol_found hown h
  obtain rfl : p.scanResults = found := hfound
  exact ⟨hsublist.nodup (tickersToScan_nodup i), hresults⟩

/-! ## When every cycle on an account places its orders well -/

/-- Some signal of the symbol has the client order identifier. -/
def Generates (F : Type) [OrderIdText F] (symbol clientOrderId : String) : Prop :=
  ∃ (signalTimeMs : Option ℤ) (triggerPrice : F),
    generateClientOrderId symbol signalTimeMs triggerPrice = clientOrderId

/-- Nothing of a response that leaves the tables empty stands in the way of an order: its rows are of
instruments with an open position, and so are the signals that have an identifier of a row. -/
structure NothingHidden (F : Type) [OrderIdText F] (positions : Response PositionRow)
    (openOrders : Response OrderRow) : Prop where
  instruments : ∀ row ∈ openOrders.data, row.instId ≠ "" → row.instId ∈ openPositionInstIds positions
  identifiers : ∀ row ∈ openOrders.data, ∀ symbol, Generates F symbol row.clOrdId →
    symbol ∈ openPositionInstIds positions

/-- Cancelling the bot orders of an instrument, but for those of one identifier, takes all its
rows. -/
def Clearable (rows : List OrderRow) (symbol clientOrderId : String) : Prop :=
  ∀ row ∈ rows, row.On symbol → ∃ bot ∈ rows, bot.On symbol ∧ isBotFibLimitOrder bot = true ∧
    bot.clOrdId ≠ clientOrderId ∧ (bot.clOrdId = row.clOrdId ∨ textOrNone bot.ordId = some row.ordId)

/-- The cancellation of a bot order makes the cycle forget that a row of another instrument has the
same identifier, which a signal of a third instrument has as well. -/
structure Forgotten (F : Type) [OrderIdText F] (positions : Response PositionRow)
    (rows : List OrderRow) (bot row : OrderRow) (symbol : String) : Prop where
  bot_mem : bot ∈ rows
  row_mem : row ∈ rows
  isBot : isBotFibLimitOrder bot = true
  named : bot.instId ≠ ""
  sameId : bot.clOrdId = row.clOrdId
  elsewhere : bot.instId ≠ row.instId
  bot_off : ¬ bot.On symbol
  row_off : ¬ row.On symbol
  noPosition : symbol ∉ openPositionInstIds positions
  generates : Generates F symbol row.clOrdId
  clearable : Clearable rows symbol row.clOrdId

/-- What an account has to satisfy. -/
def SetsFit (F : Type) [OrderIdText F] (positions : Response PositionRow)
    (openOrders : Response OrderRow) : Prop :=
  accountContextError positions openOrders = true ∨
    if openOrders.failed then NothingHidden F positions openOrders
    else ∀ bot row symbol, ¬ Forgotten F positions openOrders.data bot row symbol

omit [OrderIdText F] in
lemma entryTrigger_eq_some {eligible : List String} {result : EntryScanResult F} {triggerPrice : F} :
    entryTrigger eligible result = some triggerPrice ↔ result.symbol ∈ eligible ∧
      result.action = "enter" ∧ result.triggerPrice = some triggerPrice := by
  simp [entryTrigger, and_assoc]

/-- The identifier of an order is not empty. -/
lemma generateClientOrderId_ne_empty (symbol : String) (signalTimeMs : Option ℤ) (triggerPrice : F) :
    generateClientOrderId symbol signalTimeMs triggerPrice ≠ "" := by
  intro h
  simpa [generateClientOrderId] using congrArg String.length h

/-- The calls of a cycle whose scans are done. -/
lemma runCalls_eq {i : Inputs β F} {p : ScanPhase β F} (h : scanPhase i = .ok p) :
    runCalls i = submitCalls i (gatesAfter i p) p.scanResults (submissionStart p) ∧
      (runOnce i).expiredOrders = p.expiredOrders := by
  simp only [runCalls, runOnce, h, and_self]

/-- On an account that fits every call is well placed. -/
lemma placedWell_of_setsFit {i : Inputs β F} (hfit : SetsFit F i.positions i.openOrders)
    (hown : ScansOwn i) {p : ScanPhase β F} (hscan : scanPhase i = .ok p) {call : PlaceCall}
    (hcall : call ∈ runCalls i) : PlacedWell i call := by
  obtain ⟨hcalls, hexpired⟩ := runCalls_eq hscan
  rw [hcalls] at hcall
  obtain ⟨result, hresult, triggerPrice, htrigger, hsymbol, hid, hfresh, horders, hpositions⟩ :=
    submitCalls_spec hcall
  obtain ⟨heligible, haction, hprice⟩ := entryTrigger_eq_some.mp htrigger
  have haccount : accountContextError i.positions i.openOrders = false := by
    rw [Bool.eq_false_iff]
    intro herror
    rw [Inputs.tickers, if_pos herror] at heligible
    cases heligible
  have hevaluate := (scanResults_spec hown hscan).2.1 result hresult
  have hbooks := booked_scanPhase hscan
  have hpositions' : call.symbol ∉ openPositionInstIds i.positions := by
    rwa [gatesAfter, if_neg (Bool.eq_false_iff.mp haccount)] at hpositions
  have hgenerates : Generates F call.symbol call.clientOrderId :=
    ⟨result.signalTimeMs, triggerPrice, by rw [hid, hsymbol]⟩
  have hfit := hfit.resolve_left (Bool.eq_false_iff.mp haccount)
  -- a row of the instrument is cancelled, or it would have blocked the call
  have hnoOrder : ∀ row ∈ i.openOrders.data, row.On call.symbol → Cancelled p.expiredOrders row := by
    rintro row hrow ⟨hnamed, hon⟩
    by_cases hfailed : i.openOrders.failed = true
    · rw [if_pos hfailed] at hfit
      exact absurd (hon ▸ hfit.instruments row hrow hnamed) hpositions'
    · have hrow' : row ∈ i.orderRows := by rwa [Inputs.orderRows, if_neg hfailed]
      rcases hbooks.kept row hrow' hnamed with hcancelled | ⟨-, hinst⟩
      · exact hcancelled
      · exact absurd (hon ▸ hinst) horders
  refine ⟨haccount, hsymbol ▸ heligible, ⟨result, hsymbol ▸ hevaluate⟩, ?_, hexpired ▸ hnoOrder, ?_⟩
  · rintro row hrow ⟨hnamed, hon, hpos⟩
    refine hpositions' (List.mem_map.mpr ⟨row, List.mem_filter.mpr ⟨hrow, ?_⟩, hon⟩)
    simp [hnamed, hpos]
  · intro row hrow hrowId
    rw [hexpired]
    by_cases hfailed : i.openOrders.failed = true
    · rw [if_pos hfailed] at hfit
      exact absurd (hfit.identifiers row hrow call.symbol (hrowId ▸ hgenerates)) hpositions'
    rw [if_neg hfailed] at hfit
    have hdata : i.orderRows = i.openOrders.data := if_neg hfailed
    by_contra hleft
    -- the identifier left the table with the cancellation of a bot order, of another instrument
    obtain ⟨order, horder, hstatus, horderId⟩ := (hbooks.ids row (hdata ▸ hrow)
      (by rw [hrowId, hid]; exact generateClientOrderId_ne_empty _ _ _)).resolve_left
      (by rw [hrowId]; exact hfresh)
    obtain ⟨bot, hbot, ⟨hbotNamed, hbotOn⟩, hisBot, hbotId, -, hstale⟩ := hbooks.stale order horder
    have hsame : bot.clOrdId = row.clOrdId := hbotId.symm.trans horderId
    refine hfit bot row call.symbol ⟨hdata ▸ hbot, hrow, hisBot, hbotNamed, hsame, ?_, ?_, ?_,
      hpositions', hrowId ▸ hgenerates, ?_⟩
    · intro heq
      exact hleft ⟨order, horder, hstatus, hbotOn.symm.trans heq, .inl horderId⟩
    · rintro ⟨-, hon⟩
      -- the scan of the call's instrument backs the identifier
      have hresult : i.evaluate order.symbol = .ok (.scanned result) := by
        rw [← hbotOn, hon, hsymbol, hevaluate]
      have hmatch := hstale result hresult
      simp [matchesActiveSignalOrder, hprice, haction, hsame, hrowId, hid] at hmatch
    · intro hon
      exact hleft (hnoOrder row hrow hon)
    · intro other hother hon
      obtain ⟨order', horder', hstatus', hsymbol', hnames⟩ := hnoOrder other hother hon
      obtain ⟨bot', hbot', hbotOn', hisBot', hbotId', hordId', hstale'⟩ := hbooks.stale order' horder'
      have hon' : order'.symbol = call.symbol := hsymbol'.trans hon.2
      refine ⟨bot', hdata ▸ hbot', hon' ▸ hbotOn', hisBot', ?_, ?_⟩
      · intro heq
        have hmatch := hstale' result (by rw [hon', hsymbol, hevaluate])
        simp [matchesActiveSignalOrder, hprice, haction, heq, hrowId, hid] at hmatch
      · rwa [← hbotId', ← hordId']

/-- **The orders of a demo cycle** are well placed and unique on an account that fits.
Source: `demo_trading.py` `run_once`. -/
lemma ordersUnique_of_setsFit {i : Inputs β F} (hfit : SetsFit F i.positions i.openOrders)
    (hown : ScansOwn i) : OrdersUnique i := by
  cases hscan : scanPhase i with
  | error error =>
      have hcalls : runCalls i = [] := by simp only [runCalls, hscan]
      refine ⟨?_, ?_, ?_⟩ <;> simp [hcalls]
  | ok p =>
      refine ⟨fun call hcall => placedWell_of_setsFit hfit hown hscan hcall, ?_, ?_⟩
      · have hnodup := (submitCalls_sublist i (gatesAfter i p) p.scanResults
          (submissionStart p)).nodup (scanResults_spec hown hscan).1
        rw [(runCalls_eq hscan).1]
        exact List.pairwise_map.mp hnodup
      · rw [(runCalls_eq hscan).1]
        exact submitCalls_identifiers _ _

/-! ## A cycle that probes an account -/

section probe

variable (positions : Response PositionRow) (openOrders : Response OrderRow) (refused : String)
  (result : EntryScanResult F)

/-- An exchange that takes every order and cancels the orders of all instruments but one. -/
def refusingBroker (refused : String) : Broker Unit F where
  cancelOrder _ symbol _ _ := .ok (⟨if symbol = refused then "1" else "0", [], []⟩, ())
  orderSizing _ _ _ := .ok (some ("1", 1), ())
  setLeverage _ _ _ := .ok (⟨"0", [], []⟩, ())
  placeLimitBuy _ _ _ _ _ := .ok (⟨"0", [], []⟩, ())

/-- A cycle with room for an order, whose universe is the instrument of one signal. -/
def probe : Inputs Unit F where
  config :=
    { maxOpenPositions := countOpenExposure positions openOrders + 1
      leverage := 1
      watchlistSymbols := [] }
  broker := refusingBroker refused
  exchange := ()
  positions := positions
  openOrders := openOrders
  universeTickers := .ok [result.symbol]
  evaluate symbol := .ok (if symbol = result.symbol then .scanned result else .dataError "")

omit [OrderIdText F] in
lemma probe_scansOwn : ScansOwn (probe positions openOrders refused result) := by
  intro symbol result' h
  by_cases hsymbol : symbol = result.symbol
  · simp only [probe, if_pos hsymbol, Except.ok.injEq, Evaluated.scanned.injEq] at h
    rw [← h, hsymbol]
  · simp [probe, hsymbol] at h

/-- What the cancellations of a symbol come to there. -/
def refusedStale (symbol : String) (scan : EntryScanResult F) (rows : List OrderRow) :
    List ExpiredOrder :=
  (rows.filter fun row =>
      isBotFibLimitOrder row && !matchesActiveSignalOrder row.clOrdId scan).map fun row =>
    { symbol := symbol
      status := if symbol = refused then .expireFailed else .expired
      reason := staleOrderReason scan
      orderId := textOrNone row.ordId
      clientOrderId := row.clOrdId }

lemma expireStaleLimitOrders_refusing (symbol : String) (scan : EntryScanResult F)
    (rows : List OrderRow) :
    expireStaleLimitOrders (refusingBroker refused) symbol scan rows () =
      .ok (refusedStale refused symbol scan rows, ()) := by
  induction rows with
  | nil => rfl
  | cons row rows ih =>
      rw [expireStaleLimitOrders, refusedStale]
      by_cases hkept : (!isBotFibLimitOrder row || matchesActiveSignalOrder row.clOrdId scan) = true
      · rw [if_pos hkept, ih, List.filter_cons_of_neg]
        · rfl
        · simpa [Bool.not_eq_true, imp_iff_not_or] using hkept
      · have hcancel : (refusingBroker (F := F) refused).cancelOrder () symbol (textOrNone row.ordId)
            row.clOrdId = .ok (⟨if symbol = refused then "1" else "0", [], []⟩, ()) := rfl
        rw [if_neg hkept, hcancel, ok_bind]
        dsimp only
        rw [ih, List.filter_cons_of_pos]
        · by_cases hsymbol : symbol = refused
          · simp [hsymbol, refusedStale, Response.failed, pure, Except.pure]
          · simp [hsymbol, refusedStale, Response.failed, pure, Except.pure]
        · simpa [not_or] using hkept

/-- What the cancellations of a symbol go by there. -/
def probeScan (symbol : String) : EntryScanResult F :=
  if symbol = result.symbol then result else dataErrorScanResult symbol ""

/-- Nothing raises there. -/
lemma scanSymbol_probe (p : ScanPhase Unit F) (symbol : String) :
    ∃ scanResults, scanSymbol (probe positions openOrders refused result) p symbol =
      .ok ({ p with scanResults := scanResults }.bookExpirations symbol
        (refusedStale refused symbol (probeScan result symbol) (p.openOrderRows symbol))) := by
  have hexpire := expireStaleLimitOrders_refusing refused symbol (probeScan result symbol)
    (p.openOrderRows symbol)
  by_cases hsymbol : symbol = result.symbol
  · refine ⟨p.scanResults ++ [result], ?_⟩
    rw [probeScan, if_pos hsymbol] at hexpire ⊢
    simp only [scanSymbol, probe, if_pos hsymbol, ok_bind, hexpire]
    rfl
  · refine ⟨p.scanResults, ?_⟩
    rw [probeScan, if_neg hsymbol] at hexpire ⊢
    simp only [scanSymbol, probe, if_neg hsymbol, ok_bind, hexpire]
    rfl

lemma scanPhase_probe : ∃ p, scanPhase (probe positions openOrders refused result) = .ok p :=
  foldlM_total (fun p symbol _ => by
    obtain ⟨scanResults, hstep⟩ := scanSymbol_probe positions openOrders refused result p symbol
    exact ⟨_, hstep⟩) _

variable {positions openOrders refused result}

/-- What a symbol of the scan loop does there. -/
lemma scanSymbol_probe_cases {p p' : ScanPhase Unit F} {symbol : String}
    (h : scanSymbol (probe positions openOrders refused result) p symbol = .ok p') :
    ∃ stale, stale = refusedStale refused symbol (probeScan result symbol) (p.openOrderRows symbol) ∧
      (∀ order ∈ stale, order.clientOrderId ≠ "") ∧
      p'.expiredOrders = p.expiredOrders ++ stale ∧
      (∀ id, id ∈ p'.existingClientOrderIds ↔ id ∈ p.existingClientOrderIds ∧
        ∀ order ∈ stale, order.status = .expired → order.clientOrderId ≠ id) ∧
      p'.openOrderRows =
        Function.update p.openOrderRows symbol (remainingRows stale (p.openOrderRows symbol)) ∧
      ∀ s, s ∈ p'.openOrderInstIds ↔ s ∈ p.openOrderInstIds ∧
        (s = symbol → (∃ order ∈ stale, order.status = .expired) →
          remainingRows stale (p.openOrderRows symbol) ≠ []) := by
  obtain ⟨scanResults, hstep⟩ := scanSymbol_probe positions openOrders refused result p symbol
  obtain rfl := Except.ok.inj (hstep.symm.trans h)
  have hids : ∀ order ∈ refusedStale refused symbol (probeScan result symbol)
      (p.openOrderRows symbol), order.clientOrderId ≠ "" := by
    intro order horder
    obtain ⟨row, hrow, rfl⟩ := List.mem_map.mp horder
    have hbot := (List.mem_filter.mp hrow).2
    rw [Bool.and_eq_true] at hbot
    exact clOrdId_ne_empty hbot.1
  exact ⟨_, rfl, hids, bookExpirations_expiredOrders _ _ _, fun _ => mem_bookExpirations_ids hids,
    bookExpirations_openOrderRows hids, fun _ => mem_bookExpirations_instIds hids⟩

/-- The scan loop only takes identifiers and instruments out of its tables. -/
lemma scanPhase_probe_shrinks {p : ScanPhase Unit F}
    (h : scanPhase (probe positions openOrders refused result) = .ok p) :
    let rows := (probe positions openOrders refused result).orderRows
    (∀ id ∈ p.existingClientOrderIds, id ∈ clientOrderIds rows) ∧
      ∀ s ∈ p.openOrderInstIds, s ∈ openOrderInstIds rows := by
  refine foldlM_invariant (I := fun p : ScanPhase Unit F =>
    (∀ id ∈ p.existingClientOrderIds, id ∈ clientOrderIds _) ∧
      ∀ s ∈ p.openOrderInstIds, s ∈ openOrderInstIds _) ?_ ⟨fun _ => id, fun _ => id⟩ h
  rintro p symbol p' - ⟨hids, hinsts⟩ hstep
  obtain ⟨stale, -, -, -, hids', -, hinsts'⟩ := scanSymbol_probe_cases hstep
  exact ⟨fun id hid => hids id ((hids' id).mp hid).1, fun s hs => hinsts s ((hinsts' s).mp hs).1⟩

omit [OrderIdText F] in
lemma probe_tickers (refused : String) (result : EntryScanResult F)
    (haccount : accountContextError positions openOrders = false) :
    (probe positions openOrders refused result).tickers = [result.symbol] := by
  have hread : (probe positions openOrders refused result).tickers =
      if accountContextError positions openOrders then []
      else mergeWatchlistTickers (dedupeTickers [result.symbol]) [] := rfl
  rw [hread, haccount]
  rfl

/-- The order of the signal is placed when no table blocks it after the scan loop. -/
lemma probe_call {p : ScanPhase Unit F} {triggerPrice : F}
    (haccount : accountContextError positions openOrders = false)
    (hscan : scanPhase (probe positions openOrders refused result) = .ok p)
    (haction : result.action = "enter") (hprice : result.triggerPrice = some triggerPrice)
    (hid : generateClientOrderId result.symbol result.signalTimeMs triggerPrice ∉
      p.existingClientOrderIds)
    (hinst : result.symbol ∉ p.openOrderInstIds)
    (hposition : result.symbol ∉ openPositionInstIds positions) :
    ⟨result.symbol, generateClientOrderId result.symbol result.signalTimeMs triggerPrice, true⟩ ∈
      runCalls (probe positions openOrders refused result) := by
  have hown := probe_scansOwn positions openOrders refused result
  have htickers := probe_tickers refused result haccount
  obtain ⟨-, hresults, hall⟩ := scanResults_spec hown hscan
  have hself : (probe positions openOrders refused result).evaluate result.symbol =
      .ok (.scanned result) := by simp [probe]
  have hmem : result ∈ p.scanResults := by
    refine hall result.symbol ?_ result hself
    rw [Inputs.tickersToScan, mem_mergeWatchlistTickers, htickers]
    exact .inl List.mem_cons_self
  -- the loop begins with the signal, the one scan there is
  obtain ⟨first, rest, hfirst⟩ := List.exists_cons_of_ne_nil (List.ne_nil_of_mem hmem)
  obtain rfl : first = result := by
    have hevaluate := hresults first (hfirst ▸ List.mem_cons_self)
    by_cases hsymbol : first.symbol = result.symbol
    · rw [hsymbol, hself] at hevaluate
      cases hevaluate
      rfl
    · simp [probe, hsymbol] at hevaluate
  have hcapacity : ¬ p.remainingCapacity ≤ 0 := by
    have hfree := scanPhase_capacity hscan
    have hexposure : (probe positions openOrders refused first).openExposure =
        countOpenExposure positions openOrders := if_neg (Bool.eq_false_iff.mp haccount)
    rw [hexposure] at hfree
    simp only [probe] at hfree
    omega
  have hgates : (gatesAfter (probe positions openOrders refused first) p).openPositionInstIds =
      openPositionInstIds positions := if_neg (Bool.eq_false_iff.mp haccount)
  have htrigger : entryTrigger (probe positions openOrders refused first).tickers first =
      some triggerPrice := entryTrigger_eq_some.mpr ⟨by rw [htickers]; exact List.mem_cons_self,
    haction, hprice⟩
  rw [(runCalls_eq hscan).1, hfirst, submitCalls, List.mem_append]
  refine .inl ?_
  have hcapacity' : ¬ (submissionStart p).remainingCapacity ≤ 0 := hcapacity
  rw [Option.mem_toList, submitCall, htrigger]
  dsimp only
  rw [if_neg hcapacity', entryCall, if_neg (by simpa [submissionStart] using hid),
    if_neg (by simpa [gatesAfter] using hinst), hgates, if_neg (by simpa using hposition)]
  simp [probe, refusingBroker, Response.failed, wasAccepted]

end probe

/-! ## An account that does not fit -/

section misfit

variable {positions : Response PositionRow} {openOrders : Response OrderRow}

/-- A signal of an instrument. -/
def signalOf (symbol : String) (signalTimeMs : Option ℤ) (triggerPrice : F) : EntryScanResult F where
  symbol := symbol
  action := "enter"
  reason := ""
  triggerPrice := some triggerPrice
  signalTimeMs := signalTimeMs

/-- When the response leaves the tables empty, the signal of an instrument without position is placed,
and nothing is cancelled. -/
lemma hidden_call (haccount : accountContextError positions openOrders = false)
    (hfailed : openOrders.failed = true) {symbol : String}
    (hposition : symbol ∉ openPositionInstIds positions) (signalTimeMs : Option ℤ) (triggerPrice : F) :
    ⟨symbol, generateClientOrderId symbol signalTimeMs triggerPrice, true⟩ ∈
        runCalls (probe positions openOrders "" (signalOf symbol signalTimeMs triggerPrice)) ∧
      (runOnce (probe positions openOrders "" (signalOf symbol signalTimeMs triggerPrice))).expiredOrders =
        [] := by
  obtain ⟨p, hscan⟩ := scanPhase_probe positions openOrders "" (signalOf symbol signalTimeMs triggerPrice)
  have hrows : (probe positions openOrders "" (signalOf symbol signalTimeMs triggerPrice)).orderRows =
      [] := if_pos hfailed
  have hshrinks := scanPhase_probe_shrinks hscan
  rw [hrows] at hshrinks
  constructor
  · refine probe_call haccount hscan rfl rfl ?_ ?_ hposition
    · intro hid
      cases hshrinks.1 _ hid
    · intro hinst
      cases hshrinks.2 _ hinst
  · rw [(runCalls_eq hscan).2]
    refine List.eq_nil_iff_forall_not_mem.mpr fun order horder => ?_
    obtain ⟨row, hrow, -⟩ := (booked_scanPhase hscan).stale order horder
    rw [hrows] at hrow
    cases hrow

/-- When the orders are well placed in every cycle, such a response hides nothing. -/
lemma nothingHidden_of_ordersUnique [Inhabited F]
    (haccount : accountContextError positions openOrders = false) (hfailed : openOrders.failed = true)
    (h : ∀ i : Inputs Unit F, i.positions = positions → i.openOrders = openOrders → ScansOwn i →
      OrdersUnique i) : NothingHidden F positions openOrders := by
  have hplaced : ∀ symbol, symbol ∉ openPositionInstIds positions → ∀ (signalTimeMs : Option ℤ)
      (triggerPrice : F), ∀ row ∈ openOrders.data, ¬ row.On symbol ∧
        row.clOrdId ≠ generateClientOrderId symbol signalTimeMs triggerPrice := by
    intro symbol hposition signalTimeMs triggerPrice row hrow
    obtain ⟨hcall, hexpired⟩ := hidden_call haccount hfailed hposition signalTimeMs triggerPrice
    have hwell := (h _ rfl rfl (probe_scansOwn _ _ _ _)).placed _ hcall
    have hleft : ¬ Cancelled [] row := by
      rintro ⟨order, horder, -⟩
      cases horder
    rw [← hexpired] at hleft
    exact ⟨fun hon => hleft (hwell.noOrder row hrow hon), fun hid => hleft (hwell.freshId row hrow hid)⟩
  constructor
  · intro row hrow hnamed
    by_contra hposition
    exact (hplaced row.instId hposition none default row hrow).1 ⟨hnamed, rfl⟩
  · rintro row hrow symbol ⟨signalTimeMs, triggerPrice, hid⟩
    by_contra hposition
    exact (hplaced symbol hposition signalTimeMs triggerPrice row hrow).2 hid.symm

/-- Nothing of the instrument that refuses is cancelled. -/
lemma probe_refused {refused : String} {result : EntryScanResult F} {p : ScanPhase Unit F}
    (h : scanPhase (probe positions openOrders refused result) = .ok p) :
    ∀ order ∈ p.expiredOrders, order.status = .expired → order.symbol ≠ refused := by
  refine foldlM_invariant (I := fun p : ScanPhase Unit F =>
    ∀ order ∈ p.expiredOrders, order.status = .expired → order.symbol ≠ refused) ?_ ?_ h
  · intro p symbol p' _ hp hstep order horder hstatus
    obtain ⟨stale, rfl, -, hexpired, -⟩ := scanSymbol_probe_cases hstep
    rw [hexpired, List.mem_append] at horder
    rcases horder with horder | horder
    · exact hp order horder hstatus
    · obtain ⟨row, -, rfl⟩ := List.mem_map.mp horder
      simpa using hstatus
  · intro order horder
    cases horder

/-- A bot row the scan of its instrument does not back is cancelled, when the instrument does not
refuse. -/
lemma mem_refusedStale {refused symbol : String} {scan : EntryScanResult F} {rows : List OrderRow}
    {bot : OrderRow} (hbot : bot ∈ rows) (hisBot : isBotFibLimitOrder bot = true)
    (hmatch : matchesActiveSignalOrder bot.clOrdId scan = false) (hrefused : symbol ≠ refused) :
    ∃ order ∈ refusedStale refused symbol scan rows, order.status = .expired ∧
      order.clientOrderId = bot.clOrdId ∧ order.orderId = textOrNone bot.ordId := by
  refine ⟨_, List.mem_map.mpr ⟨bot, List.mem_filter.mpr ⟨hbot, ?_⟩, rfl⟩, ?_, rfl, rfl⟩
  · simp [hisBot, hmatch]
  · simp [hrefused]

section forgotten

variable {bot row : OrderRow} {symbol : String} {signalTimeMs : Option ℤ} {triggerPrice : F}
  {p : ScanPhase Unit F}

/-- The cancellation of the bot order takes the identifier out of the table. -/
lemma forgotten_id (h : Forgotten F positions openOrders.data bot row symbol)
    (hdata : openOrders.failed = false)
    (hscan : scanPhase (probe positions openOrders row.instId
      (signalOf symbol signalTimeMs triggerPrice)) = .ok p) :
    row.clOrdId ∉ p.existingClientOrderIds := by
  have hrows : (probe positions openOrders row.instId
      (signalOf symbol signalTimeMs triggerPrice)).orderRows = openOrders.data :=
    if_neg (Bool.eq_false_iff.mp hdata)
  have hne : bot.instId ≠ symbol := fun heq => h.bot_off ⟨h.named, heq⟩
  have hmatch : matchesActiveSignalOrder bot.clOrdId
      (probeScan (signalOf symbol signalTimeMs triggerPrice) bot.instId) = false := by
    simp [probeScan, signalOf, hne, matchesActiveSignalOrder, dataErrorScanResult]
  have hreach : ∀ p p' : ScanPhase Unit F, (row.clOrdId ∉ p.existingClientOrderIds ∨
      bot ∈ p.openOrderRows bot.instId) → scanSymbol (probe positions openOrders row.instId
        (signalOf symbol signalTimeMs triggerPrice)) p bot.instId = .ok p' →
      row.clOrdId ∉ p'.existingClientOrderIds := by
    intro p p' hp hstep
    obtain ⟨stale, rfl, -, -, hids, -⟩ := scanSymbol_probe_cases hstep
    rw [hids]
    rintro ⟨hid, hnone⟩
    obtain ⟨order, horder, hstatus, horderId, -⟩ :=
      mem_refusedStale (hp.resolve_left (not_not_intro hid)) h.isBot hmatch h.elsewhere
    exact hnone order horder hstatus (horderId.trans h.sameId)
  refine foldlM_reaches (mem_tickersToScan_of_bot (hrows.symm ▸ h.bot_mem) ⟨h.named, rfl⟩ h.isBot)
    ?_ ?_ hreach (.inr ?_) hscan
  · intro p s p' hp hstep
    rcases eq_or_ne s bot.instId with rfl | hs
    · exact .inl (hreach p p' hp hstep)
    · obtain ⟨stale, -, -, -, hids, hrows', -⟩ := scanSymbol_probe_cases hstep
      rw [hids, hrows', Function.update_of_ne hs.symm]
      exact hp.imp_left fun hid hid' => hid hid'.1
  · intro p s p' hp hstep
    obtain ⟨stale, -, -, -, hids, -⟩ := scanSymbol_probe_cases hstep
    exact fun hid => hp ((hids _).mp hid).1
  · exact List.mem_filter.mpr ⟨hrows.symm ▸ h.bot_mem, by simpa using h.named⟩

/-- The cancellations of the signal's instrument clear it. -/
lemma forgotten_inst (h : Forgotten F positions openOrders.data bot row symbol)
    (haccount : accountContextError positions openOrders = false) (hdata : openOrders.failed = false)
    (hid : generateClientOrderId symbol signalTimeMs triggerPrice = row.clOrdId)
    (hscan : scanPhase (probe positions openOrders row.instId
      (signalOf symbol signalTimeMs triggerPrice)) = .ok p) :
    symbol ∉ p.openOrderInstIds := by
  have hrows : (probe positions openOrders row.instId
      (signalOf symbol signalTimeMs triggerPrice)).orderRows = openOrders.data :=
    if_neg (Bool.eq_false_iff.mp hdata)
  have htickers := probe_tickers row.instId (signalOf symbol signalTimeMs triggerPrice) haccount
  have hreach : ∀ p p' : ScanPhase Unit F, (symbol ∈ p.openOrderInstIds →
      p.openOrderRows symbol = openOrderRowsByInstId openOrders.data symbol ∧
        ∃ row ∈ openOrders.data, row.On symbol) → scanSymbol (probe positions openOrders row.instId
        (signalOf symbol signalTimeMs triggerPrice)) p symbol = .ok p' →
      symbol ∉ p'.openOrderInstIds := by
    intro p p' hp hstep
    obtain ⟨stale, hstale, -, -, -, -, hinsts⟩ := scanSymbol_probe_cases hstep
    rw [hinsts]
    rintro ⟨hinst, hsome⟩
    obtain ⟨hopen, first, hfirst, hon⟩ := hp hinst
    have hrefused : symbol ≠ row.instId := fun heq => h.row_off ⟨by
      rw [← heq, ← hon.2]
      exact hon.1, heq.symm⟩
    -- every row of the instrument goes with a bot row that is cancelled
    have htaken : ∀ other ∈ openOrders.data, other.On symbol → ∃ order ∈ stale, order.Took other := by
      intro other hother hon
      obtain ⟨bot', hbot', ⟨hnamed', hon'⟩, hisBot', hdiffers, hnames⟩ := h.clearable other hother hon
      have hmatch : matchesActiveSignalOrder bot'.clOrdId
          (probeScan (signalOf symbol signalTimeMs triggerPrice) symbol) = false := by
        simp [probeScan, signalOf, matchesActiveSignalOrder, hid, hdiffers]
      have hmem : bot' ∈ p.openOrderRows symbol := by
        rw [hopen]
        exact List.mem_filter.mpr ⟨hbot', by simp [← hon', hnamed']⟩
      obtain ⟨order, horder, hstatus, horderId, hordId⟩ :=
        mem_refusedStale hmem hisBot' hmatch hrefused
      exact ⟨order, hstale ▸ horder, hstatus, by rwa [horderId, hordId]⟩
    obtain ⟨order, horder, htook⟩ := htaken first hfirst hon
    apply hsome rfl ⟨order, horder, htook.1⟩
    refine List.filter_eq_nil_iff.mpr fun other hother hkept => ?_
    rw [hopen] at hother
    obtain ⟨hmem, hon'⟩ := List.mem_filter.mp hother
    obtain ⟨order', horder', htook'⟩ := htaken other hmem (by simpa [OrderRow.On] using hon')
    exact of_decide_eq_true hkept order' horder' htook'
  refine foldlM_reaches (x := symbol) ?_ ?_ ?_ hreach ?_ hscan
  · rw [Inputs.tickersToScan, mem_mergeWatchlistTickers, htickers]
    exact .inl List.mem_cons_self
  · intro p s p' hp hstep hinst
    rcases eq_or_ne s symbol with rfl | hs
    · exact absurd hinst (hreach p p' hp hstep)
    · obtain ⟨stale, -, -, -, -, hrows', hinsts⟩ := scanSymbol_probe_cases hstep
      rw [hrows', Function.update_of_ne hs.symm]
      exact hp ((hinsts symbol).mp hinst).1
  · intro p s p' hp hstep
    obtain ⟨stale, -, -, -, -, -, hinsts⟩ := scanSymbol_probe_cases hstep
    exact fun hinst => hp ((hinsts symbol).mp hinst).1
  · intro hinst
    have hinst' : symbol ∈ openOrderInstIds openOrders.data := hrows ▸ hinst
    obtain ⟨first, hfirst, hon⟩ := List.mem_map.mp hinst'
    obtain ⟨hmem, hnamed⟩ := List.mem_filter.mp hfirst
    exact ⟨congrArg (openOrderRowsByInstId · symbol) hrows, first, hmem, by simpa using hnamed, hon⟩

/-- When the orders are well placed in every cycle, no identifier is forgotten. -/
lemma not_forgotten_of_ordersUnique (haccount : accountContextError positions openOrders = false)
    (hdata : openOrders.failed = false)
    (hall : ∀ i : Inputs Unit F, i.positions = positions → i.openOrders = openOrders → ScansOwn i →
      OrdersUnique i) : ¬ Forgotten F positions openOrders.data bot row symbol := by
  intro h
  obtain ⟨signalTimeMs, triggerPrice, hid⟩ := h.generates
  obtain ⟨p, hscan⟩ := scanPhase_probe positions openOrders row.instId
    (signalOf symbol signalTimeMs triggerPrice)
  have hcall := probe_call haccount hscan rfl rfl
    (show generateClientOrderId symbol signalTimeMs triggerPrice ∉ p.existingClientOrderIds from
      hid ▸ forgotten_id h hdata hscan) (forgotten_inst h haccount hdata hid hscan) h.noPosition
  have hwell := (hall _ rfl rfl (probe_scansOwn _ _ _ _)).placed _ hcall
  obtain ⟨order, horder, hstatus, hsymbol, -⟩ := hwell.freshId row h.row_mem hid.symm
  rw [(runCalls_eq hscan).2] at horder
  exact probe_refused hscan order horder hstatus hsymbol

end forgotten

end misfit

/-- **The orders of a demo cycle are unique**: whatever the universe, the scans and the exchange's
answers are, exactly on the accounts that fit.
Source: `demo_trading.py` `run_once`, `_account_context_error`, `_okx_response_failed`. -/
theorem ordersUnique_iff [Inhabited F] (positions : Response PositionRow)
    (openOrders : Response OrderRow) :
    (∀ (β : Type) (i : Inputs β F), i.positions = positions → i.openOrders = openOrders →
      ScansOwn i → OrdersUnique i) ↔ SetsFit F positions openOrders := by
  constructor
  · intro h
    rw [SetsFit, or_iff_not_imp_left, Bool.not_eq_true]
    intro haccount
    cases hfailed : openOrders.failed with
    | true => exact (if_pos rfl).mpr (nothingHidden_of_ordersUnique haccount hfailed (h Unit))
    | false =>
        refine (if_neg Bool.false_ne_true).mpr fun bot row symbol => ?_
        exact not_forgotten_of_ordersUnique haccount hfailed (h Unit)
  · rintro hfit β i rfl rfl hown
    exact ordersUnique_of_setsFit hfit hown

/-! ## A hidden order -/

section concrete

attribute [local instance] demoOrderIdText

/-- An open order of an instrument, in a response with a good code and a failed row, and a fresh signal
of the instrument. -/
def hiddenOrder : Inputs Unit ℚ where
  config := { maxOpenPositions := 3, leverage := 5, watchlistSymbols := [] }
  broker := acceptingBroker
  exchange := ()
  positions := ⟨"0", [], []⟩
  openOrders := ⟨"0", ["51000"],
    [⟨"BTC-USDT-SWAP", "ODAAAAAAAAAAAAAAAAAAAA", "OLD1", "live", "limit", "buy"⟩]⟩
  universeTickers := .ok ["BTC-USDT-SWAP"]
  evaluate symbol :=
    .ok (.scanned ⟨symbol, "enter", "second_pullback", some 100.19, some 1000⟩)

/-- The account is read, and the second order of the instrument is placed beside the first. -/
theorem hiddenOrder_duplicates : accountContextError hiddenOrder.positions hiddenOrder.openOrders = false ∧
    ScansOwn hiddenOrder ∧ ¬ OrdersUnique hiddenOrder := by
  refine ⟨by decide, ?_, fun h => ?_⟩
  · rintro symbol result heq
    cases heq
    rfl
  · have hcall : ⟨"BTC-USDT-SWAP", "ODE7EEA3B7D78D33BF37A6", true⟩ ∈ runCalls hiddenOrder := by
      decide +kernel
    have hexpired : (runOnce hiddenOrder).expiredOrders = [] := by decide +kernel
    obtain ⟨order, horder, -⟩ := (h.placed _ hcall).noOrder _ List.mem_cons_self
      ⟨by decide, rfl⟩
    rw [hexpired] at horder
    cases horder

end concrete

end MuStrategy.DemoTrading
