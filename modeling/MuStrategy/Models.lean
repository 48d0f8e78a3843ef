import MuStrategy.Lib.Check

/-!
# Entry decisions

The closed catalogue of entry decisions: every decision code has one disposition.
-/

namespace MuStrategy

open Lib

/-- What a decision means for the entry. Source: `models.py` `EntryDisposition`. -/
inductive EntryDisposition where
  | ready
  | wait
  | block
  | unknown
  deriving DecidableEq

/-- Where a decision is made. Source: `models.py` `EntryDecisionStage`. -/
inductive EntryDecisionStage where
  | input
  | signal
  | pendingEntry
  | execution
  | unknown
  deriving DecidableEq

/-- The reason codes of entry decisions. Source: `models.py` `EntryDecisionCode`. -/
inductive EntryDecisionCode where
  | unknown
  | marketDataUnavailable
  | noCandles
  | currentBarOutsideTradingWindow
  | referenceMarketClosed
  | regimeBlocked
  | rsiBelowFloor
  | macdWeakening
  | noConfirmedFibRetest
  | noRecentConfirmedFibRetest
  | signalConfirmed
  | waitingSecondPullback
  | secondPullbackLimitReady
  | priceAwayFromFib
  | nextCandleRequired
  | nextFillOutsideTradingWindow
  | nextCandleDidNotBreakSignalHigh
  | executionPriceUnavailable
  | signalCandleTooWide
  | entryTooFarAboveFib
  | entryTooFarAboveSignalClose
  | reverseFibResistance
  | executionAccepted
  deriving DecidableEq

namespace EntryDecisionCode

/-- The members, in declaration order. -/
def members : List EntryDecisionCode :=
  [.unknown, .marketDataUnavailable, .noCandles, .currentBarOutsideTradingWindow,
    .referenceMarketClosed, .regimeBlocked, .rsiBelowFloor, .macdWeakening,
    .noConfirmedFibRetest, .noRecentConfirmedFibRetest, .signalConfirmed,
    .waitingSecondPullback, .secondPullbackLimitReady, .priceAwayFromFib, .nextCandleRequired,
    .nextFillOutsideTradingWindow, .nextCandleDidNotBreakSignalHigh, .executionPriceUnavailable,
    .signalCandleTooWide, .entryTooFarAboveFib, .entryTooFarAboveSignalClose,
    .reverseFibResistance, .executionAccepted]

/-- The text of a decision code. -/
def value : EntryDecisionCode → String
  | .unknown => "unknown"
  | .marketDataUnavailable => "market_data_unavailable"
  | .noCandles => "no_candles"
  | .currentBarOutsideTradingWindow => "current_bar_outside_trading_window"
  | .referenceMarketClosed => "reference_market_closed"
  | .regimeBlocked => "regime_blocked"
  | .rsiBelowFloor => "rsi_below_floor"
  | .macdWeakening => "macd_weakening"
  | .noConfirmedFibRetest => "no_confirmed_fib_retest"
  | .noRecentConfirmedFibRetest => "no_recent_confirmed_fib_retest"
  | .signalConfirmed => "signal_confirmed"
  | .waitingSecondPullback => "waiting_second_pullback"
  | .secondPullbackLimitReady => "second_pullback_limit_ready"
  | .priceAwayFromFib => "price_away_from_fib"
  | .nextCandleRequired => "next_candle_required"
  | .nextFillOutsideTradingWindow => "next_fill_outside_trading_window"
  | .nextCandleDidNotBreakSignalHigh => "next_candle_did_not_break_signal_high"
  | .executionPriceUnavailable => "execution_price_unavailable"
  | .signalCandleTooWide => "signal_candle_too_wide"
  | .entryTooFarAboveFib => "entry_too_far_above_fib"
  | .entryTooFarAboveSignalClose => "entry_too_far_above_signal_close"
  | .reverseFibResistance => "reverse_fib_resistance"
  | .executionAccepted => "execution_accepted"

instance : PyEnum EntryDecisionCode where
  members := members
  value := value
  find_value := by intro a; cases a <;> decide

/-- The disposition of a decision code.
Source: `models.py` `ENTRY_DECISION_CATALOG`, `entry_decision_metadata`. -/
def disposition : EntryDecisionCode → EntryDisposition
  | .unknown => .unknown
  | .marketDataUnavailable | .regimeBlocked | .rsiBelowFloor | .macdWeakening
  | .signalCandleTooWide | .entryTooFarAboveFib | .entryTooFarAboveSignalClose
  | .reverseFibResistance => .block
  | .noCandles | .currentBarOutsideTradingWindow | .referenceMarketClosed
  | .noConfirmedFibRetest | .noRecentConfirmedFibRetest | .waitingSecondPullback
  | .priceAwayFromFib | .nextCandleRequired | .nextFillOutsideTradingWindow
  | .nextCandleDidNotBreakSignalHigh | .executionPriceUnavailable => .wait
  | .signalConfirmed | .secondPullbackLimitReady | .executionAccepted => .ready

/-- The stage of a decision code.
Source: `models.py` `ENTRY_DECISION_CATALOG`, `entry_decision_metadata`. -/
def stage : EntryDecisionCode → EntryDecisionStage
  | .unknown => .unknown
  | .marketDataUnavailable | .noCandles | .currentBarOutsideTradingWindow | .referenceMarketClosed => .input
  | .regimeBlocked | .rsiBelowFloor | .macdWeakening | .noConfirmedFibRetest | .noRecentConfirmedFibRetest
  | .signalConfirmed => .signal
  | .waitingSecondPullback | .secondPullbackLimitReady | .priceAwayFromFib => .pendingEntry
  | .nextCandleRequired | .nextFillOutsideTradingWindow | .nextCandleDidNotBreakSignalHigh
  | .executionPriceUnavailable | .signalCandleTooWide | .entryTooFarAboveFib | .entryTooFarAboveSignalClose
  | .reverseFibResistance | .executionAccepted => .execution

end EntryDecisionCode

end MuStrategy
