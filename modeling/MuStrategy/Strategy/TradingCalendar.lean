import Mathlib.Data.List.Sort
import MuStrategy.Lib.Calendar
import MuStrategy.TrustedData.Candles

/-!
# Trading windows

A strategy trades in windows of the day in New York, cut to the session of a reference calendar.

* `Eastern` — the time zone data: the local time of an instant.
* `session`, `windows` — the session of a day, and the strategy's windows in it.
* `evaluateTradingWindow` — whether an instant lies in a window.
-/

namespace MuStrategy.Strategy

open Lib TrustedData

/-- What strategy code raises. -/
inductive StrategyError where
  /-- `ValueError`. -/
  | value (text : String)
  /-- `CalendarUnavailable`, a `ValueError`. -/
  | calendarUnavailable (text : String)
  /-- `ZeroDivisionError`. -/
  | zeroDivision
  /-- `IndexError`. -/
  | index
  deriving DecidableEq

/-- The local date and minute of an instant. -/
structure LocalTime where
  year : ℕ
  month : ℕ
  day : ℕ
  minute : ℕ
  deriving DecidableEq

/-- The zone data of New York. -/
class Eastern where
  /-- `datetime.fromtimestamp(ms / 1000, timezone.utc).astimezone(ZoneInfo("America/New_York"))`;
  `none` raises. -/
  localTime? : ℤ → Option LocalTime

/-- The versioned calendars. A configuration holds one of them, and the digest that belongs to it.
Source: `trading_calendar.py` `CALENDAR_IDS`. -/
inductive CalendarId where
  /-- `weekday_windows_v1`. -/
  | legacy
  /-- `us_equities_2025_2028_v1`. -/
  | usEquities
  /-- `continuous_v1`. -/
  | continuous
  deriving DecidableEq

/-- Source: `trading_calendar.py` `_HOLIDAYS`. -/
def holidays? : ℕ → Option (List (ℕ × ℕ))
  | 2025 => some [(1, 1), (1, 9), (1, 20), (2, 17), (4, 18), (5, 26), (6, 19), (7, 4), (9, 1), (11, 27), (12, 25)]
  | 2026 => some [(1, 1), (1, 19), (2, 16), (4, 3), (5, 25), (6, 19), (7, 3), (9, 7), (11, 26), (12, 25)]
  | 2027 => some [(1, 1), (1, 18), (2, 15), (3, 26), (5, 31), (6, 18), (7, 5), (9, 6), (11, 25), (12, 24)]
  | 2028 => some [(1, 17), (2, 21), (4, 14), (5, 29), (6, 19), (7, 4), (9, 4), (11, 23), (12, 25)]
  | _ => none

/-- Source: `trading_calendar.py` `_EARLY_CLOSES`. -/
def earlyCloses : ℕ → List (ℕ × ℕ)
  | 2025 => [(7, 3), (11, 28), (12, 24)]
  | 2026 => [(11, 27), (12, 24)]
  | 2027 => [(11, 26)]
  | 2028 => [(7, 3), (11, 24)]
  | _ => []

/-- The state of a session. -/
inductive SessionState where
  | weekend
  | holiday
  | earlyClose
  | openDay
  deriving DecidableEq

/-- A session: its state, its opening and closing minutes. -/
structure Session where
  state : SessionState
  opening : ℕ
  closing : ℕ
  deriving DecidableEq

/-- `day.weekday()`. -/
def weekday (t : LocalTime) : ℕ := (Calendar.ordinal t.year t.month t.day + 6) % 7

/-- Source: `trading_calendar.py` `_session`. -/
def session (day : LocalTime) (calendar : CalendarId) : Except StrategyError Session :=
  if calendar = .usEquities && (holidays? day.year).isNone then
    throw (.calendarUnavailable "reference calendar covers 2025 through 2028 only")
  else if calendar ≠ .continuous && 5 ≤ weekday day then pure ⟨.weekend, 0, 0⟩
  else if calendar ≠ .usEquities then pure ⟨.openDay, 0, 1440⟩
  else if ((holidays? day.year).getD []).contains (day.month, day.day) then pure ⟨.holiday, 0, 0⟩
  else if (earlyCloses day.year).contains (day.month, day.day) then pure ⟨.earlyClose, 570, 780⟩
  else pure ⟨.openDay, 570, 960⟩

/-- `int(text)`, of ASCII digits. -/
def pyInt? (cs : List Char) : Option ℤ :=
  match ((cs.dropWhile isSpace).reverse.dropWhile isSpace).reverse with
  | '-' :: digits => (groupedNat? digits).map fun (n : ℕ) => -(n : ℤ)
  | '+' :: digits => (groupedNat? digits).map fun (n : ℕ) => (n : ℤ)
  | digits => (groupedNat? digits).map fun (n : ℕ) => (n : ℤ)

/-- Source: `trading_calendar.py` `_minute`. -/
def minuteOf (value : String) : Except StrategyError ℕ :=
  let error : StrategyError := .calendarUnavailable "invalid strategy trading window"
  match value.toList.splitOn ':' with
  | [hour, minute] => do
      let hour ← orThrow (pyInt? hour) error
      let minute ← orThrow (pyInt? minute) error
      require (value.length = 5 && 0 ≤ hour && hour < 24 && 0 ≤ minute && minute < 60) error
      pure (hour * 60 + minute).toNat
  | _ => throw error

/-- A strategy's window cut to a session. The last minute of a window is in it; the closing minute of a
session is not. -/
def clipWindow (s : Session) (window : String × String) : Except StrategyError (Option (ℕ × ℕ)) := do
  let first ← minuteOf window.1
  let last ← minuteOf window.2
  require (first ≤ last) (.calendarUnavailable "strategy window must not cross the ET date boundary")
  let first := max first s.opening
  let stop := min (last + 1) s.closing
  pure (if first < stop then some (first, stop) else none)

/-- The session of a day and the windows in it. Source: `trading_calendar.py` `_windows`; the order of the
windows is that of their starts there. -/
def windows (day : LocalTime) (calendar : CalendarId) (windowsEt : List (String × String)) :
    Except StrategyError (Session × List (ℕ × ℕ)) := do
  let s ← session day calendar
  let clipped ← windowsEt.mapM (clipWindow s)
  pure (s, (clipped.filterMap id).insertionSort fun a b => a.1 < b.1 ∨ a.1 = b.1 ∧ a.2 ≤ b.2)

/-- Why an instant is in no window, or that it is in one. -/
inductive WindowReason where
  | allowed
  | referenceMarketClosed
  | currentBarOutsideTradingWindow
  deriving DecidableEq

/-- Source: `trading_calendar.py` `TradingWindowDecision`. -/
structure TradingWindowDecision where
  calendarId : CalendarId
  evaluatedAtMs : ℤ
  session : SessionState
  reason : WindowReason

/-- The field `allowed` of a decision. -/
def TradingWindowDecision.allowed (d : TradingWindowDecision) : Bool := d.reason = .allowed

/-- Source: `trading_calendar.py` `evaluate_trading_window`. -/
def evaluateTradingWindow [Eastern] (calendar : CalendarId) (windowsEt : List (String × String)) (atMs : ℤ) :
    Except StrategyError TradingWindowDecision := do
  let t ← orThrow (Eastern.localTime? atMs)
    (.calendarUnavailable "America/New_York timezone unavailable")
  let (s, inSession) ← windows t calendar windowsEt
  let allowed := inSession.any fun window => window.1 ≤ t.minute && t.minute < window.2
  let reason :=
    if allowed then .allowed
    else if s.state = .holiday || s.state = .weekend then .referenceMarketClosed
    else .currentBarOutsideTradingWindow
  pure ⟨calendar, atMs, s.state, reason⟩

end MuStrategy.Strategy
