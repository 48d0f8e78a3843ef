import MuStrategy.Lib.CalendarDays
import MuStrategy.Strategy.TradingCalendar

/-!
# The schedule of trading windows

What a viewer is shown of the windows: those of today as instants, and the next one.

* `EasternClock` — the zone data, with the instants of local times.
* `tradingWindowSchedule` — the schedule.
* `windows_spec`, `evaluate_spec`, `schedule_spec`, `nextWindow_spec` — what its parts return.
-/

namespace MuStrategy.Strategy

open Lib

/-- The zone data of New York, read both ways. -/
class EasternClock extends Eastern where
  /-- `int((datetime.combine(day, time.min, ZoneInfo("America/New_York")) + timedelta(minutes=minute)).timestamp()
  * 1000)` of the day with a number; `none` raises `OverflowError`. -/
  timestamp? : ℕ → ℕ → Option ℤ

/-- What the schedule raises. -/
inductive ScheduleError where
  /-- What the windows of a day raise. -/
  | strategy (error : StrategyError)
  /-- `OverflowError`: a date after 9999-12-31. -/
  | overflow

/-- The day with a number. -/
def dayOf (n : ℕ) : LocalTime :=
  ⟨(Calendar.ofOrdinal n).1, (Calendar.ofOrdinal n).2.1, (Calendar.ofOrdinal n).2.2, 0⟩

/-- The number of a day. -/
def dayNumber (t : LocalTime) : ℕ := Calendar.ordinal t.year t.month t.day

lemma dayNumber_dayOf {n minute : ℕ} (hn : 1 ≤ n) : dayNumber { dayOf n with minute := minute } = n :=
  Calendar.ordinal_ofOrdinal hn

section Schedule

variable [EasternClock]

/-- Source: `trading_calendar.py` `trading_window_schedule`, `stamp`. -/
def stamp (day minute : ℕ) : Except ScheduleError ℤ := orThrow (EasternClock.timestamp? day minute) .overflow

/-- `[stamp(day, start), stamp(day, end)]`. -/
def stampWindow (day : ℕ) (window : ℕ × ℕ) : Except ScheduleError (ℤ × ℤ) := do
  let start ← stamp day window.1
  let stop ← stamp day window.2
  pure (start, stop)

/-- The market session of a day that has one. -/
def stampSession (day : ℕ) (s : Session) : Except ScheduleError (Option (ℤ × ℤ)) :=
  if s.opening < s.closing then some <$> stampWindow day (s.opening, s.closing) else pure none

/-- The first window of a day, in their order, that starts after an instant. -/
def firstAfter (atMs : ℤ) (day : ℕ) : List (ℕ × ℕ) → Except ScheduleError (Option (ℤ × ℤ))
  | [] => pure none
  | window :: rest => do
      let start ← stamp day window.1
      if atMs < start then do
        let found ← stampWindow day window
        pure (some found)
      else firstAfter atMs day rest

/-- The search for the next window, through so many days from a day on. A day that the calendar does not
cover ends it. -/
def nextWindow (calendar : CalendarId) (windowsEt : List (String × String)) (atMs : ℤ) :
    ℕ → ℕ → Except ScheduleError (Option (ℤ × ℤ))
  | 0, _ => pure none
  | days + 1, day =>
      if Calendar.maxOrdinal < day then throw .overflow
      else
        match windows (dayOf day) calendar windowsEt with
        | .error (.calendarUnavailable _) => pure none
        | .error e => throw (.strategy e)
        | .ok (_, upcoming) => do
            let found ← firstAfter atMs day upcoming
            match found with
            | some window => pure (some window)
            | none => nextWindow calendar windowsEt atMs days (day + 1)

/-- What the schedule shows. -/
structure TradingWindowSchedule where
  decision : TradingWindowDecision
  todayWindows : List (ℤ × ℤ)
  marketSession : Option (ℤ × ℤ)
  nextWindow : Option (ℤ × ℤ)

/-- Source: `trading_calendar.py` `trading_window_schedule`; the decision's Eastern date is read from the zone
data again. -/
def tradingWindowSchedule (calendar : CalendarId) (windowsEt : List (String × String)) (atMs : ℤ) :
    Except ScheduleError TradingWindowSchedule := do
  let decision ← raiseAs .strategy (evaluateTradingWindow calendar windowsEt atMs)
  let t ← raiseAs .strategy (orThrow (Eastern.localTime? atMs)
    (.calendarUnavailable "America/New_York timezone unavailable"))
  let today := dayNumber t
  let (s, inSession) ← raiseAs .strategy (windows (dayOf today) calendar windowsEt)
  let todayWindows ← inSession.mapM (stampWindow today)
  let marketSession ← stampSession today s
  let next ← nextWindow calendar windowsEt atMs 370 today
  pure ⟨decision, todayWindows, marketSession, next⟩

end Schedule

/-! ### The windows of a day -/

/-- The windows depend on the date only. -/
lemma windows_minute (t : LocalTime) (minute : ℕ) (calendar : CalendarId) (windowsEt : List (String × String)) :
    windows { t with minute := minute } calendar windowsEt = windows t calendar windowsEt := rfl

lemma minuteOf_lt {value : String} {minute : ℕ} (h : minuteOf value = .ok minute) : minute < 1440 := by
  simp only [minuteOf] at h
  split at h
  · obtain ⟨hour, -, h⟩ := bind_eq_ok.mp h
    obtain ⟨rest, -, h⟩ := bind_eq_ok.mp h
    obtain ⟨_, hbounds, h⟩ := bind_eq_ok.mp h
    rw [pure_eq_ok_iff] at h
    simp only [require_eq_ok, Bool.and_eq_true, decide_eq_true_eq] at hbounds
    omega
  · cases h

/-- A window of a session, as it was configured. -/
lemma clipWindow_eq_some {s : Session} {window : String × String} {w : ℕ × ℕ}
    (h : clipWindow s window = .ok (some w)) :
    w.1 < w.2 ∧ ∃ first last, minuteOf window.1 = .ok first ∧ minuteOf window.2 = .ok last ∧ first ≤ last ∧
      w = (max first s.opening, min (last + 1) s.closing) := by
  obtain ⟨first, hfirst, h⟩ := bind_eq_ok.mp h
  obtain ⟨last, hlast, h⟩ := bind_eq_ok.mp h
  obtain ⟨_, hle, h⟩ := bind_eq_ok.mp h
  rw [pure_eq_ok_iff] at h
  split at h
  · rename_i hlt
    cases h
    simp only [require_eq_ok, decide_eq_true_eq] at hle
    exact ⟨hlt, first, last, hfirst, hlast, hle, rfl⟩
  · cases h

/-- The windows of a day are configured ones, cut to the session, in the order of their starts. -/
lemma windows_spec {t : LocalTime} {calendar : CalendarId} {windowsEt : List (String × String)} {s : Session}
    {ws : List (ℕ × ℕ)} (h : windows t calendar windowsEt = .ok (s, ws)) :
    session t calendar = .ok s ∧ (∀ w ∈ ws, ∃ window ∈ windowsEt, clipWindow s window = .ok (some w)) ∧
      ws.Pairwise fun a b => a.1 ≤ b.1 := by
  obtain ⟨s', hs, h⟩ := bind_eq_ok.mp h
  obtain ⟨clipped, hclipped, h⟩ := bind_eq_ok.mp h
  rw [pure_eq_ok_iff] at h
  cases h
  refine ⟨hs, fun w hw => ?_, ?_⟩
  · have hmem : some w ∈ clipped := by
      have := (List.perm_insertionSort _ _).mem_iff.mp hw
      rw [List.mem_filterMap] at this
      obtain ⟨o, ho, hsome⟩ := this
      exact (show o = some w from hsome) ▸ ho
    obtain ⟨window, hwindow, hclip⟩ := exists_left_of_mem (forall₂_of_mapM_eq_ok hclipped) hmem
    exact ⟨window, hwindow, hclip⟩
  · have _ : Std.Total fun a b : ℕ × ℕ => a.1 < b.1 ∨ a.1 = b.1 ∧ a.2 ≤ b.2 := ⟨fun a b => by omega⟩
    have _ : IsTrans (ℕ × ℕ) fun a b => a.1 < b.1 ∨ a.1 = b.1 ∧ a.2 ≤ b.2 := ⟨fun a b c hab hbc => by omega⟩
    have hsorted := List.pairwise_insertionSort (fun a b : ℕ × ℕ => a.1 < b.1 ∨ a.1 = b.1 ∧ a.2 ≤ b.2)
      (clipped.filterMap id)
    exact hsorted.imp fun h => by omega

/-! ### What the schedule returns -/

/-- An instant is allowed where its minute lies in a window of its day. -/
lemma evaluate_spec [Eastern] {calendar : CalendarId} {windowsEt : List (String × String)} {atMs : ℤ}
    {d : TradingWindowDecision} (h : evaluateTradingWindow calendar windowsEt atMs = .ok d) :
    ∃ t s ws, Eastern.localTime? atMs = some t ∧ windows t calendar windowsEt = .ok (s, ws) ∧
      (d.allowed = true ↔ ∃ w ∈ ws, w.1 ≤ t.minute ∧ t.minute < w.2) := by
  obtain ⟨t, ht, h⟩ := bind_eq_ok.mp h
  obtain ⟨⟨s, ws⟩, hws, h⟩ := bind_eq_ok.mp h
  rw [pure_eq_ok_iff] at h
  subst h
  refine ⟨t, s, ws, by simpa using ht, hws, ?_⟩
  have hany : (ws.any fun window => window.1 ≤ t.minute && t.minute < window.2) = true ↔
      ∃ w ∈ ws, w.1 ≤ t.minute ∧ t.minute < w.2 := by
    simp
  rw [← hany]
  simp only [TradingWindowDecision.allowed, decide_eq_true_eq]
  cases ws.any fun window => window.1 ≤ t.minute && t.minute < window.2 with
  | true => simp
  | false =>
      simp only [Bool.false_eq_true, if_false, iff_false]
      split <;> intro h <;> cases h

/-- An instant whose minute lies in a window of its day is evaluated. -/
lemma evaluate_of_windows [Eastern] {calendar : CalendarId} {windowsEt : List (String × String)} {atMs : ℤ}
    {t : LocalTime} {s : Session} {ws : List (ℕ × ℕ)} (ht : Eastern.localTime? atMs = some t)
    (hws : windows t calendar windowsEt = .ok (s, ws)) :
    ∃ d, evaluateTradingWindow calendar windowsEt atMs = .ok d ∧
      (d.allowed = true ↔ ∃ w ∈ ws, w.1 ≤ t.minute ∧ t.minute < w.2) := by
  have hok : (evaluateTradingWindow calendar windowsEt atMs).isOk = true := by
    rw [evaluateTradingWindow, ht, orThrow_some, ok_bind, hws, ok_bind]
    rfl
  obtain ⟨d, hd⟩ := exists_eq_ok_of_isOk hok
  obtain ⟨t', s', ws', ht', hws', hallowed⟩ := evaluate_spec hd
  rw [ht] at ht'
  cases ht'
  rw [hws] at hws'
  cases hws'
  exact ⟨d, hd, hallowed⟩

variable [EasternClock] {calendar : CalendarId} {windowsEt : List (String × String)} {atMs : ℤ}

lemma stamp_eq_ok {day minute : ℕ} {startMs : ℤ} :
    stamp day minute = .ok startMs ↔ EasternClock.timestamp? day minute = some startMs := orThrow_eq_ok

lemma stampWindow_eq_ok {day : ℕ} {window : ℕ × ℕ} {shown : ℤ × ℤ} :
    stampWindow day window = .ok shown ↔ EasternClock.timestamp? day window.1 = some shown.1 ∧
      EasternClock.timestamp? day window.2 = some shown.2 := by
  simp only [stampWindow, bind_eq_ok, stamp_eq_ok, pure_eq_ok_iff]
  constructor
  · rintro ⟨start, hstart, stop, hstop, rfl⟩
    exact ⟨hstart, hstop⟩
  · rintro ⟨hstart, hstop⟩
    exact ⟨shown.1, hstart, shown.2, hstop, rfl⟩

/-- The windows before the found one start no later than the instant; if none is found, all of them do. -/
lemma firstAfter_spec {day : ℕ} {ws : List (ℕ × ℕ)} {found : Option (ℤ × ℤ)}
    (h : firstAfter atMs day ws = .ok found) :
    (found = none ∧ ∀ v ∈ ws, ∃ start, EasternClock.timestamp? day v.1 = some start ∧ start ≤ atMs) ∨
      ∃ earlier w later shown, ws = earlier ++ w :: later ∧ found = some shown ∧ stampWindow day w = .ok shown ∧
        atMs < shown.1 ∧
        ∀ v ∈ earlier, ∃ start, EasternClock.timestamp? day v.1 = some start ∧ start ≤ atMs := by
  induction ws with
  | nil =>
      rw [firstAfter, pure_eq_ok_iff] at h
      exact Or.inl ⟨h.symm, by simp⟩
  | cons w rest ih =>
      rw [firstAfter] at h
      obtain ⟨start, hstart, h⟩ := bind_eq_ok.mp h
      rw [stamp_eq_ok] at hstart
      split at h
      · rename_i hlt
        obtain ⟨shown, hshown, h⟩ := bind_eq_ok.mp h
        rw [pure_eq_ok_iff] at h
        have hstart' := (stampWindow_eq_ok.mp hshown).1
        rw [hstart] at hstart'
        cases hstart'
        exact Or.inr ⟨[], w, rest, shown, rfl, h.symm, hshown, hlt, by simp⟩
      · rename_i hnot
        have hw : ∃ start, EasternClock.timestamp? day w.1 = some start ∧ start ≤ atMs :=
          ⟨start, hstart, by omega⟩
        rcases ih h with ⟨hnone, hall⟩ | ⟨earlier, w', later, shown, rfl, hfound, hshown, hlt, hall⟩
        · exact Or.inl ⟨hnone, List.forall_mem_cons.mpr ⟨hw, hall⟩⟩
        · exact Or.inr ⟨w :: earlier, w', later, shown, rfl, hfound, hshown, hlt,
            List.forall_mem_cons.mpr ⟨hw, hall⟩⟩

/-- **The next window** is the first of its day that starts after the instant, and no window of the days
searched before starts after it. -/
lemma nextWindow_spec {days day : ℕ} {shown : ℤ × ℤ}
    (h : nextWindow calendar windowsEt atMs days day = .ok (some shown)) :
    ∃ later s earlier w rest, day + later ≤ Calendar.maxOrdinal ∧
      windows (dayOf (day + later)) calendar windowsEt = .ok (s, earlier ++ w :: rest) ∧
      stampWindow (day + later) w = .ok shown ∧ atMs < shown.1 ∧
      (∀ v ∈ earlier, ∃ start, EasternClock.timestamp? (day + later) v.1 = some start ∧ start ≤ atMs) ∧
      ∀ before < later, ∃ s ws, windows (dayOf (day + before)) calendar windowsEt = .ok (s, ws) ∧
        ∀ v ∈ ws, ∃ start, EasternClock.timestamp? (day + before) v.1 = some start ∧ start ≤ atMs := by
  induction days generalizing day with
  | zero => cases h
  | succ days ih =>
      rw [nextWindow] at h
      split at h
      · cases h
      · rename_i hday
        cases hws : windows (dayOf day) calendar windowsEt with
        | error e =>
            rw [hws] at h
            cases e <;> cases h
        | ok result =>
            obtain ⟨s, ws⟩ := result
            rw [hws] at h
            obtain ⟨found, hfound, h⟩ := bind_eq_ok.mp h
            rcases firstAfter_spec hfound with ⟨rfl, hall⟩ | ⟨earlier, w, rest, shown', rfl, rfl, hshown, hlt, hall⟩
            · -- nothing on this day: the rest of the search starts tomorrow
              obtain ⟨later, s', earlier, w, rest, hmax, hws', hshown, hlt, hearlier, hbefore⟩ := ih h
              rw [Nat.add_right_comm] at hmax hws' hshown hearlier
              refine ⟨later + 1, s', earlier, w, rest, hmax, hws', hshown, hlt, hearlier, ?_⟩
              intro before hlater
              rcases before with _ | before
              · exact ⟨s, ws, hws, hall⟩
              · have := hbefore before (by omega)
                rwa [Nat.add_right_comm] at this
            · rw [pure_eq_ok_iff] at h
              cases h
              exact ⟨0, s, earlier, w, rest, by omega, hws, hshown, hlt, hall, by simp⟩

/-- The parts of a schedule. -/
lemma schedule_spec {schedule : TradingWindowSchedule}
    (h : tradingWindowSchedule calendar windowsEt atMs = .ok schedule) :
    ∃ t s ws, Eastern.localTime? atMs = some t ∧
      windows (dayOf (dayNumber t)) calendar windowsEt = .ok (s, ws) ∧
      evaluateTradingWindow calendar windowsEt atMs = .ok schedule.decision ∧
      List.Forall₂ (fun w shown => stampWindow (dayNumber t) w = .ok shown) ws schedule.todayWindows ∧
      nextWindow calendar windowsEt atMs 370 (dayNumber t) = .ok schedule.nextWindow := by
  obtain ⟨decision, hdecision, h⟩ := bind_eq_ok.mp h
  obtain ⟨t, ht, h⟩ := bind_eq_ok.mp h
  obtain ⟨⟨s, ws⟩, hws, h⟩ := bind_eq_ok.mp h
  obtain ⟨todayWindows, htoday, h⟩ := bind_eq_ok.mp h
  obtain ⟨market, -, h⟩ := bind_eq_ok.mp h
  obtain ⟨next, hnext, h⟩ := bind_eq_ok.mp h
  rw [pure_eq_ok_iff] at h
  subst h
  rw [raiseAs_eq_ok] at hdecision ht hws
  rw [orThrow_eq_ok] at ht
  exact ⟨t, s, ws, ht, hws, hdecision, forall₂_of_mapM_eq_ok htoday, hnext⟩

end MuStrategy.Strategy
