import Mathlib.Tactic.Linarith
import MuStrategy.Lib.ClockChange
import MuStrategy.Strategy.WindowSchedule

/-!
# The windows shown and the windows enforced

An instant is evaluated by the minute that its clock shows; the schedule resolves minutes to instants. On a day
whose clock changes the two disagree about a window that is cut by the hour shown twice or by the hour skipped,
and only the continuous calendar has such days: clocks change on Sundays.

* `NewYorkDays` — the days of the zone data.
* `ShowsEnforced` — what the schedule of an instant shows is what is enforced.
* `schedule_shows_enforced` — it is wherever the calendar is not continuous or no window is cut, and one
  window alone is shown as enforced at every instant only if it is not cut.
-/

namespace MuStrategy.Strategy

open Lib

section Clock

variable [EasternClock]

/-- The zone data from a day on: midnights, and what the clock of each day does. Local times are those of
`ClockChange.wall`, and minutes are resolved as by `ClockChange.elapsed`. On the last day that has a date the zone
data may raise. -/
structure NewYorkDays (first : ℕ) (midnight : ℕ → ℤ) (change : ℕ → ClockChange) : Prop where
  first_pos : 1 ≤ first
  midnight_succ : ∀ n, first ≤ n → midnight (n + 1) = midnight n + 60000 * ((change n).minutes : ℤ)
  sunday : ∀ n, first ≤ n → change n ≠ .steady → n % 7 = 0
  localTime : ∀ n atMs t, first ≤ n → midnight n ≤ atMs → atMs < midnight (n + 1) →
    Eastern.localTime? atMs = some t →
      t = { dayOf n with minute := (change n).wall ((atMs - midnight n) / 60000).toNat }
  localTime_isSome : ∀ n atMs, first ≤ n → n < Calendar.maxOrdinal → midnight n ≤ atMs →
    atMs < midnight (n + 1) → (Eastern.localTime? atMs).isSome
  timestamp : ∀ n minute atMs, first ≤ n → minute ≤ 1440 → EasternClock.timestamp? n minute = some atMs →
    atMs = midnight n + 60000 * ((change n).elapsed minute : ℤ)
  timestamp_isSome : ∀ n minute, first ≤ n → n < Calendar.maxOrdinal → minute ≤ 1440 →
    (EasternClock.timestamp? n minute).isSome
  changes : ∀ c, c ≠ .steady → ∃ n, first ≤ n ∧ n + 1 < Calendar.maxOrdinal ∧ change n = c

/-- The instant is allowed. -/
def Allowed (calendar : CalendarId) (windowsEt : List (String × String)) (atMs : ℤ) : Prop :=
  ∃ d, evaluateTradingWindow calendar windowsEt atMs = .ok d ∧ d.allowed = true

/-- An instant lies in a window of its day that started no later than another instant. -/
def InStartedWindow (calendar : CalendarId) (windowsEt : List (String × String)) (startedMs atMs : ℤ) : Prop :=
  ∃ t s ws, Eastern.localTime? atMs = some t ∧ windows t calendar windowsEt = .ok (s, ws) ∧
    ∃ w ∈ ws, w.1 ≤ t.minute ∧ t.minute < w.2 ∧
      ∃ start, EasternClock.timestamp? (dayNumber t) w.1 = some start ∧ start ≤ startedMs

/-- **What is shown is what is enforced**: the instant is allowed where it lies in a window of today, the next
window starts later and at an allowed instant (if it is one of the zone data), and what is allowed until then
lies in a window that has started. -/
structure ShowsEnforced (calendar : CalendarId) (windowsEt : List (String × String)) (atMs : ℤ) : Prop where
  today : ∀ schedule, tradingWindowSchedule calendar windowsEt atMs = .ok schedule →
    (Allowed calendar windowsEt atMs ↔ ∃ shown ∈ schedule.todayWindows, shown.1 ≤ atMs ∧ atMs < shown.2)
  next : ∀ schedule shown, tradingWindowSchedule calendar windowsEt atMs = .ok schedule →
    schedule.nextWindow = some shown →
      atMs < shown.1 ∧
      ((Eastern.localTime? shown.1).isSome → Allowed calendar windowsEt shown.1) ∧
      ∀ u, atMs < u → u < shown.1 → Allowed calendar windowsEt u → InStartedWindow calendar windowsEt atMs u

end Clock

/-- A configured window that no change of the clock cuts. -/
def UncutWindow (window : String × String) : Prop :=
  ∀ first last, minuteOf window.1 = .ok first → minuteOf window.2 = .ok last → Uncut first (last + 1)

/-! ### Days -/

section Days

variable [EasternClock] {first : ℕ} {midnight : ℕ → ℤ} {change : ℕ → ClockChange}

lemma NewYorkDays.midnight_lt (zone : NewYorkDays first midnight change) {n : ℕ} (hn : first ≤ n) :
    midnight n < midnight (n + 1) := by
  rw [zone.midnight_succ n hn]
  cases change n <;> simp [ClockChange.minutes]

lemma NewYorkDays.midnight_le (zone : NewYorkDays first midnight change) {m n : ℕ} (hm : first ≤ m) (hmn : m ≤ n) :
    midnight m ≤ midnight n := by
  induction n, hmn using Nat.le_induction with
  | base => exact le_rfl
  | succ n hmn ih => exact ih.trans (zone.midnight_lt (hm.trans hmn)).le

/-- Every instant from the first midnight on is on a day. -/
lemma NewYorkDays.exists_day (zone : NewYorkDays first midnight change) {atMs : ℤ} (h : midnight first ≤ atMs) :
    ∃ n, first ≤ n ∧ midnight n ≤ atMs ∧ atMs < midnight (n + 1) := by
  have hgrow : ∀ k : ℕ, midnight first + k ≤ midnight (first + k) := by
    intro k
    induction k with
    | zero => simp
    | succ k ih =>
        have hstep := zone.midnight_lt (Nat.le_add_right first k)
        rw [← Nat.add_assoc]
        push_cast
        omega
  have hlater : ∃ k : ℕ, atMs < midnight (first + k) :=
    ⟨(atMs - midnight first).toNat + 1, by have := hgrow ((atMs - midnight first).toNat + 1); omega⟩
  have hleast := Nat.find_spec hlater
  rcases hk : Nat.find hlater with _ | k
  · rw [hk, Nat.add_zero] at hleast
    omega
  · rw [hk] at hleast
    exact ⟨first + k, by omega, not_lt.mp (Nat.find_min hlater (by omega)), hleast⟩

/-- The day of an instant before the end of a later day, and after the start of an earlier one, is between. -/
lemma NewYorkDays.day_le (zone : NewYorkDays first midnight change) {m n : ℕ} {atMs : ℤ} (hn : first ≤ n)
    (hm : midnight m ≤ atMs) (h : atMs < midnight (n + 1)) : m ≤ n := by
  by_contra hlt
  have hle := zone.midnight_le (show first ≤ n + 1 by omega) (show n + 1 ≤ m by omega)
  omega

end Days

/-- Whole minutes are compared as minutes since midnight. -/
lemma stamp_le_iff {start atMs : ℤ} {minute : ℕ} (h : start ≤ atMs) :
    start + 60000 * (minute : ℤ) ≤ atMs ↔ minute ≤ ((atMs - start) / 60000).toNat := by
  omega

/-! ### The windows of a day whose clock changes -/

section Unaffected

/-- The session of a day ends at midnight or before. The continuous calendar's is the whole day, and the others
have none on a Sunday. -/
lemma session_spec {t : LocalTime} {calendar : CalendarId} {s : Session} (h : session t calendar = .ok s) :
    s.closing ≤ 1440 ∧ (calendar = .continuous → s = ⟨.openDay, 0, 1440⟩) ∧
      (calendar ≠ .continuous → weekday t = 6 → s.closing = 0) := by
  unfold session at h
  split_ifs at h with hcover hweekend hlegacy hholiday hearly
  all_goals rw [pure_eq_ok_iff] at h; subst h
  · refine ⟨by simp, fun hc => ?_, fun _ _ => rfl⟩
    simp [hc] at hweekend
  · refine ⟨by simp, fun _ => rfl, fun hc hsunday => ?_⟩
    simp [hc, hsunday] at hweekend
  all_goals
    refine ⟨by simp, fun hc => ?_, fun hc hsunday => ?_⟩
    · simp [hc] at hlegacy
    · simp [hc, hsunday] at hweekend

lemma weekday_dayOf {n : ℕ} (hn : 1 ≤ n) : weekday (dayOf n) = (n + 6) % 7 := by
  unfold weekday dayOf
  rw [Calendar.ordinal_ofOrdinal hn]

variable [EasternClock] {first : ℕ} {midnight : ℕ → ℤ} {change : ℕ → ClockChange} {calendar : CalendarId}
  {windowsEt : List (String × String)}

/-- **No window is cut**: the clock does not change on the day, or the windows are not cut. -/
lemma NewYorkDays.unaffected (zone : NewYorkDays first midnight change)
    (hcalendar : calendar ≠ .continuous ∨ ∀ window ∈ windowsEt, UncutWindow window) {n : ℕ} (hn : first ≤ n)
    {s : Session} {ws : List (ℕ × ℕ)} (hws : windows (dayOf n) calendar windowsEt = .ok (s, ws)) :
    ∀ w ∈ ws, w.1 < w.2 ∧ w.2 ≤ 1440 ∧ Unaffected (change n) w.1 w.2 := by
  intro w hw
  obtain ⟨hs, hmem, -⟩ := windows_spec hws
  obtain ⟨window, hwindow, hclip⟩ := hmem w hw
  obtain ⟨hlt, start, last, hstart, hlast, hle, rfl⟩ := clipWindow_eq_some hclip
  obtain ⟨hclosing, hcontinuous, hsunday⟩ := session_spec hs
  refine ⟨hlt, (min_le_right _ _).trans hclosing, ?_⟩
  by_cases hchange : change n = .steady
  · exact Or.inl hchange
  by_cases hc : calendar = .continuous
  · -- the whole day is open: the window is the configured one
    have huncut := (hcalendar.resolve_left (not_not.mpr hc)) window hwindow start last hstart hlast
    have := minuteOf_lt hlast
    rw [hcontinuous hc]
    dsimp only
    rw [Nat.max_eq_left (Nat.zero_le _), Nat.min_eq_left (by omega)]
    exact Or.inr huncut
  · have hday := zone.sunday n hn hchange
    have hzero := hsunday hc (by rw [weekday_dayOf (zone.first_pos.trans hn)]; omega)
    dsimp only at hlt
    omega

end Unaffected

/-! ### One instant, read both ways -/

section Readings

variable [EasternClock] {first : ℕ} {midnight : ℕ → ℤ} {change : ℕ → ClockChange} {calendar : CalendarId}
  {windowsEt : List (String × String)} {n : ℕ} {atMs : ℤ} {s : Session} {ws : List (ℕ × ℕ)}

/-- The minutes since the midnight of an instant's day. -/
def minutesSince (midnight atMs : ℤ) : ℕ := ((atMs - midnight) / 60000).toNat

/-- What is allowed is read from the minute that the clock shows. -/
lemma NewYorkDays.allowed_iff (zone : NewYorkDays first midnight change) (hn : first ≤ n)
    (hlow : midnight n ≤ atMs) (hhigh : atMs < midnight (n + 1))
    (hws : windows (dayOf n) calendar windowsEt = .ok (s, ws)) (hsome : (Eastern.localTime? atMs).isSome) :
    Allowed calendar windowsEt atMs ↔
      ∃ w ∈ ws, w.1 ≤ (change n).wall (minutesSince (midnight n) atMs) ∧
        (change n).wall (minutesSince (midnight n) atMs) < w.2 := by
  obtain ⟨t, ht⟩ := Option.isSome_iff_exists.mp hsome
  obtain rfl := zone.localTime n atMs t hn hlow hhigh ht
  obtain ⟨d, hd, hallowed⟩ := evaluate_of_windows ht ((windows_minute (dayOf n) _ calendar windowsEt).trans hws)
  refine Iff.trans ?_ hallowed
  constructor
  · rintro ⟨d', hd', h⟩
    rw [hd] at hd'
    cases hd'
    exact h
  · intro h
    exact ⟨d, hd, h⟩

/-- What is shown is read from the minutes since midnight. -/
lemma NewYorkDays.shown_iff (zone : NewYorkDays first midnight change) (hn : first ≤ n) (hlow : midnight n ≤ atMs)
    {w : ℕ × ℕ} (hlt : w.1 < w.2) (hle : w.2 ≤ 1440) {shown : ℤ × ℤ} (hshown : stampWindow n w = .ok shown) :
    shown.1 ≤ atMs ∧ atMs < shown.2 ↔
      (change n).elapsed w.1 ≤ minutesSince (midnight n) atMs ∧
        minutesSince (midnight n) atMs < (change n).elapsed w.2 := by
  obtain ⟨hstart, hstop⟩ := stampWindow_eq_ok.mp hshown
  rw [zone.timestamp n w.1 _ hn (by omega) hstart, zone.timestamp n w.2 _ hn hle hstop, stamp_le_iff hlow,
    ← not_le, stamp_le_iff hlow, not_le]
  rfl

/-- The day of a schedule, and the windows of that day. -/
lemma NewYorkDays.schedule_day (zone : NewYorkDays first midnight change) (hn : first ≤ n)
    (hlow : midnight n ≤ atMs) (hhigh : atMs < midnight (n + 1)) {schedule : TradingWindowSchedule}
    (h : tradingWindowSchedule calendar windowsEt atMs = .ok schedule) :
    ∃ s ws, windows (dayOf n) calendar windowsEt = .ok (s, ws) ∧ (Eastern.localTime? atMs).isSome ∧
      List.Forall₂ (fun w shown => stampWindow n w = .ok shown) ws schedule.todayWindows ∧
      nextWindow calendar windowsEt atMs 370 n = .ok schedule.nextWindow := by
  obtain ⟨t, s, ws, ht, hws, -, htoday, hnext⟩ := schedule_spec h
  obtain rfl := zone.localTime n atMs t hn hlow hhigh ht
  rw [dayNumber_dayOf (zone.first_pos.trans hn)] at hws htoday hnext
  exact ⟨s, ws, hws, by rw [ht]; rfl, htoday, hnext⟩

/-- The windows of today that are shown are read from the minutes since midnight. -/
lemma NewYorkDays.today_iff (zone : NewYorkDays first midnight change) (hn : first ≤ n)
    (hlow : midnight n ≤ atMs) (hbounds : ∀ w ∈ ws, w.1 < w.2 ∧ w.2 ≤ 1440) {todayWindows : List (ℤ × ℤ)}
    (htoday : List.Forall₂ (fun w shown => stampWindow n w = .ok shown) ws todayWindows) :
    (∃ shown ∈ todayWindows, shown.1 ≤ atMs ∧ atMs < shown.2) ↔
      ∃ w ∈ ws, (change n).elapsed w.1 ≤ minutesSince (midnight n) atMs ∧
        minutesSince (midnight n) atMs < (change n).elapsed w.2 := by
  constructor
  · rintro ⟨shown, hshown, hat⟩
    obtain ⟨w, hw, hstamp⟩ := exists_left_of_mem htoday hshown
    exact ⟨w, hw, (zone.shown_iff hn hlow (hbounds w hw).1 (hbounds w hw).2 hstamp).mp hat⟩
  · rintro ⟨w, hw, hat⟩
    obtain ⟨shown, hshown, hstamp⟩ := exists_right_of_mem htoday hw
    exact ⟨shown, hshown, (zone.shown_iff hn hlow (hbounds w hw).1 (hbounds w hw).2 hstamp).mpr hat⟩

end Readings

/-! ### Windows that are not cut -/

section Sufficient

variable [EasternClock] {first : ℕ} {midnight : ℕ → ℤ} {change : ℕ → ClockChange} {calendar : CalendarId}
  {windowsEt : List (String × String)} {n : ℕ} {atMs : ℤ}

/-- What is allowed before the start of the next window lies in a window that has started. -/
lemma NewYorkDays.started (zone : NewYorkDays first midnight change)
    (hcalendar : calendar ≠ .continuous ∨ ∀ window ∈ windowsEt, UncutWindow window) (hn : first ≤ n)
    (hlow : midnight n ≤ atMs) {shown : ℤ × ℤ}
    (hnext : nextWindow calendar windowsEt atMs 370 n = .ok (some shown)) {u : ℤ} (hu : atMs < u)
    (hshown : u < shown.1) (hallowed : Allowed calendar windowsEt u) :
    InStartedWindow calendar windowsEt atMs u := by
  obtain ⟨later, s, earlier, w, rest, -, hws, hstamp, -, hearlier, hbefore⟩ := nextWindow_spec hnext
  obtain ⟨m, hm, hmlow, hmhigh⟩ := zone.exists_day ((zone.midnight_le le_rfl hn).trans (hlow.trans hu.le))
  obtain ⟨d, hd, hd'⟩ := hallowed
  obtain ⟨t, s', ws', ht, hws', hmem⟩ := evaluate_spec hd
  obtain ⟨v, hv, hvlow, hvhigh⟩ := hmem.mp hd'
  obtain rfl := zone.localTime m u t hm hmlow hmhigh ht
  have hday : windows (dayOf m) calendar windowsEt = .ok (s', ws') := hws'
  refine ⟨_, s', ws', ht, hws', v, hv, hvlow, hvhigh, ?_⟩
  rw [dayNumber_dayOf (zone.first_pos.trans hm)]
  obtain ⟨hstart, -⟩ := stampWindow_eq_ok.mp hstamp
  have hnm : n ≤ m := zone.day_le hm hlow (by omega)
  have hunaffected := zone.unaffected hcalendar (show first ≤ n + later by omega) hws
  have hw := hunaffected w (by simp)
  have hstartAt := zone.timestamp (n + later) w.1 _ (by omega) (by omega) hstart
  have hml : m ≤ n + later := by
    refine zone.day_le (by omega) hmlow ?_
    rw [zone.midnight_succ (n + later) (by omega)]
    have hlt := elapsed_lt_elapsed hw.2.2 hw.1
    have hle := (change (n + later)).elapsed_le_minutes hw.2.1
    omega
  rcases Nat.lt_or_eq_of_le hml with hlt | rfl
  · -- an earlier day of the search: all of its windows have started
    obtain ⟨k, rfl⟩ := Nat.exists_eq_add_of_le hnm
    obtain ⟨s'', ws'', hws'', hall⟩ := hbefore k (by omega)
    rw [hday] at hws''
    cases hws''
    exact hall v hv
  · -- the day of the next window: what starts no earlier than it is after the instant
    rw [hday] at hws
    cases hws
    rcases List.mem_append.mp hv with hv | hv
    · exact hearlier v hv
    · exfalso
      have hsorted := (List.pairwise_append.mp (windows_spec hday).2.2).2.1
      have hle : w.1 ≤ v.1 := by
        rcases List.mem_cons.mp hv with rfl | hv
        · exact le_rfl
        · exact List.rel_of_pairwise_cons hsorted hv
      have hv' := hunaffected v (by rw [List.mem_append]; exact Or.inr hv)
      have hin := ((mem_window_iff hv'.2.2 hv'.1 _).mpr ⟨hvlow, hvhigh⟩).1
      rw [← stamp_le_iff hmlow] at hin
      have := elapsed_le_elapsed hw.2.2 hw.1 hv'.2.2 hv'.1 hle
      omega

/-- **Windows that are not cut are shown as they are enforced.** -/
lemma NewYorkDays.showsEnforced (zone : NewYorkDays first midnight change)
    (hcalendar : calendar ≠ .continuous ∨ ∀ window ∈ windowsEt, UncutWindow window) (hat : midnight first ≤ atMs) :
    ShowsEnforced calendar windowsEt atMs := by
  obtain ⟨n, hn, hlow, hhigh⟩ := zone.exists_day hat
  constructor
  · intro schedule h
    obtain ⟨s, ws, hws, hsome, htoday, -⟩ := zone.schedule_day hn hlow hhigh h
    have hunaffected := zone.unaffected hcalendar hn hws
    rw [zone.allowed_iff hn hlow hhigh hws hsome,
      zone.today_iff hn hlow (fun w hw => ⟨(hunaffected w hw).1, (hunaffected w hw).2.1⟩) htoday]
    refine exists_congr fun w => and_congr_right fun hw => ?_
    exact (mem_window_iff (hunaffected w hw).2.2 (hunaffected w hw).1 _).symm
  · intro schedule shown h hfound
    obtain ⟨s, ws, hws, hsome, -, hnext⟩ := zone.schedule_day hn hlow hhigh h
    rw [hfound] at hnext
    obtain ⟨later, s', earlier, w, rest, hmax, hws', hstamp, hlt, -, -⟩ := nextWindow_spec hnext
    refine ⟨hlt, fun hsome' => ?_, fun u hu hu' hallowed => zone.started hcalendar hn hlow hnext hu hu' hallowed⟩
    -- the start of the next window, on its own day
    have hm : first ≤ n + later := by omega
    obtain ⟨hw, hle, hun⟩ := zone.unaffected hcalendar hm hws' w (by simp)
    have hstart := zone.timestamp _ w.1 _ hm (by omega) (stampWindow_eq_ok.mp hstamp).1
    have hfirst := elapsed_lt_elapsed hun hw
    have hminutes := (change (n + later)).elapsed_le_minutes hle
    have hsince : minutesSince (midnight (n + later)) shown.1 = (change (n + later)).elapsed w.1 := by
      unfold minutesSince
      omega
    have hend := zone.midnight_succ (n + later) hm
    rw [zone.allowed_iff hm (by omega) (by omega) hws' hsome', hsince]
    exact ⟨w, by simp, (mem_window_iff hun hw _).mp ⟨le_rfl, hfirst⟩⟩

end Sufficient

/-! ### One window on every day -/

section Single

variable {window : String × String} {start last : ℕ}

/-- The continuous calendar has the configured window on every day. -/
lemma windows_single (hstart : minuteOf window.1 = .ok start) (hlast : minuteOf window.2 = .ok last)
    (hle : start ≤ last) (t : LocalTime) :
    windows t .continuous [window] = .ok (⟨.openDay, 0, 1440⟩, [(start, last + 1)]) := by
  have hlt := minuteOf_lt hlast
  have hclip : clipWindow ⟨.openDay, 0, 1440⟩ window = .ok (some (start, last + 1)) := by
    rw [clipWindow, hstart, ok_bind, hlast, ok_bind, decide_eq_true hle, require_true, ok_bind]
    dsimp only
    rw [Nat.max_eq_left (Nat.zero_le _), Nat.min_eq_left (by omega), if_pos (by omega)]
    rfl
  have hsession : session t .continuous = .ok ⟨.openDay, 0, 1440⟩ := rfl
  rw [windows, hsession, ok_bind, List.mapM_cons, hclip]
  rfl

variable [EasternClock] {first : ℕ} {midnight : ℕ → ℤ} {change : ℕ → ClockChange} {n : ℕ} {atMs : ℤ}

/-- A minute of a day that is not the last one has an instant. -/
lemma NewYorkDays.timestamp_eq (zone : NewYorkDays first midnight change) (hn : first ≤ n)
    (hmax : n < Calendar.maxOrdinal) {minute : ℕ} (hle : minute ≤ 1440) :
    EasternClock.timestamp? n minute = some (midnight n + 60000 * ((change n).elapsed minute : ℤ)) := by
  obtain ⟨shown, hshown⟩ := Option.isSome_iff_exists.mp (zone.timestamp_isSome n minute hn hmax hle)
  rw [hshown, zone.timestamp n minute shown hn hle hshown]

lemma NewYorkDays.stampWindow_eq (zone : NewYorkDays first midnight change) (hn : first ≤ n)
    (hmax : n < Calendar.maxOrdinal) {w : ℕ × ℕ} (h₁ : w.1 ≤ 1440) (h₂ : w.2 ≤ 1440) :
    stampWindow n w = .ok (midnight n + 60000 * ((change n).elapsed w.1 : ℤ),
      midnight n + 60000 * ((change n).elapsed w.2 : ℤ)) :=
  stampWindow_eq_ok.mpr ⟨zone.timestamp_eq hn hmax h₁, zone.timestamp_eq hn hmax h₂⟩

/-- Of one window, today's or tomorrow's is the next one. -/
lemma NewYorkDays.nextWindow_single (zone : NewYorkDays first midnight change) (hn : first ≤ n)
    (hmax : n + 1 < Calendar.maxOrdinal) (hhigh : atMs < midnight (n + 1))
    (hstart : minuteOf window.1 = .ok start) (hlast : minuteOf window.2 = .ok last) (hle : start ≤ last) :
    nextWindow .continuous [window] atMs 370 n = .ok (some
      (if atMs < midnight n + 60000 * ((change n).elapsed start : ℤ) then
        (midnight n + 60000 * ((change n).elapsed start : ℤ),
          midnight n + 60000 * ((change n).elapsed (last + 1) : ℤ))
      else (midnight (n + 1) + 60000 * ((change (n + 1)).elapsed start : ℤ),
          midnight (n + 1) + 60000 * ((change (n + 1)).elapsed (last + 1) : ℤ))) ) := by
  have hlt := minuteOf_lt hlast
  have hfirst : ∀ m, first ≤ m → m < Calendar.maxOrdinal → firstAfter atMs m [(start, last + 1)] =
      .ok (if atMs < midnight m + 60000 * ((change m).elapsed start : ℤ) then
        some (midnight m + 60000 * ((change m).elapsed start : ℤ),
          midnight m + 60000 * ((change m).elapsed (last + 1) : ℤ))
      else none) := by
    intro m hm hmmax
    rw [firstAfter, stamp, zone.timestamp_eq hm hmmax (by omega), orThrow_some, ok_bind,
      zone.stampWindow_eq hm hmmax (by dsimp only; omega) (by dsimp only; omega)]
    split <;> rfl
  rw [nextWindow, if_neg (by omega), windows_single hstart hlast hle]
  dsimp only
  rw [hfirst n hn (by omega), ok_bind]
  by_cases htoday : atMs < midnight n + 60000 * ((change n).elapsed start : ℤ)
  · rw [if_pos htoday, if_pos htoday]
    rfl
  · rw [if_neg htoday, if_neg htoday]
    dsimp only
    rw [nextWindow, if_neg (by omega), windows_single hstart hlast hle]
    dsimp only
    rw [hfirst (n + 1) (by omega) hmax, ok_bind, if_pos (by omega)]
    rfl

/-- Of one window, a schedule is shown. -/
lemma NewYorkDays.schedule_single (zone : NewYorkDays first midnight change) (hn : first ≤ n)
    (hmax : n + 1 < Calendar.maxOrdinal) (hlow : midnight n ≤ atMs) (hhigh : atMs < midnight (n + 1))
    (hstart : minuteOf window.1 = .ok start) (hlast : minuteOf window.2 = .ok last) (hle : start ≤ last) :
    ∃ schedule, tradingWindowSchedule .continuous [window] atMs = .ok schedule := by
  have hlt := minuteOf_lt hlast
  obtain ⟨t, ht⟩ := Option.isSome_iff_exists.mp (zone.localTime_isSome n atMs hn (by omega) hlow hhigh)
  obtain rfl := zone.localTime n atMs t hn hlow hhigh ht
  obtain ⟨d, hd, -⟩ := evaluate_of_windows ht (windows_single hstart hlast hle _)
  have hsession := zone.stampWindow_eq hn (show n < Calendar.maxOrdinal by omega)
    (show (0, 1440).1 ≤ 1440 by omega) (show (0, 1440).2 ≤ 1440 by omega)
  have hok : (tradingWindowSchedule .continuous [window] atMs).isOk = true := by
    rw [tradingWindowSchedule, hd, raiseAs_ok, ok_bind, ht, orThrow_some, raiseAs_ok, ok_bind,
      dayNumber_dayOf (zone.first_pos.trans hn)]
    dsimp only
    rw [windows_single hstart hlast hle, raiseAs_ok, ok_bind]
    dsimp only
    rw [List.mapM_cons, zone.stampWindow_eq hn (by omega) (by dsimp only; omega) (by dsimp only; omega), stampSession,
      if_pos (by decide), hsession, zone.nextWindow_single hn hmax hhigh hstart hlast hle]
    rfl
  exact exists_eq_ok_of_isOk hok

/-- **A cut window is not shown as it is enforced** at some instant. -/
lemma NewYorkDays.exists_not_showsEnforced (zone : NewYorkDays first midnight change)
    (hstart : minuteOf window.1 = .ok start) (hlast : minuteOf window.2 = .ok last) (hle : start ≤ last)
    (hcut : ¬Uncut start (last + 1)) :
    ∃ atMs, midnight first ≤ atMs ∧ ¬ShowsEnforced .continuous [window] atMs := by
  have hlt := minuteOf_lt hlast
  obtain ⟨c, hc, hdiffer⟩ := exists_cut (show start < last + 1 by omega) hcut
  obtain ⟨n, hn, hmax, rfl⟩ := zone.changes c hc
  have hfirst := zone.midnight_le le_rfl hn
  have hend := zone.midnight_succ n hn
  rcases hdiffer with ⟨minute, hminute, hdiffer⟩ | ⟨hpos, houtside⟩
  · -- an instant of that minute, shown or enforced but not both
    have hlow : midnight n ≤ midnight n + 60000 * (minute : ℤ) := by omega
    have hhigh : midnight n + 60000 * (minute : ℤ) < midnight (n + 1) := by omega
    have hsince : minutesSince (midnight n) (midnight n + 60000 * (minute : ℤ)) = minute := by
      unfold minutesSince
      omega
    refine ⟨midnight n + 60000 * (minute : ℤ), by omega, fun h => hdiffer ?_⟩
    obtain ⟨schedule, hschedule⟩ := zone.schedule_single hn hmax hlow hhigh hstart hlast hle
    obtain ⟨s, ws, hws, hsome, htoday, -⟩ := zone.schedule_day hn hlow hhigh hschedule
    have htodayIff := h.today schedule hschedule
    rw [windows_single hstart hlast hle] at hws
    cases hws
    rw [zone.allowed_iff hn hlow hhigh (windows_single hstart hlast hle _) hsome,
      zone.today_iff hn hlow (by simpa using ⟨by omega, by omega⟩) htoday, hsince] at htodayIff
    simpa using htodayIff.symm
  · -- just before the start, which shows a minute outside of the window
    obtain ⟨hbefore, houtside⟩ := houtside
    obtain ⟨startMs, hat⟩ : ∃ startMs, startMs = midnight n + 60000 * ((change n).elapsed start : ℤ) := ⟨_, rfl⟩
    have hlow : midnight n ≤ startMs - 1 := by omega
    have hhigh : startMs - 1 < midnight (n + 1) := by omega
    have hsince : minutesSince (midnight n) startMs = (change n).elapsed start := by
      unfold minutesSince
      omega
    refine ⟨startMs - 1, by omega, fun h => houtside ?_⟩
    obtain ⟨schedule, hschedule⟩ := zone.schedule_single hn hmax hlow hhigh hstart hlast hle
    obtain ⟨s, ws, hws, -, -, hnext⟩ := zone.schedule_day hn hlow hhigh hschedule
    rw [zone.nextWindow_single hn hmax hhigh hstart hlast hle, if_pos (by omega), ← hat] at hnext
    obtain ⟨-, hallowed, -⟩ := h.next schedule _ hschedule (Except.ok.inj hnext).symm
    have hsome := zone.localTime_isSome n startMs hn (by omega) (by omega) (by omega)
    have := hallowed hsome
    rw [zone.allowed_iff hn (by omega) (by omega) (windows_single hstart hlast hle _) hsome, hsince] at this
    simpa using this

end Single

namespace Clock2026

/-- The clock goes forward on 2026-03-08 and back on 2026-11-01. -/
def change (n : ℕ) : ClockChange := if n = 739683 then .forward else if n = 739921 then .back else .steady

/-- The midnights, four hours after those of UTC in summer and five in winter. -/
def midnight (n : ℕ) : ℤ :=
  ((n : ℤ) - 719163) * 86400000 + if 739683 < n ∧ n ≤ 739921 then 14400000 else 18000000

/-- The local time, in milliseconds since 1970-01-01. -/
def localMs (atMs : ℤ) : ℤ :=
  atMs - if midnight 739683 + 7200000 ≤ atMs ∧ atMs < midnight 739921 + 7200000 then 14400000 else 18000000

/-- New York in 2026, and in the years after it without a change. -/
@[reducible] def clock : EasternClock where
  localTime? atMs :=
    let day := (localMs atMs / 86400000 + 719163).toNat
    if day ≤ Calendar.maxOrdinal then some { dayOf day with minute := (localMs atMs % 86400000 / 60000).toNat }
    else none
  timestamp? n minute :=
    if n < Calendar.maxOrdinal ∨ n = Calendar.maxOrdinal ∧ minute < 1440 then
      some (midnight n + 60000 * ((change n).elapsed minute : ℤ))
    else none

lemma clock_localTime (atMs : ℤ) : @Eastern.localTime? clock.toEastern atMs =
    if (localMs atMs / 86400000 + 719163).toNat ≤ Calendar.maxOrdinal then
      some { dayOf (localMs atMs / 86400000 + 719163).toNat with
        minute := (localMs atMs % 86400000 / 60000).toNat }
    else none := rfl

lemma clock_timestamp (n minute : ℕ) : @EasternClock.timestamp? clock n minute =
    if n < Calendar.maxOrdinal ∨ n = Calendar.maxOrdinal ∧ minute < 1440 then
      some (midnight n + 60000 * ((change n).elapsed minute : ℤ))
    else none := rfl

/-- The day and the minute of an instant. -/
lemma localMs_spec {n : ℕ} {atMs : ℤ} (hn : 739617 ≤ n) (hlow : midnight n ≤ atMs) (hhigh : atMs < midnight (n + 1)) :
    (localMs atMs / 86400000 + 719163).toNat = n ∧
      (localMs atMs % 86400000 / 60000).toNat = (change n).wall ((atMs - midnight n) / 60000).toNat := by
  simp only [midnight, localMs] at *
  by_cases hforward : n = 739683
  · subst hforward
    rw [show change 739683 = .forward from rfl]
    simp only [ClockChange.wall]
    constructor <;> split_ifs at * <;> omega
  · by_cases hback : n = 739921
    · subst hback
      rw [show change 739921 = .back from rfl]
      simp only [ClockChange.wall]
      constructor <;> split_ifs at * <;> omega
    · rw [change, if_neg hforward, if_neg hback]
      simp only [ClockChange.wall]
      constructor <;> split_ifs at * <;> omega

/-- It is a clock of New York from 2026-01-01 on. -/
lemma newYorkDays : @NewYorkDays clock 739617 midnight change := by
  let _ := clock
  refine ⟨by omega, fun n hn => ?_, fun n _ hchange => ?_, fun n atMs t hn hlow hhigh ht => ?_,
    fun n atMs hn hmax hlow hhigh => ?_, fun n minute atMs _ _ h => ?_, fun n minute _ hmax _ => ?_, fun c hc => ?_⟩
  · simp only [midnight, change]
    split_ifs <;> simp only [ClockChange.minutes] <;> omega
  · simp only [change] at hchange
    split_ifs at hchange with hforward hback
    · omega
    · omega
    · exact absurd rfl hchange
  · obtain ⟨hday, hminute⟩ := localMs_spec hn hlow hhigh
    rw [clock_localTime, hday, hminute] at ht
    split at ht
    · exact (Option.some.inj ht).symm
    · cases ht
  · obtain ⟨hday, -⟩ := localMs_spec hn hlow hhigh
    rw [clock_localTime, hday, if_pos (by omega)]
    rfl
  · rw [clock_timestamp] at h
    split at h
    · exact (Option.some.inj h).symm
    · cases h
  · rw [clock_timestamp, if_pos (Or.inl hmax)]
    rfl
  · cases c with
    | steady => exact absurd rfl hc
    | forward => exact ⟨739683, by omega, by decide, rfl⟩
    | back => exact ⟨739921, by omega, by decide, rfl⟩

end Clock2026

end MuStrategy.Strategy
