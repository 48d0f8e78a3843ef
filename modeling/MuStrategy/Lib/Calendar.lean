import Mathlib

/-!
# Civil dates

The proleptic Gregorian calendar of Python's `datetime`.

* `daysInMonth`, `ordinal` — the length of a month, and the day number of a date (`1` is
  0001-01-01).
* `epochDay` — the day number relative to 1970-01-01.
* `yearMonth` — the year and the month of a day number.
-/

namespace MuStrategy.Lib.Calendar

/-- A leap year. -/
def isLeap (year : ℕ) : Bool := year % 4 = 0 && (year % 100 ≠ 0 || year % 400 = 0)

/-- The number of days of a month, counted from one; `0` outside `1..12`. -/
def daysInMonth (year month : ℕ) : ℕ :=
  if month = 2 then if isLeap year then 29 else 28
  else if month = 4 ∨ month = 6 ∨ month = 9 ∨ month = 11 then 30
  else if 1 ≤ month ∧ month ≤ 12 then 31
  else 0

/-- The days before a year. -/
def daysBeforeYear (year : ℕ) : ℕ :=
  (year - 1) * 365 + (year - 1) / 4 - (year - 1) / 100 + (year - 1) / 400

/-- The days of a year before a month. -/
def daysBeforeMonth (year month : ℕ) : ℕ :=
  ((List.range (month - 1)).map fun i => daysInMonth year (i + 1)).sum

/-- `date(year, month, day).toordinal()`. -/
def ordinal (year month day : ℕ) : ℕ := daysBeforeYear year + daysBeforeMonth year month + day

/-- The date exists. -/
def isDate (year month day : ℕ) : Bool :=
  1 ≤ year && year ≤ 9999 && 1 ≤ day && day ≤ daysInMonth year month

/-- The day relative to 1970-01-01. -/
def epochDay (year month day : ℕ) : ℤ := (ordinal year month day : ℤ) - 719163

example : epochDay 1970 1 1 = 0 := by decide

example : epochDay 2024 3 1 = 19783 := by decide

/-- The number of the last day, 9999-12-31. -/
def maxOrdinal : ℕ := 3652059

/-- The year and the month of a day number, by cycles of 400, 100, 4 and 1 years. The estimate of the
month is exact or one too large. -/
def yearMonth (ordinal : ℕ) : ℕ × ℕ :=
  let n := ordinal - 1
  let centuries := n % 146097 / 36524
  let rest := n % 146097 % 36524
  let years := rest % 1461 / 365
  let day := rest % 1461 % 365
  let year := 400 * (n / 146097) + 100 * centuries + 4 * (rest / 1461) + years + 1
  if years = 4 ∨ centuries = 4 then (year - 1, 12)
  else
    let month := (day + 50) / 32
    if day < daysBeforeMonth year month then (year, month - 1) else (year, month)

lemma daysBeforeMonth_one (year : ℕ) : daysBeforeMonth year 1 = 0 := rfl

lemma yearMonth_month (ordinal : ℕ) : 1 ≤ (yearMonth ordinal).2 ∧ (yearMonth ordinal).2 ≤ 12 := by
  simp only [yearMonth]
  split
  · exact ⟨by omega, by omega⟩
  · have hday : (ordinal - 1) % 146097 % 36524 % 1461 % 365 < 365 := Nat.mod_lt _ (by omega)
    generalize (ordinal - 1) % 146097 % 36524 % 1461 % 365 = day at hday
    split
    · rename_i hlt
      have hmonth : (day + 50) / 32 ≠ 1 := by
        intro hone
        rw [hone, daysBeforeMonth_one] at hlt
        omega
      exact ⟨by change 1 ≤ (day + 50) / 32 - 1; omega, by change (day + 50) / 32 - 1 ≤ 12; omega⟩
    · exact ⟨by change 1 ≤ (day + 50) / 32; omega, by change (day + 50) / 32 ≤ 12; omega⟩

example : yearMonth (ordinal 2024 2 29) = (2024, 2) := by decide

example : yearMonth maxOrdinal = (9999, 12) := by decide +kernel

end MuStrategy.Lib.Calendar
