import Mathlib.Tactic.IntervalCases
import MuStrategy.Lib.Calendar

/-!
# The date of a day number

* `ofOrdinal` — the year, the month and the day of a day number.
* `ordinal_ofOrdinal` — that date has that number.
-/

namespace MuStrategy.Lib.Calendar

/-- `date.fromordinal(ordinal)`: the year, the month and the day. -/
def ofOrdinal (n : ℕ) : ℕ × ℕ × ℕ :=
  let (year, month) := yearMonth n
  (year, month, n - (daysBeforeYear year + daysBeforeMonth year month))

example : ofOrdinal (ordinal 2028 2 29) = (2028, 2, 29) := by decide

example : ofOrdinal maxOrdinal = (9999, 12, 31) := by decide +kernel

/-- A month starts early enough for the estimate of `yearMonth`, which is at most one too large. -/
lemma daysBeforeMonth_pred_le {year month : ℕ} (hlow : 2 ≤ month) (hhigh : month ≤ 12) :
    daysBeforeMonth year (month - 1) + 50 ≤ 32 * month := by
  rcases hleap : isLeap year with _ | _
  all_goals interval_cases month <;> simp [daysBeforeMonth, daysInMonth, List.range_succ, hleap]

lemma daysBeforeMonth_twelve_le (year : ℕ) : daysBeforeMonth year 12 ≤ 335 := by
  rcases hleap : isLeap year with _ | _ <;> simp [daysBeforeMonth, daysInMonth, List.range_succ, hleap]

/-- The days before the year of a day number, by its parts in cycles of 400, 100 and 4 years. -/
lemma daysBeforeYear_parts {a c f y : ℕ} (hc : c ≤ 3) (hf : f ≤ 24) (hy : y ≤ 3) :
    daysBeforeYear (400 * a + 100 * c + 4 * f + y + 1) = 146097 * a + 36524 * c + 1461 * f + 365 * y := by
  simp only [daysBeforeYear]
  omega

/-- The month of a day number starts no later than the day. -/
lemma daysBefore_yearMonth_le {n : ℕ} (hn : 1 ≤ n) :
    daysBeforeYear (yearMonth n).1 + daysBeforeMonth (yearMonth n).1 (yearMonth n).2 ≤ n := by
  simp only [yearMonth]
  obtain ⟨N, rfl⟩ : ∃ N, n = N + 1 := ⟨n - 1, by omega⟩
  simp only [Nat.add_sub_cancel]
  obtain ⟨a, ha⟩ : ∃ a, N / 146097 = a := ⟨_, rfl⟩
  obtain ⟨c, hc⟩ : ∃ c, N % 146097 / 36524 = c := ⟨_, rfl⟩
  obtain ⟨f, hf⟩ : ∃ f, N % 146097 % 36524 / 1461 = f := ⟨_, rfl⟩
  obtain ⟨y, hy⟩ : ∃ y, N % 146097 % 36524 % 1461 / 365 = y := ⟨_, rfl⟩
  obtain ⟨day, hday⟩ : ∃ day, N % 146097 % 36524 % 1461 % 365 = day := ⟨_, rfl⟩
  rw [ha, hc, hf, hy, hday]
  split
  · rename_i hlast
    have hyear : daysBeforeYear (400 * a + 100 * c + 4 * f + y) + 335 ≤ N + 1 := by
      simp only [daysBeforeYear]
      omega
    have := daysBeforeMonth_twelve_le (400 * a + 100 * c + 4 * f + y)
    dsimp only
    omega
  · have hyear : daysBeforeYear (400 * a + 100 * c + 4 * f + y + 1) + day = N := by
      rw [daysBeforeYear_parts (by omega) (by omega) (by omega)]
      omega
    split
    · rename_i hlt
      have hone : (day + 50) / 32 ≠ 1 := by
        intro hone
        rw [hone, daysBeforeMonth_one] at hlt
        omega
      have := @daysBeforeMonth_pred_le (400 * a + 100 * c + 4 * f + y + 1) _
        (show 2 ≤ (day + 50) / 32 by omega) (by omega)
      dsimp only
      omega
    · dsimp only
      omega

/-- The date of a day number has that number. -/
theorem ordinal_ofOrdinal {n : ℕ} (hn : 1 ≤ n) :
    ordinal (ofOrdinal n).1 (ofOrdinal n).2.1 (ofOrdinal n).2.2 = n := by
  have := daysBefore_yearMonth_le hn
  simp only [ofOrdinal, ordinal]
  omega

end MuStrategy.Lib.Calendar
