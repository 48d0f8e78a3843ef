import Mathlib.Data.Nat.Notation
import Mathlib.Order.Defs.LinearOrder
import Mathlib.Tactic.SplitIfs

/-!
# Days on which the clock changes

Clocks go forward at 02:00, to 03:00, or back at 02:00, to 01:00. The minutes since a midnight and the minute
that the clock shows differ on such a day.

* `ClockChange` — what the clock of a day does.
* `ClockChange.wall`, `ClockChange.elapsed` — the minute shown after so many minutes, and the minutes until
  the clock shows a minute; a minute that is shown twice is the first one (`fold = 0`), and one that is
  skipped is counted by the clock of before.
* `Uncut` — a window of minutes that no change cuts; `mem_window_iff`, `exists_cut`.
-/

namespace MuStrategy.Lib

/-- What the clock of a day does. -/
inductive ClockChange where
  | steady
  | forward
  | back
  deriving DecidableEq

namespace ClockChange

/-- The minutes of the day. -/
def minutes : ClockChange → ℕ
  | steady => 1440
  | forward => 1380
  | back => 1500

/-- The minute that the clock shows, `elapsed` minutes after midnight. -/
def wall : ClockChange → ℕ → ℕ
  | steady, elapsed => elapsed
  | forward, elapsed => if elapsed < 120 then elapsed else elapsed + 60
  | back, elapsed => if elapsed < 120 then elapsed else elapsed - 60

/-- The minutes from midnight until the clock shows `wall`, as `fold = 0` resolves it. -/
def elapsed : ClockChange → ℕ → ℕ
  | steady, wall => wall
  | forward, wall => if wall < 180 then wall else wall - 60
  | back, wall => if wall < 120 then wall else wall + 60

/-- A minute that is shown is resolved to the first time that it is shown. -/
example (change : ClockChange) (minute : ℕ) :
    change.wall (change.elapsed (change.wall minute)) = change.wall minute ∧
      change.elapsed (change.wall minute) ≤ minute := by
  cases change with
  | steady => exact ⟨rfl, Nat.le_refl minute⟩
  | forward => simp only [wall, elapsed]; split_ifs <;> omega
  | back => simp only [wall, elapsed]; split_ifs <;> omega

lemma elapsed_le_minutes (change : ClockChange) {minute : ℕ} (h : minute ≤ 1440) :
    change.elapsed minute ≤ change.minutes := by
  cases change with
  | steady => exact h
  | forward => simp only [elapsed, minutes]; split_ifs <;> omega
  | back => simp only [elapsed, minutes]; split_ifs <;> omega

end ClockChange

/-- A window that holds all or none of the hour shown twice and of the hour skipped, and is not exactly the
hour skipped. -/
def Uncut (start stop : ℕ) : Prop :=
  (stop ≤ 60 ∨ 120 ≤ start ∨ start ≤ 60 ∧ 120 ≤ stop) ∧
    (stop ≤ 120 ∨ 180 ≤ start ∨ start ≤ 120 ∧ 180 ≤ stop ∧ ¬(start = 120 ∧ stop = 180))

instance (start stop : ℕ) : Decidable (Uncut start stop) := inferInstanceAs (Decidable (_ ∧ _))

/-- The clock does not change on the day, or the window is not cut. -/
def Unaffected (change : ClockChange) (start stop : ℕ) : Prop := change = .steady ∨ Uncut start stop

section Windows

variable {change : ClockChange} {start stop : ℕ}

/-- **The two readings of a window** agree: by the minutes since midnight, and by the minute shown. -/
lemma mem_window_iff (h : Unaffected change start stop) (hlt : start < stop) (minute : ℕ) :
    change.elapsed start ≤ minute ∧ minute < change.elapsed stop ↔
      start ≤ change.wall minute ∧ change.wall minute < stop := by
  rcases h with rfl | ⟨hback, hforward⟩
  · exact Iff.rfl
  · cases change with
    | steady => exact Iff.rfl
    | forward => simp only [ClockChange.wall, ClockChange.elapsed]; split_ifs <;> omega
    | back => simp only [ClockChange.wall, ClockChange.elapsed]; split_ifs <;> omega

lemma elapsed_lt_elapsed (h : Unaffected change start stop) (hlt : start < stop) :
    change.elapsed start < change.elapsed stop := by
  rcases h with rfl | ⟨hback, hforward⟩
  · exact hlt
  · cases change with
    | steady => exact hlt
    | forward => simp only [ClockChange.elapsed]; split_ifs <;> omega
    | back => simp only [ClockChange.elapsed]; split_ifs <;> omega

/-- Windows come in the order of their starts. -/
lemma elapsed_le_elapsed {start' stop' : ℕ} (h : Unaffected change start stop) (hlt : start < stop)
    (h' : Unaffected change start' stop') (hlt' : start' < stop') (hle : start ≤ start') :
    change.elapsed start ≤ change.elapsed start' := by
  rcases h with rfl | ⟨-, hforward⟩
  · exact hle
  · rcases h' with rfl | ⟨-, hforward'⟩
    · exact hle
    · cases change with
      | steady => exact hle
      | forward => simp only [ClockChange.elapsed]; split_ifs <;> omega
      | back => simp only [ClockChange.elapsed]; split_ifs <;> omega

/-- **A cut window**: some minute is in it by one reading only, or its start shows a minute outside of it. -/
lemma exists_cut (hlt : start < stop) (hcut : ¬Uncut start stop) :
    ∃ change : ClockChange, change ≠ .steady ∧
      ((∃ minute < change.minutes, ¬(change.elapsed start ≤ minute ∧ minute < change.elapsed stop ↔
          start ≤ change.wall minute ∧ change.wall minute < stop)) ∨
        0 < change.elapsed start ∧ change.elapsed start < change.minutes ∧
          ¬(start ≤ change.wall (change.elapsed start) ∧ change.wall (change.elapsed start) < stop)) := by
  by_cases hback : stop ≤ 60 ∨ 120 ≤ start ∨ start ≤ 60 ∧ 120 ≤ stop
  · have hforward : ¬(stop ≤ 120 ∨ 180 ≤ start ∨ start ≤ 120 ∧ 180 ≤ stop ∧ ¬(start = 120 ∧ stop = 180)) :=
      fun hforward => hcut ⟨hback, hforward⟩
    refine ⟨.forward, by decide, ?_⟩
    simp only [ClockChange.wall, ClockChange.elapsed, ClockChange.minutes]
    by_cases hend : stop = 180
    · -- the window ends where the skipped hour does: it is never shown
      refine Or.inr ⟨?_, ?_, ?_⟩ <;> split_ifs <;> omega
    · refine Or.inl ⟨if stop < 180 then max start 120 else 120, ?_, ?_⟩ <;> split_ifs <;> omega
  · refine ⟨.back, by decide, Or.inl ?_⟩
    simp only [ClockChange.wall, ClockChange.elapsed, ClockChange.minutes]
    -- the second pass through the repeated hour
    refine ⟨if 120 ≤ stop then 120 else max start 60 + 60, ?_, ?_⟩ <;> split_ifs <;> omega

end Windows

end MuStrategy.Lib
