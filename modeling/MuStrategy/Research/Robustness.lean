import Mathlib.Algebra.Order.BigOperators.Group.List
import Mathlib.Data.List.Sort
import Mathlib.Tactic.Linarith
import MuStrategy.Lib.Check
import MuStrategy.Lib.Number
import MuStrategy.Lib.TopSums

/-!
# Robustness of results

How much of the profit comes from the largest winning trades.

* `tradeConcentration` — the share of the first winners in the net profit.
* `le_topNPnl` — no other trades bring more than as many of the first winners.
* `coverage_le_share`, `share_le_one` — the bounds of a share.
-/

namespace MuStrategy.Research

open Lib

variable {T : Type}

/-- Source: `research/robustness.py` `TradeConcentration`. -/
structure TradeConcentration where
  netPnl : ℚ
  winnerCount : ℕ
  loserCount : ℕ
  topNShareOfNetPnl : Option ℚ
  netPnlExcludingTopN : ℚ
  deriving DecidableEq

/-- `ranked_winners`, the profits of which fall. -/
def rankedWinners (pnl : T → ℚ) (trades : List T) : List ℚ :=
  ((trades.map pnl).filter (0 < ·)).insertionSort (· ≥ ·)

/-- `top_n_pnl`. -/
def topNPnl (pnl : T → ℚ) (trades : List T) (topN : ℕ) : ℚ := ((rankedWinners pnl trades).take topN).sum

/-- Source: `research/robustness.py` `trade_concentration`; a negative `top_n` is a `ValueError`. -/
def tradeConcentration (pnl : T → ℚ) (trades : List T) (topN : ℤ := 5) : Except String TradeConcentration := do
  require (0 ≤ topN) "top_n must be non-negative"
  let netPnl := (trades.map pnl).sum
  let topPnl := topNPnl pnl trades topN.toNat
  pure { netPnl := netPnl
         winnerCount := ((trades.map pnl).filter (0 < ·)).length
         loserCount := ((trades.map pnl).filter (· < 0)).length
         topNShareOfNetPnl := if 0 < netPnl then some (topPnl / netPnl) else none
         netPnlExcludingTopN := netPnl - topPnl }

section winners

variable {pnl : T → ℚ} {trades : List T}

lemma rankedWinners_perm (pnl : T → ℚ) (trades : List T) :
    (rankedWinners pnl trades).Perm ((trades.map pnl).filter (0 < ·)) := List.perm_insertionSort _ _

lemma rankedWinners_falling (pnl : T → ℚ) (trades : List T) : (rankedWinners pnl trades).Pairwise (· ≥ ·) :=
  List.pairwise_insertionSort _ _

lemma rankedWinners_pos : ∀ x ∈ rankedWinners pnl trades, 0 < x := fun x hx => by
  simpa using List.of_mem_filter ((rankedWinners_perm pnl trades).mem_iff.mp hx)

/-- Without its losses a list adds up to more. -/
lemma sum_le_sum_filter_pos (xs : List ℚ) : xs.sum ≤ (xs.filter (0 < ·)).sum := by
  induction xs with
  | nil => exact le_rfl
  | cons x xs ih =>
      by_cases hx : 0 < x
      · rw [List.filter_cons_of_pos (by simpa using hx), List.sum_cons, List.sum_cons]
        exact add_le_add_right ih x
      · rw [List.filter_cons_of_neg (by simpa using hx), List.sum_cons]
        linarith [not_lt.mp hx]

/-- The winners bring no less than all trades. -/
lemma sum_le_sum_winners (pnl : T → ℚ) (trades : List T) : (trades.map pnl).sum ≤ (rankedWinners pnl trades).sum := by
  rw [(rankedWinners_perm pnl trades).sum_eq]
  exact sum_le_sum_filter_pos _

/-- **No other trades bring more.** -/
lemma le_topNPnl {chosen : List T} {topN : ℕ} (hchosen : chosen.Sublist trades) (hlength : chosen.length ≤ topN) :
    (chosen.map pnl).sum ≤ topNPnl pnl trades topN := by
  refine (sum_le_sum_filter_pos _).trans (sum_le_sum_take (rankedWinners_falling pnl trades)
    (fun x hx => (rankedWinners_pos x hx).le) ?_ ?_)
  · exact ((hchosen.map pnl).filter _).subperm.trans (rankedWinners_perm pnl trades).symm.subperm
  · exact (List.length_filter_le _ _).trans ((List.length_map pnl).le.trans hlength)

/-- **The first winners cover their part of the profit.** -/
lemma coverage_le_topNPnl (pnl : T → ℚ) (trades : List T) (topN : ℕ) :
    (min topN (rankedWinners pnl trades).length : ℕ) * (trades.map pnl).sum ≤
      (rankedWinners pnl trades).length * topNPnl pnl trades topN := by
  have hmean := smul_sum_le_smul_sum_take (rankedWinners_falling pnl trades) topN
  rw [nsmul_eq_mul, nsmul_eq_mul] at hmean
  exact (mul_le_mul_of_nonneg_left (sum_le_sum_winners pnl trades) (Nat.cast_nonneg _)).trans hmean

/-- A profit needs a winner. -/
lemma winners_ne_nil (h : 0 < (trades.map pnl).sum) : 0 < (rankedWinners pnl trades).length := by
  rw [List.length_pos_iff]
  intro hnil
  have hle := sum_le_sum_winners pnl trades
  rw [hnil, List.sum_nil] at hle
  linarith

/-- The share is no less than the coverage. -/
lemma coverage_le_share {topN : ℕ} (h : 0 < (trades.map pnl).sum) :
    ((min topN (rankedWinners pnl trades).length : ℕ) : ℚ) / (rankedWinners pnl trades).length ≤
      topNPnl pnl trades topN / (trades.map pnl).sum := by
  have hwinners : (0 : ℚ) < (rankedWinners pnl trades).length := by exact_mod_cast winners_ne_nil h
  rw [div_le_div_iff₀ hwinners h, mul_comm (topNPnl pnl trades topN)]
  exact coverage_le_topNPnl pnl trades topN

/-- The first winners bring no more than all of them. -/
lemma topNPnl_le_sum_winners (pnl : T → ℚ) (trades : List T) (topN : ℕ) :
    topNPnl pnl trades topN ≤ (rankedWinners pnl trades).sum := by
  have hsplit : (rankedWinners pnl trades).sum =
      topNPnl pnl trades topN + ((rankedWinners pnl trades).drop topN).sum := by
    rw [topNPnl, ← List.sum_append, List.take_append_drop]
  have hrest : 0 ≤ ((rankedWinners pnl trades).drop topN).sum :=
    List.sum_nonneg fun x hx => (rankedWinners_pos x (List.mem_of_mem_drop hx)).le
  linarith

/-- If all trades win, no share is more than everything. -/
lemma share_le_one {topN : ℕ} (h : 0 < (trades.map pnl).sum)
    (hall : (rankedWinners pnl trades).length = trades.length) :
    topNPnl pnl trades topN / (trades.map pnl).sum ≤ 1 := by
  have hwinners : (rankedWinners pnl trades).sum = (trades.map pnl).sum := by
    have hlength : ((trades.map pnl).filter (0 < ·)).length = (trades.map pnl).length := by
      rw [← (rankedWinners_perm pnl trades).length_eq, hall, List.length_map]
    rw [(rankedWinners_perm pnl trades).sum_eq, List.filter_eq_self.mpr (List.length_filter_eq_length_iff.mp hlength)]
  rw [div_le_one h, ← hwinners]
  exact topNPnl_le_sum_winners pnl trades topN

/-- Some trades bring as much. -/
lemma exists_chosen (pnl : T → ℚ) (trades : List T) (topN : ℕ) :
    ∃ chosen : List T, chosen.Sublist trades ∧ chosen.length ≤ topN ∧
      (chosen.map pnl).sum = topNPnl pnl trades topN := by
  have hsub : ((rankedWinners pnl trades).take topN).Subperm (trades.map pnl) :=
    (List.take_sublist _ _).subperm.trans
      ((rankedWinners_perm pnl trades).subperm.trans List.filter_sublist.subperm)
  obtain ⟨pnls, hperm, hsublist⟩ := hsub
  obtain ⟨chosen, hchosen, rfl⟩ := List.sublist_map_iff.mp hsublist
  refine ⟨chosen, hchosen, ?_, hperm.sum_eq⟩
  have hlength := hperm.length_eq
  rw [List.length_map] at hlength
  rw [hlength]
  exact List.length_take_le _ _

lemma topNPnl_nonneg (pnl : T → ℚ) (trades : List T) (topN : ℕ) : 0 ≤ topNPnl pnl trades topN :=
  List.sum_nonneg fun x hx => (rankedWinners_pos x (List.mem_of_mem_take hx)).le

end winners

/-- **What a concentration says**: the profit is that of the trades; no selection of at most `top_n` trades brings more
than is left out of the rest, and one brings as much; and the share, where there is a profit, is no less than the part
of the winners that was selected, and no more than one if every trade wins. -/
theorem trade_concentration_spec {pnl : T → ℚ} {trades : List T} {topN : ℤ} {concentration : TradeConcentration}
    (h : tradeConcentration pnl trades topN = .ok concentration) :
    concentration.netPnl = (trades.map pnl).sum ∧
    (∀ chosen : List T, chosen.Sublist trades → (chosen.length : ℤ) ≤ topN →
      (chosen.map pnl).sum ≤ concentration.netPnl - concentration.netPnlExcludingTopN) ∧
    (∃ chosen : List T, chosen.Sublist trades ∧ (chosen.length : ℤ) ≤ topN ∧
      (chosen.map pnl).sum = concentration.netPnl - concentration.netPnlExcludingTopN) ∧
    ∀ share, concentration.topNShareOfNetPnl = some share →
      0 < concentration.netPnl ∧
      (min topN concentration.winnerCount : ℤ) / (concentration.winnerCount : ℚ) ≤ share ∧
      (concentration.winnerCount = trades.length → share ≤ 1) := by
  obtain ⟨_, hrequire, h⟩ := bind_eq_ok.mp h
  obtain rfl := pure_eq_ok_iff.mp h
  rw [require_eq_ok, decide_eq_true_eq] at hrequire
  obtain ⟨n, rfl⟩ : ∃ n : ℕ, topN = n := ⟨topN.toNat, by omega⟩
  have hcount := (rankedWinners_perm pnl trades).length_eq
  simp only [Int.toNat_natCast, sub_sub_cancel, Nat.cast_le, ← hcount]
  refine ⟨trivial, fun chosen hchosen hlength => le_topNPnl hchosen hlength, exists_chosen pnl trades n,
    fun share hshare => ?_⟩
  split at hshare
  · rename_i hprofit
    obtain rfl := Option.some.inj hshare
    have hcoverage := @coverage_le_share _ _ _ n hprofit
    push_cast at hcoverage ⊢
    exact ⟨hprofit, hcoverage, share_le_one hprofit⟩
  · cases hshare

/-- The two best of four trades. -/
theorem trade_concentration_spec_demo :
    ∃ concentration, @tradeConcentration ℚ id [3, -1, 2, 5] 2 = .ok concentration ∧
      concentration.topNShareOfNetPnl = some (8 / 9) ∧
      ∀ chosen : List ℚ, chosen.Sublist [3, -1, 2, 5] → (chosen.length : ℤ) ≤ 2 →
        (chosen.map id).sum ≤ concentration.netPnl - concentration.netPnlExcludingTopN := by
  have h : @tradeConcentration ℚ id [3, -1, 2, 5] 2 = .ok ⟨9, 3, 1, some (8 / 9), 1⟩ := by decide +kernel
  exact ⟨_, h, rfl, (trade_concentration_spec h).2.1⟩

end MuStrategy.Research
