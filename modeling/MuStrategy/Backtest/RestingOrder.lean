import MuStrategy.Backtest.NoLookAhead

/-!
# The resting order

With second-pullback entries the walk carries one order: the first signal after the last order ended. While no
order is filled, the order at a bar is determined by the signals before it.

* `reached` — the state when the walk reaches a bar.
* `Untraded` — nothing bought so far; a purchase stays visible.
* `pendingStep_untraded`, `signalStep_pullback` — one bar, while nothing is bought.
* `Resting`, `resting_invariant` — the order at every bar, and which signals were ignored.
-/

namespace MuStrategy.Backtest

open Lib TrustedData Strategy

variable {F : Type} [Number F]

/-- What the comparisons of prices and limits rely on. Floats satisfy it, NaN included. -/
class LawfulNumber (F : Type) [Number F] : Prop where
  not_le_of_lt : ∀ {x y : F}, x < y → ¬y ≤ x
  not_lt_of_le : ∀ {x y : F}, x ≤ y → ¬y < x
  le_trans : ∀ {x y z : F}, x ≤ y → y ≤ z → x ≤ z
  lt_of_lt_of_le : ∀ {x y z : F}, x < y → y ≤ z → x < z
  le_mul_one_add : ∀ {x t : F}, 0 < x → 0 ≤ t → x ≤ x * (1 + t)
  pos_of_mul_one_add : ∀ {x t : F}, 0 ≤ t → 0 < x * (1 + t) → 0 < x

instance : LawfulNumber ℚ where
  not_le_of_lt h := not_le_of_gt h
  not_lt_of_le h := not_lt_of_ge h
  le_trans h h' := h.trans h'
  lt_of_lt_of_le h h' := h.trans_le h'
  le_mul_one_add hx ht := le_mul_of_one_le_right hx.le (le_add_of_nonneg_right ht)
  pos_of_mul_one_add ht h := pos_of_mul_pos_left h (add_nonneg zero_le_one ht)

/-! ## Nothing bought -/

/-- Nothing was bought. -/
def Untraded (b : Books F) : Prop := b.openFills = [] ∧ b.trades = []

/-- If nothing was bought in the end, nothing was bought before. -/
lemma Moves.untraded {config : StrategyConfig F} {bars : Candle F → Prop} {b b' : Books F}
    (h : Moves config bars b b') (huntraded : Untraded b') : Untraded b := by
  by_contra htraded
  refine h.invariant (I := fun c => ¬Untraded c) ?_ htraded huntraded
  rintro candle c c' - (_ | _ | _) hc
  · exact hc
  · exact fun h => absurd h.1 (List.append_ne_nil_of_right_ne_nil _ (List.cons_ne_nil _ _))
  · exact fun h => absurd h.2 (List.append_ne_nil_of_right_ne_nil _ (List.cons_ne_nil _ _))

omit [Number F] in
lemma position_eq_none_of_untraded {s : BacktestState F} (h : Untraded s.books) : s.position = none := by
  have hopen := h.1
  unfold BacktestState.books BacktestState.openFills at hopen
  cases hposition : s.position with
  | none => rfl
  | some position =>
      simp only [hposition] at hopen
      exact absurd hopen position.fills_ne

section steps

variable [Eastern] {run : Inputs F} {s s' : BacktestState F} {candle : Candle F} {index : ℕ}

/-- The state when the walk reaches a bar. -/
def reached (run : Inputs F) (s : BacktestState F) (index : ℕ) : Except StrategyError (BacktestState F) :=
  ((run.candles.take index).zipIdx.drop 1).foldlM (barStep run) s

lemma reached_one (run : Inputs F) (s : BacktestState F) : reached run s 1 = .ok s := by
  have hnone : (run.candles.take 1).zipIdx.drop 1 = [] := by
    rw [List.drop_eq_nil_iff, List.length_zipIdx, List.length_take]
    omega
  rw [reached, hnone]
  rfl

lemma reached_succ (hpos : 1 ≤ index) (hindex : run.candles[index]? = some candle) :
    reached run s (index + 1) = .ok s' ↔
      ∃ t, reached run s index = .ok t ∧ barStep run t (candle, index) = .ok s' := by
  obtain ⟨hlt, rfl⟩ := List.getElem?_eq_some_iff.mp hindex
  have hbars : (run.candles.take (index + 1)).zipIdx.drop 1 =
      (run.candles.take index).zipIdx.drop 1 ++ [(run.candles[index], index)] := by
    rw [← List.take_append_getElem hlt, List.zipIdx_append, List.drop_append_of_le_length, List.length_take,
      Nat.min_eq_left (by omega)]
    · simp
    · rw [List.length_zipIdx, List.length_take]
      omega
  rw [reached, hbars, foldlM_append_eq_ok]
  constructor
  · rintro ⟨t, ht, hstep⟩
    rw [List.foldlM_cons, bind_eq_ok] at hstep
    obtain ⟨_, hstep, hnil⟩ := hstep
    cases hnil
    exact ⟨t, ht, hstep⟩
  · rintro ⟨t, ht, hstep⟩
    refine ⟨t, ht, ?_⟩
    rw [List.foldlM_cons, hstep]
    rfl

/-- A second-pullback signal rests an order and buys nothing. -/
lemma signalStep_pullback (hmode : run.config.entryExecution = .secondPullback)
    (h : signalStep run index candle s = .ok s') :
    run.candles[index + 1]? = none ∧ s' = s.recordClose candle ∨
      signalAt run index candle = .ok none ∧ s' = s.recordClose candle ∨
      ∃ fibLevel expires, signalAt run index candle = .ok (some fibLevel) ∧
        expires = index + run.config.secondPullbackWaitBars ∧
        s' = { s with pendingEntry := some ⟨fibLevel, expires⟩ }.recordClose candle := by
  unfold signalStep at h
  split at h
  · rename_i hnext
    cases h
    exact Or.inl ⟨hnext, rfl⟩
  · obtain ⟨signal, hsignal, h⟩ := bind_eq_ok.mp h
    cases signal with
    | none =>
        cases h
        exact Or.inr (Or.inl ⟨hsignal, rfl⟩)
    | some fibLevel =>
        simp only [hmode, if_true] at h
        cases h
        exact Or.inr (Or.inr ⟨fibLevel, _, hsignal, rfl, rfl⟩)

/-- A bar fills a limit: it lies in a trading window, and trades at the limit or below. -/
def Fills (run : Inputs F) (limit : F) (candle : Candle F) : Prop :=
  isPreferredUsCashWindow candle.openTimeMs run.config = .ok true ∧ candle.low ≤ limit

/-- An entry buys. -/
lemma enter_traded {price : F} (h : enter run candle price s = .ok s') : ¬Untraded s'.books := by
  intro huntraded
  obtain ⟨margin, -, h⟩ := bind_eq_ok.mp h
  obtain ⟨fill, hfill, h⟩ := bind_eq_ok.mp h
  obtain ⟨⟨settled, t⟩, hexit, h⟩ := bind_eq_ok.mp h
  cases h
  have hmoves : Moves run.config (fun _ => True) _ s'.books := exitOnRisk_moves trivial rfl hexit
  cases (hmoves.untraded huntraded).1

/-- A bar on which nothing is bought leaves the order as it is; it does not fill it. -/
lemma pendingStep_untraded [LawfulNumber F] {pending : PendingEntry F} (htol : 0 ≤ run.config.fibTolerancePct)
    (hfib : 0 < pending.fibLevel) (h : pendingStep run pending candle s = .ok s') (huntraded : Untraded s'.books) :
    s' = s.recordClose candle ∧ ¬Fills run pending.fibLevel candle := by
  unfold pendingStep at h
  split at h
  · obtain ⟨inWindow, hwindow, h⟩ := bind_eq_ok.mp h
    split at h
    · rename_i hclosed
      cases h
      refine ⟨rfl, fun hfills => ?_⟩
      rw [hfills.1] at hwindow
      cases hwindow
      cases hclosed
    · split at h
      · rename_i hprice
        cases h
        refine ⟨rfl, fun hfills => ?_⟩
        rw [buyLimitFillPrice, if_neg (LawfulNumber.not_lt_of_le hfills.2)] at hprice
        split at hprice <;> cases hprice
      · obtain ⟨t, henter, h⟩ := bind_eq_ok.mp h
        cases h
        have hclose : Moves run.config (fun _ => True) t.books (t.recordClose candle).books :=
          .single trivial recordClose_move
        exact absurd (hclose.untraded huntraded) (enter_traded henter)
  · rename_i habove
    cases h
    exact ⟨rfl, fun hfills => habove (LawfulNumber.le_trans hfills.2 (LawfulNumber.le_mul_one_add hfib htol))⟩

/-- A signal on positive prices has a positive level. -/
lemma fib_pos_of_signalAt [LawfulNumber F] (htol : 0 ≤ run.config.fibTolerancePct)
    (hcandle : run.candles[index]? = some candle) (hlow : 0 < candle.low) {fibLevel : F}
    (h : signalAt run index candle = .ok (some fibLevel)) : 0 < fibLevel := by
  obtain ⟨inWindow, -, h⟩ := bind_eq_ok.mp h
  split at h
  · cases h
  · obtain ⟨level, hlevel, h⟩ := bind_eq_ok.mp h
    cases level with
    | none => cases h
    | some level =>
        obtain ⟨rsi, -, h⟩ := bind_eq_ok.mp h
        obtain ⟨hist, -, h⟩ := bind_eq_ok.mp h
        obtain ⟨previousHist, -, h⟩ := bind_eq_ok.mp h
        rw [pure_eq_ok_iff] at h
        split at h
        · cases h
          exact LawfulNumber.pos_of_mul_one_add htol
            (LawfulNumber.lt_of_lt_of_le hlow (low_le_of_nearestFibRetestLevel hcandle hlevel))
        · cases h

/-! ## The order at a bar -/

/-- An order rests when the walk reaches a bar, and has not expired. -/
def HoldsOrder (index : ℕ) (s : BacktestState F) : Prop :=
  ∃ pending, s.pendingEntry = some pending ∧ (index : ℤ) ≤ pending.expiresIndex

/-- One bar on which nothing is bought: a resting order stays, and otherwise a signal rests the next one. -/
lemma barStep_order [LawfulNumber F] (hmode : run.config.entryExecution = .secondPullback)
    (htol : 0 ≤ run.config.fibTolerancePct) (hnext : run.candles[index + 1]? ≠ none)
    (hpos : ∀ pending, s.pendingEntry = some pending → 0 < pending.fibLevel)
    (h : barStep run s (candle, index) = .ok s') (huntraded : Untraded s'.books) :
    (∃ pending, s.pendingEntry = some pending ∧ (index : ℤ) ≤ pending.expiresIndex ∧
        s'.pendingEntry = some pending ∧ ¬Fills run pending.fibLevel candle) ∨
      ¬HoldsOrder index s ∧ (signalAt run index candle = .ok none ∧ s'.pendingEntry = none ∨
        ∃ fibLevel, signalAt run index candle = .ok (some fibLevel) ∧
          s'.pendingEntry = some ⟨fibLevel, index + run.config.secondPullbackWaitBars⟩) := by
  have hflat : s.position = none := position_eq_none_of_untraded ((barStep_moves h).untraded huntraded)
  have hsignal : ∀ t : BacktestState F, t.pendingEntry = none → signalStep run index candle t = .ok s' →
      signalAt run index candle = .ok none ∧ s'.pendingEntry = none ∨
        ∃ fibLevel, signalAt run index candle = .ok (some fibLevel) ∧
          s'.pendingEntry = some ⟨fibLevel, index + run.config.secondPullbackWaitBars⟩ := by
    intro t ht hstep
    rcases signalStep_pullback hmode hstep with ⟨hend, -⟩ | ⟨hnone, rfl⟩ | ⟨fibLevel, expires, hsome, rfl, rfl⟩
    · exact absurd hend hnext
    · exact Or.inl ⟨hnone, ht⟩
    · exact Or.inr ⟨fibLevel, hsome, rfl⟩
  simp only [barStep, hflat, flatStep, restingEntry, hmode, if_true] at h
  cases hpending : s.pendingEntry with
  | none =>
      simp only [hpending] at h
      refine Or.inr ⟨?_, hsignal s hpending h⟩
      rintro ⟨pending, hheld, -⟩
      rw [hpending] at hheld
      cases hheld
  | some pending =>
      simp only [hpending] at h
      by_cases hexpired : pending.expiresIndex < index
      · rw [if_pos hexpired] at h
        refine Or.inr ⟨?_, hsignal _ rfl h⟩
        rintro ⟨pending', hheld, hlive⟩
        rw [hpending] at hheld
        cases hheld
        omega
      · rw [if_neg hexpired] at h
        obtain ⟨rfl, hunfilled⟩ := pendingStep_untraded htol (hpos pending hpending) h huntraded
        exact Or.inl ⟨pending, rfl, by omega, hpending, hunfilled⟩

/-- The signal of a bar arrived while an order was resting, so the walk ignored it. -/
def Ignored (run : Inputs F) (start : BacktestState F) (index : ℕ) : Prop :=
  ∃ t, reached run start index = .ok t ∧ HoldsOrder index t

/-- The order of a state that the walk reached without buying. -/
structure Resting (run : Inputs F) (start : BacktestState F) (index : ℕ) (s : BacktestState F) : Prop where
  /-- The order is that of a signal bar, and no bar since filled it. -/
  origin : ∀ pending, s.pendingEntry = some pending → ∃ signalIndex candle, 1 ≤ signalIndex ∧ signalIndex < index ∧
    run.candles[signalIndex]? = some candle ∧ signalAt run signalIndex candle = .ok (some pending.fibLevel) ∧
    pending.expiresIndex = signalIndex + run.config.secondPullbackWaitBars ∧
    ∀ j c, signalIndex < j → j < index → (j : ℤ) ≤ pending.expiresIndex → run.candles[j]? = some c →
      ¬Fills run pending.fibLevel c
  /-- A signal was ignored, or its order rests as long as it has not expired. -/
  signals : ∀ j c fibLevel, 1 ≤ j → j < index → run.candles[j]? = some c → signalAt run j c = .ok (some fibLevel) →
    Ignored run start j ∨ ((index : ℤ) ≤ j + run.config.secondPullbackWaitBars →
      s.pendingEntry = some ⟨fibLevel, j + run.config.secondPullbackWaitBars⟩)

/-- **The order at every bar** that the walk reaches without buying. -/
theorem resting_invariant [LawfulNumber F] {start : BacktestState F}
    (hmode : run.config.entryExecution = .secondPullback) (htol : 0 ≤ run.config.fibTolerancePct)
    (hlows : ∀ j c, j < index → run.candles[j]? = some c → 0 < c.low) (hstart : start.pendingEntry = none) (hpos : 1 ≤ index)
    (hindex : index < run.candles.length) (h : reached run start index = .ok s) (huntraded : Untraded s.books) :
    Resting run start index s := by
  induction index, hpos using Nat.le_induction generalizing s with
  | base =>
      rw [reached_one] at h
      cases h
      refine ⟨fun pending hpending => ?_, fun j c fibLevel hj hlt => by omega⟩
      rw [hstart] at hpending
      cases hpending
  | succ i hi ih =>
      obtain ⟨candle, hcandle⟩ : ∃ c, run.candles[i]? = some c := ⟨_, List.getElem?_eq_getElem (by omega)⟩
      obtain ⟨t, ht, hstep⟩ := (reached_succ hi hcandle).mp h
      have hresting := ih (fun j c hj => hlows j c (by omega)) (by omega) ht ((barStep_moves hstep).untraded huntraded)
      have hfibs : ∀ pending, t.pendingEntry = some pending → 0 < pending.fibLevel := by
        intro pending hpending
        obtain ⟨g, c, -, hgi, hc, hsignal, -⟩ := hresting.origin pending hpending
        exact fib_pos_of_signalAt htol hc (hlows g c (by omega) hc) hsignal
      have hnext : run.candles[i + 1]? ≠ none := by
        rw [List.getElem?_eq_getElem hindex]
        exact Option.some_ne_none _
      rcases barStep_order hmode htol hnext hfibs hstep huntraded with
        ⟨pending, hheld, hlive, hkept, hunfilled⟩ | ⟨hfree, hsignal⟩
      · -- the order of the bars before still rests
        obtain ⟨g, c, hg, hgi, hc, hsignal, hexpires, hquiet⟩ := hresting.origin pending hheld
        refine ⟨fun pending' hpending' => ?_, fun j c' fibLevel hj hlt hc' hsignal' => ?_⟩
        · rw [hkept] at hpending'
          cases hpending'
          refine ⟨g, c, hg, by omega, hc, hsignal, hexpires, fun j c' hgj hji hjlive hc' => ?_⟩
          rcases Nat.lt_succ_iff_lt_or_eq.mp hji with hbefore | rfl
          · exact hquiet j c' hgj hbefore hjlive hc'
          · rw [hcandle] at hc'
            cases hc'
            exact hunfilled
        · rcases Nat.lt_succ_iff_lt_or_eq.mp hlt with hbefore | rfl
          · rcases hresting.signals j c' fibLevel hj hbefore hc' hsignal' with hignored | hrests
            · exact Or.inl hignored
            · refine Or.inr fun hwait => ?_
              rw [hkept, ← hheld]
              exact hrests (by omega)
          · exact Or.inl ⟨t, ht, pending, hheld, hlive⟩
      · -- no order rests: only a signal of this bar can
        refine ⟨fun pending hpending => ?_, fun j c fibLevel hj hlt hc hsignal' => ?_⟩
        · rcases hsignal with ⟨-, hnone⟩ | ⟨fibLevel, hsome, hnew⟩
          · rw [hnone] at hpending
            cases hpending
          · rw [hnew] at hpending
            cases hpending
            exact ⟨i, candle, hi, by omega, hcandle, hsome, rfl, fun j c hij hji => by omega⟩
        · rcases Nat.lt_succ_iff_lt_or_eq.mp hlt with hbefore | rfl
          · rcases hresting.signals j c fibLevel hj hbefore hc hsignal' with hignored | hrests
            · exact Or.inl hignored
            · refine Or.inr fun hwait => absurd ⟨_, hrests (by omega), ?_⟩ hfree
              push_cast at hwait
              simp only
              omega
          · rw [hcandle] at hc
            cases hc
            rcases hsignal with ⟨hnone, -⟩ | ⟨fibLevel', hsome, hnew⟩
            · rw [hnone] at hsignal'
              cases hsignal'
            · rw [hsome] at hsignal'
              cases hsignal'
              exact Or.inr fun _ => hnew

end steps

end MuStrategy.Backtest
