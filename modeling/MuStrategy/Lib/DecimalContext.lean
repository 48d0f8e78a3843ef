import Mathlib.Algebra.Order.Floor.Semifield
import Mathlib.Data.Nat.Cast.Field
import Mathlib.Data.Nat.Cast.Order.Field
import Mathlib.Data.Rat.Floor
import Mathlib.Tactic.FieldSimp
import Mathlib.Tactic.GCongr
import MuStrategy.Lib.Check
import MuStrategy.Lib.Decimal

/-!
# Decimal contexts

The arithmetic of Python's `decimal` with the bounds of its exponents, and what rounding does to a number: a result
with few significant digits is exact, any other is near.

* `Context`, `Signal` — a precision with its exponents, and the signals it traps.
* `Context.fix`, `mul`, `div`, `normalize`, `truncate` — the operations.
* `SigDigits` — numbers with few significant digits.
* `Context.Normal` — numbers whose rounding is relative; `fix_spec`, `mul_spec`, `div_spec` — the operations on them.
* `floor_eq_of_near` — the floor of a rounded quotient.
-/

namespace MuStrategy.Lib.Decimal

/-! ## Operations -/

/-- What a context traps. -/
inductive Signal where
  | overflow
  | divisionByZero
  | invalidOperation
  deriving DecidableEq

/-- A context that rounds half to even: its precision, and the greatest exponent of a number in scientific notation;
the least one is its opposite. -/
structure Context where
  prec : ℕ
  emax : ℤ
  prec_pos : 0 < prec
  deriving DecidableEq

namespace Context

/-- The default context of Python. -/
def default : Context := ⟨28, 999999, by decide⟩

variable (ctx : Context)

/-- The least exponent of a coefficient. -/
def etiny : ℤ := -ctx.emax - ctx.prec + 1

/-- The greatest exponent of a coefficient of full length. -/
def etop : ℤ := ctx.emax - ctx.prec + 1

/-- Drop the digits below an exponent: half to even, and one digit less if all were nines. -/
def roundTo (d : Decimal) (exponent : ℤ) : Except Signal Decimal :=
  let c := roundShift d.coefficient (exponent - d.exponent).toNat
  if 10 ^ ctx.prec ≤ c then
    if ctx.etop < exponent + 1 then throw .overflow else pure ⟨c / 10, exponent + 1⟩
  else pure ⟨c, exponent⟩

/-- The number that the context represents. Underflow is not trapped. -/
def fix (d : Decimal) : Except Signal Decimal :=
  if d.coefficient = 0 then pure ⟨0, min (max d.exponent ctx.etiny) ctx.emax⟩
  else
    let exponent := digitCount d.coefficient + d.exponent - ctx.prec
    if ctx.etop < exponent then throw .overflow
    else if d.exponent < max exponent ctx.etiny then ctx.roundTo d (max exponent ctx.etiny)
    else pure d

/-- `a * b`. -/
def mul (a b : Decimal) : Except Signal Decimal :=
  ctx.fix ⟨a.coefficient * b.coefficient, a.exponent + b.exponent⟩

/-- The exact quotient, or one digit more than the context keeps, with a last digit that rounds as the rest would. -/
def quotient (a b : Decimal) : Decimal :=
  let ideal := a.exponent - b.exponent
  let shift : ℤ := digitCount b.coefficient - digitCount a.coefficient + ctx.prec + 1
  let n := a.coefficient * 10 ^ shift.toNat
  let m := b.coefficient * 10 ^ (-shift).toNat
  let c := n / m
  if n % m ≠ 0 then ⟨if c % 5 = 0 then c + 1 else c, ideal - shift⟩
  else towardsIdeal ideal shift.toNat ⟨c, ideal - shift⟩

/-- `a / b`. -/
def div (a b : Decimal) : Except Signal Decimal :=
  if b.coefficient = 0 then throw (if a.coefficient = 0 then .invalidOperation else .divisionByZero)
  else if a.coefficient = 0 then ctx.fix ⟨0, a.exponent - b.exponent⟩
  else ctx.fix (ctx.quotient a b)

/-- `value.normalize()`: no zeros at the end of the coefficient. -/
def normalize (d : Decimal) : Except Signal Decimal := do
  let d ← ctx.fix d
  pure (if d.coefficient = 0 then zero else towardsIdeal ctx.emax (digitCount d.coefficient) d)

end Context

/-- `value.to_integral_value(rounding=ROUND_DOWN)`. -/
def truncate (d : Decimal) : Decimal :=
  if 0 ≤ d.exponent then d else ⟨d.coefficient / 10 ^ (-d.exponent).toNat, 0⟩

/-! ## Significant digits -/

/-- A number with at most `n` significant digits. -/
def SigDigits (n : ℕ) (x : ℚ) : Prop := ∃ (c : ℕ) (e : ℤ), c < 10 ^ n ∧ x = c * (10 : ℚ) ^ e

section digits

variable {m n : ℕ} {x y : ℚ}

lemma SigDigits.mono (h : SigDigits m x) (hle : m ≤ n) : SigDigits n x := by
  obtain ⟨c, e, hc, hx⟩ := h
  exact ⟨c, e, hc.trans_le (Nat.pow_le_pow_right (by omega) hle), hx⟩

lemma SigDigits.mul (hx : SigDigits m x) (hy : SigDigits n y) : SigDigits (m + n) (x * y) := by
  obtain ⟨c, e, hc, rfl⟩ := hx
  obtain ⟨c', e', hc', rfl⟩ := hy
  refine ⟨c * c', e + e', ?_, ?_⟩
  · rw [pow_add]
    exact Nat.mul_lt_mul'' hc hc'
  · rw [Nat.cast_mul, zpow_add₀ (by norm_num)]
    ring

lemma sigDigits_natCast {k : ℕ} (h : k < 10 ^ n) : SigDigits n (k : ℚ) := ⟨k, 0, h, by rw [zpow_zero, mul_one]⟩

end digits

/-! ## Magnitudes -/

section magnitude

variable {d : Decimal}

lemma digitCount_pos (n : ℕ) : 0 < digitCount n := by
  unfold digitCount
  exact List.length_pos_iff.mpr Nat.toDigits_ne_nil

lemma lt_pow_digitCount (n : ℕ) : n < 10 ^ digitCount n :=
  (Nat.length_toDigits_le_iff (by omega) (digitCount_pos n)).mp (le_refl _)

lemma pow_le_of_digitCount {n : ℕ} (hn : n ≠ 0) : 10 ^ (digitCount n - 1) ≤ n := by
  by_contra hlt
  rcases Nat.lt_or_ge 1 (digitCount n) with hmany | hone
  · have hshort := (Nat.length_toDigits_le_iff (by omega) (by omega)).mpr (not_le.mp hlt)
    have hcount := digitCount_pos n
    unfold digitCount at hmany hshort hcount
    omega
  · rw [Nat.sub_eq_zero_of_le hone, pow_zero] at hlt
    omega

/-- A number is at least its leading digit. -/
lemma pow_le_toRat (hd : d.coefficient ≠ 0) : (10 : ℚ) ^ (digitCount d.coefficient + d.exponent - 1) ≤ d.toRat := by
  have hcount := digitCount_pos d.coefficient
  have hcoefficient : (10 : ℚ) ^ (digitCount d.coefficient - 1) ≤ d.coefficient := by
    exact_mod_cast pow_le_of_digitCount hd
  have hsplit : (10 : ℚ) ^ (digitCount d.coefficient + d.exponent - 1) =
      10 ^ (digitCount d.coefficient - 1) * (10 : ℚ) ^ d.exponent := by
    rw [← zpow_natCast, ← zpow_add₀ (by norm_num)]
    congr 1
    omega
  rw [hsplit, toRat]
  exact mul_le_mul_of_nonneg_right hcoefficient (zpow_nonneg (by norm_num) _)

lemma toRat_lt_pow : d.toRat < (10 : ℚ) ^ (digitCount d.coefficient + d.exponent) := by
  have hcoefficient : (d.coefficient : ℚ) < 10 ^ digitCount d.coefficient := by
    exact_mod_cast lt_pow_digitCount d.coefficient
  rw [toRat, zpow_add₀ (by norm_num), zpow_natCast]
  exact mul_lt_mul_of_pos_right hcoefficient (zpow_pos (by norm_num) _)

end magnitude

/-! ## Rounding -/

/-- Rounding is off by half a unit at most. -/
lemma roundShift_near (n k : ℕ) : 2 * |(roundShift n k : ℚ) * 10 ^ k - n| ≤ 10 ^ k := by
  have hsplit : (n : ℚ) = (n / 10 ^ k : ℕ) * 10 ^ k + (n % 10 ^ k : ℕ) := by
    exact_mod_cast (Nat.div_add_mod' n (10 ^ k)).symm
  have hrest : (n % 10 ^ k : ℕ) < 10 ^ k := Nat.mod_lt _ (by positivity)
  have hbelow : ((n % 10 ^ k : ℕ) : ℚ) ≤ 10 ^ k := by exact_mod_cast hrest.le
  unfold roundShift
  dsimp only
  split
  · rename_i hup
    have hhalf : (10 : ℚ) ^ k ≤ 2 * (n % 10 ^ k : ℕ) := by
      have : 10 ^ k ≤ 2 * (n % 10 ^ k) := by omega
      exact_mod_cast this
    rw [hsplit]
    push_cast
    rw [abs_of_nonneg (by linarith)]
    linarith
  · rename_i hdown
    have hhalf : 2 * ((n % 10 ^ k : ℕ) : ℚ) ≤ 10 ^ k := by
      have : 2 * (n % 10 ^ k) ≤ 10 ^ k := by omega
      exact_mod_cast this
    have hnonneg : (0 : ℚ) ≤ (n % 10 ^ k : ℕ) := Nat.cast_nonneg _
    rw [hsplit, abs_of_nonpos (by linarith)]
    linarith

/-- Zeros are dropped exactly. -/
lemma roundShift_of_dvd {n k : ℕ} (h : 10 ^ k ∣ n) : roundShift n k * 10 ^ k = n := by
  have hrest : n % 10 ^ k = 0 := Nat.mod_eq_zero_of_dvd h
  have hpos : 0 < 10 ^ k := by positivity
  unfold roundShift
  dsimp only
  rw [hrest, if_neg (by omega), Nat.div_mul_cancel h]

lemma roundShift_le {n k prec : ℕ} (h : n < 10 ^ (prec + k)) : roundShift n k ≤ 10 ^ prec := by
  have hquotient : n / 10 ^ k < 10 ^ prec := Nat.div_lt_of_lt_mul (by rw [pow_add, mul_comm] at h; exact h)
  unfold roundShift
  dsimp only
  split
  · exact hquotient
  · exact hquotient.le

/-- A rounded number: near the number, and the number if that has few digits. -/
structure RoundsTo (prec : ℕ) (x y : ℚ) : Prop where
  near : |y - x| * 10 ^ prec ≤ 5 * x
  exact : SigDigits prec x → y = x

/-- The numbers whose rounding is relative: no overflow, no underflow. -/
structure Context.Normal (ctx : Context) (x : ℚ) : Prop where
  low : (10 : ℚ) ^ (-ctx.emax) ≤ x
  high : x < (10 : ℚ) ^ ctx.emax

section fix

variable {ctx : Context} {d : Decimal}

lemma Context.Normal.coefficient_ne (h : ctx.Normal d.toRat) : d.coefficient ≠ 0 := by
  intro hzero
  have hpos : (0 : ℚ) < 10 ^ (-ctx.emax) := zpow_pos (by norm_num) _
  have hlow := h.low
  rw [toRat_eq_zero.mpr hzero] at hlow
  linarith

/-- The exponents of a normal number. -/
lemma Context.Normal.exponents (h : ctx.Normal d.toRat) :
    -ctx.emax < digitCount d.coefficient + d.exponent ∧ digitCount d.coefficient + d.exponent ≤ ctx.emax := by
  have hlow := h.low.trans_lt toRat_lt_pow
  have hhigh := (pow_le_toRat h.coefficient_ne).trans_lt h.high
  rw [zpow_lt_zpow_iff_right₀ (by norm_num)] at hlow hhigh
  omega

/-- A number with as many digits more than a precision that the zeros of its coefficient make up for. -/
lemma dvd_of_sigDigits {prec k : ℕ} (hd : d.coefficient ≠ 0)
    (hcount : digitCount d.coefficient = prec + k) (h : SigDigits prec d.toRat) : 10 ^ k ∣ d.coefficient := by
  obtain ⟨c, e, hc, hx⟩ := h
  have hleading := pow_le_toRat hd
  have hbound : d.toRat < (10 : ℚ) ^ (prec + e) := by
    have hcast : (c : ℚ) < 10 ^ prec := by exact_mod_cast hc
    rw [hx, zpow_add₀ (by norm_num), zpow_natCast]
    exact mul_lt_mul_of_pos_right hcast (zpow_pos (by norm_num) _)
  have hlt := hleading.trans_lt hbound
  rw [zpow_lt_zpow_iff_right₀ (by norm_num), hcount] at hlt
  obtain ⟨j, hj⟩ : ∃ j : ℕ, e - d.exponent = k + j := ⟨(e - d.exponent - k).toNat, by push_cast at hlt; omega⟩
  have hvalue : (d.coefficient : ℚ) = c * 10 ^ (k + j) := by
    have hpow : (10 : ℚ) ^ d.exponent ≠ 0 := zpow_ne_zero _ (by norm_num)
    have he : e = (k + j : ℕ) + d.exponent := by push_cast; omega
    rw [toRat, he, zpow_add₀ (by norm_num), zpow_natCast, ← mul_assoc] at hx
    exact mul_right_cancel₀ hpow hx
  have hnat : d.coefficient = c * 10 ^ (k + j) := by exact_mod_cast hvalue
  rw [hnat, pow_add]
  exact ⟨c * 10 ^ j, by ring⟩

/-- **A normal number is rounded**, without a signal. -/
lemma Context.fix_spec (h : ctx.Normal d.toRat) : ∃ r, ctx.fix d = .ok r ∧ RoundsTo ctx.prec d.toRat r.toRat := by
  have hd := h.coefficient_ne
  obtain ⟨hlow, hhigh⟩ := h.exponents
  have hprec := ctx.prec_pos
  have hself : RoundsTo ctx.prec d.toRat d.toRat :=
    ⟨by rw [sub_self, abs_zero, zero_mul]; exact mul_nonneg (by norm_num) d.toRat_nonneg, fun _ => rfl⟩
  unfold Context.fix
  rw [if_neg hd]
  dsimp only
  rw [if_neg (by unfold etop; omega), max_eq_left (by unfold etiny; omega)]
  split
  · rename_i hlong
    obtain ⟨k, hcount⟩ : ∃ k : ℕ, digitCount d.coefficient = ctx.prec + k :=
      ⟨digitCount d.coefficient - ctx.prec, by omega⟩
    have hexponent : (digitCount d.coefficient : ℤ) + d.exponent - ctx.prec = d.exponent + k := by omega
    have hshift : (d.exponent + k - d.exponent).toNat = k := by omega
    have hbound := roundShift_le (hcount ▸ lt_pow_digitCount d.coefficient)
    -- whether or not the nines carry, the result is the rounded coefficient at its exponent
    have hround : ∃ r, ctx.roundTo d (d.exponent + k) = .ok r ∧
        r.toRat = roundShift d.coefficient k * (10 : ℚ) ^ (d.exponent + k) := by
      unfold Context.roundTo
      dsimp only
      rw [hshift]
      split
      · rename_i hcarry
        rw [if_neg (by unfold etop; omega)]
        refine ⟨_, rfl, ?_⟩
        obtain ⟨j, hj⟩ : ∃ j, ctx.prec = j + 1 := ⟨ctx.prec - 1, by omega⟩
        have hten : roundShift d.coefficient k = 10 ^ j * 10 := by
          rw [← pow_succ, ← hj]
          omega
        rw [toRat, hten, Nat.mul_div_cancel _ (by norm_num), zpow_add₀ (by norm_num : (10 : ℚ) ≠ 0) _ 1, zpow_one]
        push_cast
        ring
      · exact ⟨_, rfl, rfl⟩
    rw [hexponent]
    obtain ⟨r, hr, hvalue⟩ := hround
    refine ⟨r, hr, ?_, fun hfew => ?_⟩
    · have hdifference : r.toRat - d.toRat = (roundShift d.coefficient k * 10 ^ k - d.coefficient) * (10 : ℚ) ^ d.exponent := by
        rw [hvalue, toRat, zpow_add₀ (by norm_num), zpow_natCast]
        ring
      have hpos : (0 : ℚ) < 10 ^ d.exponent := zpow_pos (by norm_num) _
      have hleading : (10 : ℚ) ^ k * 10 ^ ctx.prec ≤ 10 * d.coefficient := by
        have hpow := pow_le_of_digitCount hd
        have hten : 10 * 10 ^ (digitCount d.coefficient - 1) = 10 ^ k * 10 ^ ctx.prec := by
          rw [← pow_succ', ← pow_add]
          congr 1
          omega
        have hnat : 10 ^ k * 10 ^ ctx.prec ≤ 10 * d.coefficient := hten ▸ Nat.mul_le_mul_left 10 hpow
        exact_mod_cast hnat
      have hnear := roundShift_near d.coefficient k
      have hscaled : |(roundShift d.coefficient k : ℚ) * 10 ^ k - d.coefficient| * 10 ^ ctx.prec ≤ 5 * d.coefficient := by
        have hmul := mul_le_mul_of_nonneg_right hnear (by positivity : (0 : ℚ) ≤ 10 ^ ctx.prec)
        linarith
      rw [hdifference, abs_mul, abs_of_pos hpos, toRat]
      calc |(roundShift d.coefficient k : ℚ) * 10 ^ k - d.coefficient| * 10 ^ d.exponent * 10 ^ ctx.prec
          = |(roundShift d.coefficient k : ℚ) * 10 ^ k - d.coefficient| * 10 ^ ctx.prec * 10 ^ d.exponent := by ring
        _ ≤ 5 * d.coefficient * 10 ^ d.exponent := mul_le_mul_of_nonneg_right hscaled hpos.le
        _ = 5 * (d.coefficient * 10 ^ d.exponent) := by ring
    · have hexact : (roundShift d.coefficient k : ℚ) * 10 ^ k = d.coefficient := by
        exact_mod_cast roundShift_of_dvd (dvd_of_sigDigits hd hcount hfew)
      rw [hvalue, zpow_add₀ (by norm_num), zpow_natCast, toRat, ← hexact]
      ring
  · exact ⟨d, rfl, hself⟩

/-- What the context represents has no more digits than the context. -/
lemma Context.fix_coefficient_lt {r : Decimal} (h : ctx.fix d = .ok r) : r.coefficient < 10 ^ ctx.prec := by
  have hprec : 0 < 10 ^ ctx.prec := by positivity
  unfold Context.fix at h
  split at h
  · obtain rfl := pure_eq_ok_iff.mp h
    exact hprec
  · dsimp only at h
    split at h
    · exact absurd h (by simp)
    · split at h
      · rename_i hlong
        unfold Context.roundTo at h
        dsimp only at h
        have hle : roundShift d.coefficient
            (max (digitCount d.coefficient + d.exponent - ctx.prec) ctx.etiny - d.exponent).toNat ≤ 10 ^ ctx.prec := by
          refine roundShift_le ((lt_pow_digitCount d.coefficient).trans_le (Nat.pow_le_pow_right (by omega) ?_))
          omega
        split at h
        · split at h
          · exact absurd h (by simp)
          · obtain rfl := pure_eq_ok_iff.mp h
            exact (Nat.div_le_div_right hle).trans_lt (Nat.div_lt_self hprec (by omega))
        · rename_i hshort
          obtain rfl := pure_eq_ok_iff.mp h
          exact not_le.mp hshort
      · rename_i hfits
        obtain rfl := pure_eq_ok_iff.mp h
        exact (lt_pow_digitCount d.coefficient).trans_le (Nat.pow_le_pow_right (by omega) (by omega))

lemma Context.fix_sigDigits {r : Decimal} (h : ctx.fix d = .ok r) : SigDigits ctx.prec r.toRat :=
  ⟨r.coefficient, r.exponent, Context.fix_coefficient_lt h, rfl⟩

/-- A product of a normal size is rounded. -/
lemma Context.mul_spec {a b : Decimal} (h : ctx.Normal (a.toRat * b.toRat)) :
    ∃ r, ctx.mul a b = .ok r ∧ RoundsTo ctx.prec (a.toRat * b.toRat) r.toRat := by
  have hvalue : (⟨a.coefficient * b.coefficient, a.exponent + b.exponent⟩ : Decimal).toRat = a.toRat * b.toRat := by
    simp only [toRat, Nat.cast_mul, zpow_add₀ (by norm_num : (10 : ℚ) ≠ 0)]
    ring
  rw [← hvalue] at h ⊢
  exact Context.fix_spec h

/-! ## Quotients -/

lemma toRat_towardsIdeal (ideal : ℤ) (fuel : ℕ) (d : Decimal) : (towardsIdeal ideal fuel d).toRat = d.toRat := by
  induction fuel generalizing d with
  | zero => rfl
  | succ fuel ih =>
      unfold towardsIdeal
      split
      · rename_i hzero
        have hten : (d.coefficient : ℚ) = (d.coefficient / 10 : ℕ) * 10 := by
          have : d.coefficient = d.coefficient / 10 * 10 := by omega
          exact_mod_cast this
        rw [ih, toRat, toRat, hten, zpow_add₀ (by norm_num), zpow_one]
        push_cast
        ring
      · rfl

section quotient

variable (ctx) {a b : Decimal}

/-- The length of the two numbers whose integer quotient is taken. -/
lemma quotient_lengths (ha : a.coefficient ≠ 0) (shift : ℤ)
    (hshift : shift = digitCount b.coefficient - digitCount a.coefficient + ctx.prec + 1) :
    10 ^ ctx.prec * (b.coefficient * 10 ^ (-shift).toNat) ≤ a.coefficient * 10 ^ shift.toNat := by
  have hlow := pow_le_of_digitCount ha
  have hhigh := (lt_pow_digitCount b.coefficient).le
  have hcount := digitCount_pos a.coefficient
  calc 10 ^ ctx.prec * (b.coefficient * 10 ^ (-shift).toNat)
      ≤ 10 ^ ctx.prec * (10 ^ digitCount b.coefficient * 10 ^ (-shift).toNat) := by gcongr
    _ = 10 ^ (digitCount a.coefficient - 1) * 10 ^ shift.toNat := by
        rw [← pow_add, ← pow_add, ← pow_add]
        congr 1
        omega
    _ ≤ a.coefficient * 10 ^ shift.toNat := by gcongr

/-- **The quotient before rounding**: near the true one, and the true one if that has few digits. -/
lemma quotient_spec (ha : a.coefficient ≠ 0) (hb : b.coefficient ≠ 0) :
    |(ctx.quotient a b).toRat - a.toRat / b.toRat| * 10 ^ ctx.prec ≤ a.toRat / b.toRat ∧
      (SigDigits ctx.prec (a.toRat / b.toRat) → (ctx.quotient a b).toRat = a.toRat / b.toRat) := by
  obtain ⟨shift, hshift⟩ : ∃ shift : ℤ, shift = digitCount b.coefficient - digitCount a.coefficient + ctx.prec + 1 :=
    ⟨_, rfl⟩
  have hlengths := @quotient_lengths ctx a b ha shift hshift
  obtain ⟨n, hn⟩ : ∃ n, n = a.coefficient * 10 ^ shift.toNat := ⟨_, rfl⟩
  obtain ⟨m, hm⟩ : ∃ m, m = b.coefficient * 10 ^ (-shift).toNat := ⟨_, rfl⟩
  have hmpos : 0 < m := by
    rw [hm]
    positivity
  rw [← hn, ← hm] at hlengths
  obtain ⟨e, he⟩ : ∃ e : ℤ, e = a.exponent - b.exponent - shift := ⟨_, rfl⟩
  have hpow : (0 : ℚ) < 10 ^ e := zpow_pos (by norm_num) _
  have hmcast : (0 : ℚ) < m := Nat.cast_pos.mpr hmpos
  -- the true quotient, at the exponent of the integer one
  have htrue : a.toRat / b.toRat = n / m * 10 ^ e := by
    have hshiftPow : (10 : ℚ) ^ shift.toNat = 10 ^ shift * 10 ^ (-shift).toNat := by
      rw [← zpow_natCast, ← zpow_natCast, ← zpow_add₀ (by norm_num)]
      congr 1
      omega
    have hten : ∀ k : ℤ, (10 : ℚ) ^ k ≠ 0 := fun k => zpow_ne_zero k (by norm_num)
    have hbne : (b.coefficient : ℚ) ≠ 0 := Nat.cast_ne_zero.mpr hb
    have hsplit : (10 : ℚ) ^ a.exponent = 10 ^ b.exponent * 10 ^ shift * 10 ^ e := by
      rw [← zpow_add₀ (by norm_num), ← zpow_add₀ (by norm_num)]
      congr 1
      omega
    rw [hn, hm, toRat, toRat, hsplit]
    push_cast
    rw [hshiftPow]
    have hb10 := hten b.exponent
    field_simp
  have hquotient : (n : ℚ) = (n / m : ℕ) * m + (n % m : ℕ) := by exact_mod_cast (Nat.div_add_mod' n m).symm
  have hrestlt : ((n % m : ℕ) : ℚ) < m := by exact_mod_cast Nat.mod_lt n hmpos
  have hrestge : (0 : ℚ) ≤ (n % m : ℕ) := Nat.cast_nonneg _
  have hbelow : ((n / m : ℕ) : ℚ) ≤ n / m := Nat.cast_div_le
  have habove : (n : ℚ) / m < (n / m : ℕ) + 1 := by
    rw [div_lt_iff₀ hmcast]
    linarith
  have hlarge : (10 : ℚ) ^ ctx.prec ≤ n / m := by
    rw [le_div_iff₀ hmcast]
    exact_mod_cast hlengths
  rw [htrue]
  unfold Context.quotient
  dsimp only
  rw [← hshift, ← hn, ← hm, ← he]
  split
  · rename_i hrest
    have hnear : ∀ c : ℚ, c = (n / m : ℕ) ∨ c = (n / m : ℕ) + 1 →
        |c * 10 ^ e - n / m * 10 ^ e| * 10 ^ ctx.prec ≤ n / m * 10 ^ e := by
      intro c hc
      have hunit : |c - n / m| ≤ 1 := by
        rw [abs_le]
        rcases hc with rfl | rfl
        · exact ⟨by linarith, by linarith⟩
        · exact ⟨by linarith, by linarith⟩
      rw [← sub_mul, abs_mul, abs_of_pos hpow]
      calc |c - n / m| * 10 ^ e * 10 ^ ctx.prec ≤ 1 * 10 ^ e * 10 ^ ctx.prec := by gcongr
        _ = 10 ^ ctx.prec * 10 ^ e := by ring
        _ ≤ n / m * 10 ^ e := mul_le_mul_of_nonneg_right hlarge hpow.le
    constructor
    · unfold toRat
      dsimp only
      split
      · exact hnear _ (Or.inr (by push_cast; rfl))
      · exact hnear _ (Or.inl rfl)
    · -- a quotient of few digits leaves no rest
      rintro ⟨c, e', hc, hx⟩
      exfalso
      have hccast : (c : ℚ) < 10 ^ ctx.prec := by exact_mod_cast hc
      have hratio : (n : ℚ) / m = c * 10 ^ (e' - e) := by
        rw [zpow_sub₀ (by norm_num), ← mul_div_assoc, ← hx]
        field_simp
      have hup : e < e' := by
        by_contra hle
        have hsmall : (10 : ℚ) ^ (e' - e) ≤ 1 := zpow_le_one_of_nonpos₀ (by norm_num) (by omega)
        have : (c : ℚ) * 10 ^ (e' - e) ≤ c := mul_le_of_le_one_right (Nat.cast_nonneg _) hsmall
        linarith
      obtain ⟨j, hj⟩ : ∃ j : ℕ, e' - e = j := ⟨(e' - e).toNat, by omega⟩
      rw [hj, zpow_natCast, div_eq_iff hmcast.ne'] at hratio
      have hnat : n = c * 10 ^ j * m := by exact_mod_cast hratio
      exact hrest (by rw [hnat, Nat.mul_mod_left])
  · rename_i hrest
    have hexact : ((n / m : ℕ) : ℚ) = n / m := Nat.cast_div (Nat.dvd_of_mod_eq_zero (not_not.mp hrest)) hmcast.ne'
    rw [toRat_towardsIdeal, toRat, hexact, sub_self, abs_zero, zero_mul]
    exact ⟨by positivity, fun _ => rfl⟩

/-- A number with the same few digits, or one near another: what rounds an approximation. -/
lemma RoundsTo.of_near {prec : ℕ} {x y z : ℚ} (hprec : 0 < prec) (hx : 0 ≤ x) (hnear : |y - x| * 10 ^ prec ≤ x)
    (hexact : SigDigits prec x → y = x) (h : RoundsTo prec y z) :
    |z - x| * 10 ^ prec ≤ 7 * x ∧ (SigDigits prec x → z = x) := by
  have hten : (10 : ℚ) ≤ 10 ^ prec := by
    calc (10 : ℚ) = 10 ^ 1 := (pow_one _).symm
      _ ≤ 10 ^ prec := pow_le_pow_right₀ (by norm_num) hprec
  constructor
  · have hdistance : |y - x| * 10 ≤ x :=
      (mul_le_mul_of_nonneg_left hten (abs_nonneg _)).trans hnear
    have hy : y ≤ x + |y - x| := by linarith [le_abs_self (y - x)]
    have htriangle : |z - x| ≤ |z - y| + |y - x| := abs_sub_le z y x
    have hscaled := mul_le_mul_of_nonneg_right htriangle (by positivity : (0 : ℚ) ≤ 10 ^ prec)
    have hfar := h.near
    linarith
  · intro hfew
    have hsame := hexact hfew
    rw [← hsame]
    exact h.exact (hsame ▸ hfew)

/-- **A quotient of a normal size** is near the true one, and the true one if that has few digits. -/
lemma div_spec (ha : a.coefficient ≠ 0) (hb : b.coefficient ≠ 0)
    (hlow : 2 * (10 : ℚ) ^ (-ctx.emax) ≤ a.toRat / b.toRat) (hhigh : 2 * (a.toRat / b.toRat) < (10 : ℚ) ^ ctx.emax) :
    ∃ r, ctx.div a b = .ok r ∧ |r.toRat - a.toRat / b.toRat| * 10 ^ ctx.prec ≤ 7 * (a.toRat / b.toRat) ∧
      (SigDigits ctx.prec (a.toRat / b.toRat) → r.toRat = a.toRat / b.toRat) := by
  obtain ⟨hnear, hexact⟩ := quotient_spec ctx ha hb
  have hnonneg : 0 ≤ a.toRat / b.toRat := div_nonneg a.toRat_nonneg b.toRat_nonneg
  have hten : (10 : ℚ) ≤ 10 ^ ctx.prec := by
    calc (10 : ℚ) = 10 ^ 1 := (pow_one _).symm
      _ ≤ 10 ^ ctx.prec := pow_le_pow_right₀ (by norm_num) ctx.prec_pos
  have hdistance : |(ctx.quotient a b).toRat - a.toRat / b.toRat| * 10 ≤ a.toRat / b.toRat :=
    (mul_le_mul_of_nonneg_left hten (abs_nonneg _)).trans hnear
  obtain ⟨hleft, hright⟩ := abs_le.mp (le_refl |(ctx.quotient a b).toRat - a.toRat / b.toRat|)
  have hnormal : ctx.Normal (ctx.quotient a b).toRat := ⟨by linarith, by linarith⟩
  obtain ⟨r, hr, hrounds⟩ := Context.fix_spec hnormal
  refine ⟨r, ?_, hrounds.of_near ctx.prec_pos hnonneg hnear hexact⟩
  rw [Context.div, if_neg hb, if_neg ha]
  exact hr

end quotient

end fix

/-! ## Ranges -/

/-- A positive number within `n` powers of ten of one. -/
structure Within (n : ℤ) (x : ℚ) : Prop where
  low : (10 : ℚ) ^ (-n) ≤ x
  high : x ≤ (10 : ℚ) ^ n

namespace Within

variable {m n : ℤ} {x y : ℚ}

lemma pos (h : Within n x) : 0 < x := (zpow_pos (by norm_num) _).trans_le h.low

lemma mono (h : Within m x) (hle : m ≤ n) : Within n x :=
  ⟨(zpow_le_zpow_right₀ (by norm_num) (by omega)).trans h.low, h.high.trans (zpow_le_zpow_right₀ (by norm_num) hle)⟩

lemma mul (hx : Within m x) (hy : Within n y) : Within (m + n) (x * y) := by
  have hten : (10 : ℚ) ≠ 0 := by norm_num
  constructor
  · rw [neg_add, zpow_add₀ hten]
    exact mul_le_mul hx.low hy.low (zpow_nonneg (by norm_num) _) hx.pos.le
  · rw [zpow_add₀ hten]
    exact mul_le_mul hx.high hy.high hy.pos.le (zpow_nonneg (by norm_num) _)

lemma inv (h : Within n x) : Within n x⁻¹ := by
  constructor
  · rw [zpow_neg]
    exact inv_anti₀ h.pos h.high
  · have hinv := inv_anti₀ (zpow_pos (by norm_num : (0 : ℚ) < 10) _) h.low
    rwa [zpow_neg, inv_inv] at hinv

lemma div (hx : Within m x) (hy : Within n y) : Within (m + n) (x / y) := by
  rw [div_eq_mul_inv]
  exact hx.mul hy.inv

/-- A number between two is within what they are. -/
lemma between {z : ℚ} (hx : Within n x) (hz : Within n z) (hxy : x ≤ y) (hyz : y ≤ z) : Within n y :=
  ⟨hx.low.trans hxy, hyz.trans hz.high⟩

lemma normal (h : Within n x) (ctx : Context) (hn : n < ctx.emax) : ctx.Normal x :=
  ⟨(zpow_le_zpow_right₀ (by norm_num) (by omega)).trans h.low,
    h.high.trans_lt (zpow_lt_zpow_right₀ (by norm_num) hn)⟩

/-- Room for a factor of two on both sides. -/
lemma double {emax : ℤ} (h : Within n x) (hn : n < emax) : 2 * (10 : ℚ) ^ (-emax) ≤ x ∧ 2 * x < (10 : ℚ) ^ emax := by
  have hten : (10 : ℚ) ≠ 0 := by norm_num
  have hup : (10 : ℚ) ^ (n + 1) ≤ 10 ^ emax := zpow_le_zpow_right₀ (by norm_num) hn
  have hdown : (10 : ℚ) ^ (-emax) ≤ 10 ^ (-(n + 1)) := zpow_le_zpow_right₀ (by norm_num) (by omega)
  have hsplit : (10 : ℚ) ^ (-n) = 10 ^ (-(n + 1)) * 10 := by
    rw [show -n = -(n + 1) + 1 by ring, zpow_add₀ hten, zpow_one]
  have hlow := h.low
  have hhigh := h.high
  have hpos : (0 : ℚ) < 10 ^ (-(n + 1)) := zpow_pos (by norm_num) _
  have hpos' : (0 : ℚ) < 10 ^ n := zpow_pos (by norm_num) _
  rw [zpow_add₀ hten, zpow_one] at hup
  rw [hsplit] at hlow
  exact ⟨by linarith, by linarith⟩

/-- A number near one that is within a range. -/
lemma near (h : Within n x) (hnear : |y - x| * 2 ≤ x) : Within (n + 1) y := by
  have hten : (10 : ℚ) ≠ 0 := by norm_num
  obtain ⟨hleft, hright⟩ := abs_le.mp (le_refl |y - x|)
  have hlow := h.low
  have hhigh := h.high
  have hdown : (10 : ℚ) ^ (-n) = 10 ^ (-(n + 1)) * 10 := by
    rw [show -n = -(n + 1) + 1 by ring, zpow_add₀ hten, zpow_one]
  have hpos : (0 : ℚ) < 10 ^ (-(n + 1)) := zpow_pos (by norm_num) _
  have hpos' : (0 : ℚ) < 10 ^ n := zpow_pos (by norm_num) _
  constructor
  · linarith
  · rw [zpow_add₀ hten, zpow_one]
    linarith

end Within

/-! ## Truncation and normal form -/

lemma toRat_truncate (d : Decimal) : (truncate d).toRat = ⌊d.toRat⌋₊ := by
  unfold truncate
  split
  · rename_i hwhole
    obtain ⟨k, hk⟩ : ∃ k : ℕ, d.exponent = k := ⟨d.exponent.toNat, by omega⟩
    have hvalue : d.toRat = (d.coefficient * 10 ^ k : ℕ) := by
      rw [toRat, hk, zpow_natCast]
      push_cast
      rfl
    rw [hvalue, Nat.floor_natCast]
  · rename_i hfraction
    obtain ⟨k, hk⟩ : ∃ k : ℕ, d.exponent = -k := ⟨(-d.exponent).toNat, by omega⟩
    have hvalue : d.toRat = d.coefficient / (10 ^ k : ℕ) := by
      rw [toRat, hk, zpow_neg, zpow_natCast, div_eq_mul_inv]
      push_cast
      rfl
    have hnat : (-d.exponent).toNat = k := by omega
    rw [hvalue, Nat.floor_div_eq_div, hnat, toRat]
    simp

/-- A number that is moved towards an exponent with enough fuel has no zero at its end, or reaches it. -/
lemma towardsIdeal_stops (ideal : ℤ) {fuel : ℕ} {d : Decimal} (hd : d.coefficient ≠ 0) (hfuel : d.coefficient < 10 ^ fuel) :
    (towardsIdeal ideal fuel d).coefficient % 10 ≠ 0 ∨ ideal ≤ (towardsIdeal ideal fuel d).exponent := by
  induction fuel generalizing d with
  | zero =>
      rw [pow_zero] at hfuel
      omega
  | succ fuel ih =>
      unfold towardsIdeal
      split
      · rename_i hzero
        rw [pow_succ] at hfuel
        have hshorter : d.coefficient / 10 ≠ 0 := by omega
        exact ih hshorter (by change d.coefficient / 10 < _; omega)
      · rename_i hstop
        rcases not_and_or.mp hstop with hreached | hdigit
        · exact Or.inr (not_lt.mp hreached)
        · exact Or.inl hdigit

/-- A coefficient without a zero at its end is the shortest. -/
lemma coefficient_lt_of_sigDigits {prec : ℕ} {d : Decimal} (hd : d.coefficient % 10 ≠ 0) (h : SigDigits prec d.toRat) :
    d.coefficient < 10 ^ prec := by
  obtain ⟨c, e, hc, hx⟩ := h
  have hten : (10 : ℚ) ≠ 0 := by norm_num
  rcases le_or_gt e d.exponent with hle | hlt
  · obtain ⟨j, hj⟩ : ∃ j : ℕ, d.exponent = j + e := ⟨(d.exponent - e).toNat, by omega⟩
    rw [toRat, hj, zpow_add₀ hten, zpow_natCast, ← mul_assoc] at hx
    have hnat : d.coefficient * 10 ^ j = c := by exact_mod_cast mul_right_cancel₀ (zpow_ne_zero e hten) hx
    have hpos : 0 < 10 ^ j := by positivity
    nlinarith
  · obtain ⟨j, hj⟩ : ∃ j : ℕ, e = (j + 1 : ℕ) + d.exponent := ⟨(e - d.exponent - 1).toNat, by push_cast; omega⟩
    rw [toRat, hj, zpow_add₀ hten, zpow_natCast, ← mul_assoc] at hx
    have hnat : d.coefficient = c * 10 ^ (j + 1) := by
      exact_mod_cast mul_right_cancel₀ (zpow_ne_zero d.exponent hten) hx
    rw [hnat, pow_succ, ← mul_assoc, Nat.mul_mod_left] at hd
    exact absurd rfl hd

/-- **The normal form** of a number of few digits: the number, with the shortest coefficient. -/
lemma Context.normalize_spec {ctx : Context} {d : Decimal} (h : ctx.Normal d.toRat) (hfew : SigDigits ctx.prec d.toRat) :
    ∃ r, ctx.normalize d = .ok r ∧ r.toRat = d.toRat ∧ r.coefficient % 10 ≠ 0 ∧ r.coefficient < 10 ^ ctx.prec := by
  obtain ⟨fixed, hfix, hrounds⟩ := Context.fix_spec h
  have hvalue := hrounds.exact hfew
  have hne : fixed.coefficient ≠ 0 := (hvalue ▸ h).coefficient_ne
  have hstripped := toRat_towardsIdeal ctx.emax (digitCount fixed.coefficient) fixed
  have hdigit : (towardsIdeal ctx.emax (digitCount fixed.coefficient) fixed).coefficient % 10 ≠ 0 := by
    refine (towardsIdeal_stops ctx.emax hne (lt_pow_digitCount _)).resolve_right fun hreached => ?_
    have hnormal : ctx.Normal (towardsIdeal ctx.emax (digitCount fixed.coefficient) fixed).toRat := by
      rw [hstripped, hvalue]
      exact h
    obtain ⟨-, hhigh⟩ := hnormal.exponents
    have hcount := digitCount_pos (towardsIdeal ctx.emax (digitCount fixed.coefficient) fixed).coefficient
    omega
  refine ⟨_, ?_, hstripped.trans hvalue, hdigit, coefficient_lt_of_sigDigits hdigit ?_⟩
  · rw [Context.normalize, hfix, ok_bind, if_neg hne]
    rfl
  · rw [hstripped, hvalue]
    exact hfew

/-! ## Floors of rounded quotients -/

/-- A number that is nearer to another than any whole number around has its floor. -/
lemma floor_eq_of_near {x y gap : ℚ} (hx : 0 ≤ x) (hnear : |y - x| < gap)
    (hgap : ∀ m : ℕ, (m : ℚ) ≠ x → m ≤ ⌊x⌋₊ + 1 → gap ≤ |(m : ℚ) - x|) (hexact : (⌊x⌋₊ : ℚ) = x → y = x) :
    ⌊y⌋₊ = ⌊x⌋₊ := by
  by_cases hwhole : (⌊x⌋₊ : ℚ) = x
  · rw [hexact hwhole]
  · have hbelow := Nat.floor_le hx
    have habove := Nat.lt_floor_add_one x
    have hnext : ((⌊x⌋₊ + 1 : ℕ) : ℚ) ≠ x := by
      push_cast
      exact habove.ne'
    have hlow := hgap _ hwhole (Nat.le_succ _)
    have hhigh := hgap _ hnext (le_refl _)
    rw [abs_of_nonpos (by linarith)] at hlow
    rw [abs_of_nonneg (by push_cast; linarith)] at hhigh
    push_cast at hhigh
    obtain ⟨hleft, hright⟩ := abs_lt.mp hnear
    have hfloor : (0 : ℚ) ≤ ⌊x⌋₊ := Nat.cast_nonneg _
    rw [Nat.floor_eq_iff (by linarith)]
    exact ⟨by linarith, by linarith⟩

/-- **The distance of a quotient of few digits from the whole numbers around it.** -/
lemma quotient_gap {precision k n : ℕ} {v s : ℚ} (hv : SigDigits precision v) (hs : SigDigits k s) (hspos : 0 < s)
    (hpos : 0 ≤ v) (hcount : ⌊v / s⌋₊ + 1 < 10 ^ n) (hdigits : k + n ≤ precision) (m : ℕ) (hne : (m : ℚ) ≠ v / s) :
    v / s ≤ 10 ^ precision * |(m : ℚ) - v / s| := by
  obtain ⟨t, a, ht, rfl⟩ := hv
  obtain ⟨c, b, hc, rfl⟩ := hs
  have hten : (10 : ℚ) ≠ 0 := by norm_num
  have hcpos : 0 < c := by
    rcases Nat.eq_zero_or_pos c with rfl | hpos
    · rw [Nat.cast_zero, zero_mul] at hspos
      exact absurd hspos (lt_irrefl _)
    · exact hpos
  obtain ⟨x, hx⟩ : ∃ x, x = (t : ℚ) * 10 ^ a / (c * 10 ^ b) := ⟨_, rfl⟩
  rw [← hx] at hne hcount ⊢
  have hxpos : 0 ≤ x := by
    rw [hx]
    exact div_nonneg hpos hspos.le
  have hlt : x < 10 ^ n := by
    have hnat : ((⌊x⌋₊ + 1 : ℕ) : ℚ) < 10 ^ n := by exact_mod_cast hcount
    have habove := Nat.lt_floor_add_one x
    push_cast at hnat
    linarith
  -- over a common denominator that the quotient keeps below the precision
  obtain ⟨q, p, hq, hqp, hbound⟩ : ∃ q p : ℕ, 0 < q ∧ x * q = p ∧ x * q ≤ 10 ^ precision := by
    rw [eq_div_iff hspos.ne'] at hx
    rcases le_or_gt b a with hle | hgt
    · obtain ⟨j, hj⟩ : ∃ j : ℕ, a = j + b := ⟨(a - b).toNat, by omega⟩
      rw [hj, zpow_add₀ hten, zpow_natCast, ← mul_assoc, ← mul_assoc] at hx
      refine ⟨c, t * 10 ^ j, hcpos, ?_, ?_⟩
      · push_cast
        exact mul_right_cancel₀ (zpow_ne_zero b hten) hx
      · have hccast : (c : ℚ) ≤ 10 ^ k := by exact_mod_cast hc.le
        calc x * c ≤ 10 ^ n * 10 ^ k := mul_le_mul hlt.le hccast (Nat.cast_nonneg _) (by positivity)
          _ = 10 ^ (k + n) := by rw [pow_add, mul_comm]
          _ ≤ 10 ^ precision := pow_le_pow_right₀ (by norm_num) hdigits
    · obtain ⟨j, hj⟩ : ∃ j : ℕ, b = j + a := ⟨(b - a).toNat, by omega⟩
      rw [hj, zpow_add₀ hten, zpow_natCast, ← mul_assoc, ← mul_assoc] at hx
      have hcancel := mul_right_cancel₀ (zpow_ne_zero a hten) hx
      refine ⟨c * 10 ^ j, t, by positivity, ?_, ?_⟩
      · push_cast
        rw [← mul_assoc]
        exact hcancel
      · have htcast : (t : ℚ) ≤ 10 ^ precision := by exact_mod_cast ht.le
        push_cast
        rw [← mul_assoc, hcancel]
        exact htcast
  have hqcast : (0 : ℚ) < q := Nat.cast_pos.mpr hq
  have hdistance : 1 ≤ |(m : ℚ) - x| * q := by
    have hints : ((m * q : ℤ) - (p : ℤ)) ≠ 0 := by
      intro hzero
      have hsame : (m : ℚ) * q = p := by
        have : (m * q : ℤ) = p := by linarith
        exact_mod_cast this
      exact hne (mul_right_cancel₀ hqcast.ne' (hsame.trans hqp.symm))
    have hone : (1 : ℤ) ≤ |(m * q : ℤ) - p| := Int.one_le_abs hints
    have hcast : (1 : ℚ) ≤ |(m : ℚ) * q - p| := by exact_mod_cast hone
    rw [← hqp, ← sub_mul, abs_mul, abs_of_pos hqcast] at hcast
    exact hcast
  refine le_of_mul_le_mul_right ?_ hqcast
  calc x * q ≤ 10 ^ precision * 1 := by rw [mul_one]; exact hbound
    _ ≤ 10 ^ precision * (|(m : ℚ) - x| * q) := by gcongr
    _ = 10 ^ precision * |(m : ℚ) - x| * q := by ring

end MuStrategy.Lib.Decimal
