import MuStrategy.Execution.Intents
import MuStrategy.Lib.DecimalText

/-!
# Instruments

The sizing of an order: its price is floored to the tick, and its size, bought for a notional, to the lot. The decimals
are those of the default context, and the floor is exact as long as the numbers have few digits.

* `OKXInstrumentSpec`, `priceToString`, `sizeForNotional` — the sizing.
* `LargestMultiple` — what a floor to a step is.
* `floorToStep_of_near` — the floor of a number that was rounded.
* `SizingExact`, `sizing_exact` — the price and the size of an order.
-/

namespace MuStrategy.Execution

open Lib Decimal

/-! ## Sizing -/

/-- What sizing raises. -/
inductive SizingError where
  /-- `ValueError`. -/
  | value (text : String)
  /-- A signal of the `decimal` module. -/
  | decimal (signal : Signal)
  deriving DecidableEq

/-- The value of an operation on decimals, or its signal. -/
def signalled {α : Type} : Except Signal α → Except SizingError α
  | .ok a => .ok a
  | .error signal => .error (.decimal signal)

/-- Source: `execution/instruments.py` `OKXInstrumentSpec`. -/
structure OKXInstrumentSpec where
  instId : String
  tickSize : Decimal
  lotSize : Decimal
  contractValue : Decimal
  instId_ne : instId ≠ ""
  tickSize_pos : tickSize.coefficient ≠ 0
  lotSize_pos : lotSize.coefficient ≠ 0
  contractValue_pos : contractValue.coefficient ≠ 0

/-- A number that is given to the sizing: a decimal, or a text without an exponent. A float is given as the decimal that
its text reads as. -/
inductive NumberArgument where
  | decimal (value : Decimal)
  | text (value : String)

section sizing

variable [DecimalDigits]

/-- Source: `execution/instruments.py` `_positive_decimal`.
Fidelity: of the numbers that are not negative. -/
def positiveDecimal (value : NumberArgument) (label : String) : Except SizingError Decimal := do
  let decimalValue ← match value with
    | .decimal d => pure d
    | .text text => orThrow (ofText? text.toList) (.value (label ++ " must be a finite positive decimal"))
  require (decimalValue.coefficient ≠ 0) (.value (label ++ " must be a finite positive decimal"))
  pure decimalValue

omit [DecimalDigits] in
/-- Source: `execution/instruments.py` `_floor_to_step`. -/
def floorToStep (value step : Decimal) : Except SizingError Decimal := do
  let quotient ← signalled (Context.default.div value step)
  signalled (Context.default.mul (truncate quotient) step)

omit [DecimalDigits] in
/-- Source: `execution/instruments.py` `_decimal_to_string`. -/
def decimalToString (value : Decimal) : Except SizingError String :=
  if value.coefficient = 0 then pure "0"
  else do
    let normal ← signalled (Context.default.normalize value)
    pure (String.ofList normal.format)

namespace OKXInstrumentSpec

variable (spec : OKXInstrumentSpec)

/-- Source: `execution/instruments.py` `OKXInstrumentSpec.price_to_string`. -/
def priceToString (price : NumberArgument) : Except SizingError String := do
  let value ← positiveDecimal price "price"
  let rounded ← floorToStep value spec.tickSize
  require (rounded.coefficient ≠ 0) (.value "rounded price must be positive")
  decimalToString rounded

/-- Source: `execution/instruments.py` `OKXInstrumentSpec.size_to_string`. -/
def sizeToString (size : NumberArgument) : Except SizingError String := do
  let value ← positiveDecimal size "size"
  let rounded ← floorToStep value spec.lotSize
  require (rounded.coefficient ≠ 0) (.value "rounded size must be positive")
  decimalToString rounded

/-- Source: `execution/instruments.py` `OKXInstrumentSpec.size_for_notional`. -/
def sizeForNotional (notionalUsdt price : NumberArgument) : Except SizingError String := do
  let notionalValue ← positiveDecimal notionalUsdt "notional_usdt"
  let priceValue ← positiveDecimal price "price"
  let contract ← signalled (Context.default.mul priceValue spec.contractValue)
  let rawSize ← signalled (Context.default.div notionalValue contract)
  spec.sizeToString (.decimal rawSize)

end OKXInstrumentSpec

end sizing

/-! ## The largest multiple -/

/-- The largest multiple of a step that fits. -/
def LargestMultiple (step : ℚ) (fits : ℚ → Prop) (x : ℚ) : Prop :=
  IsGreatest {y | (∃ n : ℕ, y = n * step) ∧ fits y} x

lemma largestMultiple_floor {step v : ℚ} (hstep : 0 < step) (hv : 0 ≤ v) :
    LargestMultiple step (· ≤ v) (⌊v / step⌋₊ * step) := by
  refine ⟨⟨⟨_, rfl⟩, ?_⟩, ?_⟩
  · exact (le_div_iff₀ hstep).mp (Nat.floor_le (div_nonneg hv hstep.le))
  · rintro _ ⟨⟨n, rfl⟩, hn⟩
    have hle : n ≤ ⌊v / step⌋₊ := Nat.le_floor ((le_div_iff₀ hstep).mpr hn)
    exact mul_le_mul_of_nonneg_right (Nat.cast_le.mpr hle) hstep.le

/-- There is one largest multiple. -/
lemma LargestMultiple.unique {step x y : ℚ} {fits : ℚ → Prop} (hx : LargestMultiple step fits x)
    (hy : LargestMultiple step fits y) : x = y := IsGreatest.unique hx hy

/-! ## Floors of rounded numbers -/

section floor

variable {value step : Decimal} {v : ℚ} {a b : ℤ} {k n : ℕ}

/-- A whole number of steps that is a product of few digits is exact. -/
lemma mul_truncate {quotient : Decimal} {m : ℕ} (hquotient : ⌊quotient.toRat⌋₊ = m) (hv : Within a v)
    (hstep : Within b step.toRat) (ha : a < 999999) (hb : b < 999999) (hle : m * step.toRat ≤ v)
    (hm : m < 10 ^ n) (hdigits : SigDigits k step.toRat) (hfew : k + n ≤ 26) :
    ∃ r, Context.default.mul (truncate quotient) step = .ok r ∧ r.toRat = m * step.toRat := by
  have hwhole : (truncate quotient).toRat = m := by rw [toRat_truncate, hquotient]
  rcases Nat.eq_zero_or_pos m with hzero | hpos
  · have hnone : (truncate quotient).coefficient = 0 := by
      rw [← toRat_eq_zero, hwhole, hzero, Nat.cast_zero]
    refine ⟨_, by rw [Context.mul, Context.fix, if_pos (by rw [hnone, Nat.zero_mul])]; rfl, ?_⟩
    rw [hzero, Nat.cast_zero, zero_mul, toRat_eq_zero]
  · have hone : (1 : ℚ) ≤ m := by exact_mod_cast hpos
    have hlow : step.toRat ≤ m * step.toRat := le_mul_of_one_le_left hstep.pos.le hone
    have hnormal : Context.default.Normal (m * step.toRat) :=
      ⟨(hstep.normal Context.default hb).low.trans hlow,
        hle.trans_lt (hv.normal Context.default ha).high⟩
    rw [← hwhole] at hnormal
    obtain ⟨r, hr, hrounds⟩ := Context.mul_spec hnormal
    rw [hwhole] at hrounds
    exact ⟨r, hr, hrounds.exact (((sigDigits_natCast hm).mul hdigits).mono (by change n + k ≤ 28; omega))⟩

/-- **The floor of a number that was rounded** is the floor of the number, if that is far enough from the next step. -/
lemma floorToStep_of_near (hrange : a + b + 1 < 999999) (ha : 0 ≤ a) (hb : 0 ≤ b) (hv : Within a v)
    (hstep : Within b step.toRat) (hnear : |value.toRat - v| * 10 ^ 28 ≤ 7 * v)
    (hexact : SigDigits 28 v → value.toRat = v) (hcount : ⌊v / step.toRat⌋₊ + 1 < 10 ^ n)
    (hdigits : SigDigits k step.toRat) (hfew : k + n ≤ 26)
    (hgap : ∀ m : ℕ, (m : ℚ) ≠ v / step.toRat → v / step.toRat ≤ 10 ^ 26 * |(m : ℚ) - v / step.toRat|) :
    ∃ r, floorToStep value step = .ok r ∧ r.toRat = ⌊v / step.toRat⌋₊ * step.toRat := by
  obtain ⟨x, hx⟩ : ∃ x, x = v / step.toRat := ⟨_, rfl⟩
  obtain ⟨y, hy⟩ : ∃ y, y = value.toRat / step.toRat := ⟨_, rfl⟩
  have hxpos : 0 < x := hx ▸ div_pos hv.pos hstep.pos
  have hxwithin : Within (a + b) x := hx ▸ hv.div hstep
  rw [← hx] at hcount hgap ⊢
  -- the quotient that is rounded is near the true one
  have hnearY : |y - x| * 10 ^ 28 ≤ 7 * x := by
    rw [hy, hx, ← sub_div, abs_div, abs_of_pos hstep.pos, div_mul_eq_mul_div, mul_div_assoc', div_le_div_iff_of_pos_right hstep.pos]
    exact hnear
  have hywithin : Within (a + b + 1) y := hxwithin.near (by linarith [abs_nonneg (y - x)])
  obtain ⟨hlow, hhigh⟩ := hywithin.double hrange
  have hvaluePos : value.coefficient ≠ 0 := by
    intro hzero
    have hypos := hywithin.pos
    rw [hy, toRat_eq_zero.mpr hzero, zero_div] at hypos
    exact lt_irrefl _ hypos
  have hstepPos : step.coefficient ≠ 0 := fun hzero => hstep.pos.ne' (toRat_eq_zero.mpr hzero)
  rw [hy] at hlow hhigh
  obtain ⟨q, hq, hnearQ, hexactQ⟩ := div_spec Context.default hvaluePos hstepPos hlow hhigh
  rw [← hy] at hnearQ hexactQ
  have hsmall : |q.toRat - x| < x / 10 ^ 26 := by
    have htriangle : |q.toRat - x| ≤ |q.toRat - y| + |y - x| := abs_sub_le _ _ _
    have hyle : y ≤ x + |y - x| := by linarith [le_abs_self (y - x)]
    have hfar : |q.toRat - y| * 10 ^ 28 ≤ 7 * y := hnearQ
    rw [lt_div_iff₀ (by positivity)]
    linarith [abs_nonneg (y - x), abs_nonneg (q.toRat - y)]
  have hfloor : ⌊q.toRat⌋₊ = ⌊x⌋₊ := by
    refine floor_eq_of_near hxpos.le hsmall (fun m hne _ => ?_) fun hwhole => ?_
    · rw [div_le_iff₀ (by positivity), mul_comm]
      exact hgap m hne
    · have hfewX : SigDigits n x := by
        rw [← hwhole]
        exact sigDigits_natCast (by omega)
      have hproduct : v = x * step.toRat := by rw [hx, div_mul_cancel₀ _ hstep.pos.ne']
      have hfewV : SigDigits 28 v := by
        rw [hproduct]
        exact (hfewX.mul hdigits).mono (by omega)
      have hsame : y = x := by rw [hy, hx, hexact hfewV]
      rw [← hsame] at hfewX ⊢
      exact hexactQ (hfewX.mono (by change n ≤ 28; omega))
  have hle : ⌊x⌋₊ * step.toRat ≤ v := by
    rw [← le_div_iff₀ hstep.pos, ← hx]
    exact Nat.floor_le hxpos.le
  obtain ⟨r, hr, hvalue⟩ := mul_truncate hfloor hv hstep (by omega) (by omega) hle (by omega) hdigits hfew
  refine ⟨r, ?_, hvalue⟩
  rw [floorToStep, hq, signalled, ok_bind, hr]
  rfl

end floor

/-! ## Texts -/

/-- The text of a number as an order intent takes it. -/
def Canonical (text : String) (x : ℚ) : Prop := ∀ fieldName, canonicalPositiveDecimal text fieldName = .ok x

/-- What the sizing makes of a number: the canonical text of the largest multiple that fits, or `ValueError` exactly if
that is zero. -/
structure FloorsTo (result : Except SizingError String) (step : ℚ) (fits : ℚ → Prop) : Prop where
  returns : ∀ text, result = .ok text → ∃ x, Canonical text x ∧ LargestMultiple step fits x
  raises : (∃ text, result = .error (.value text)) ↔ LargestMultiple step fits 0

section texts

variable [DecimalDigits] {d : Decimal}

/-- **The text of a number of few digits** is canonical, and reads back as the number. -/
lemma decimalToString_spec (h : Context.default.Normal d.toRat) (hfew : SigDigits 28 d.toRat) :
    ∃ text, decimalToString d = .ok text ∧ Canonical text d.toRat ∧
      ∃ r, ofText? text.toList = some r ∧ r.toRat = d.toRat := by
  obtain ⟨normal, hnormal, hvalue, hdigit, hshort⟩ := Context.normalize_spec h hfew
  have hplain : plainDecimal? 28 (String.ofList normal.format) = some d.toRat :=
    hvalue ▸ plainDecimal_format hdigit hshort
  obtain ⟨r, hr, hread⟩ := ofText_format_normal normal
  refine ⟨String.ofList normal.format, ?_, fun fieldName => ?_, r, ?_, hread.trans hvalue⟩
  · rw [decimalToString, if_neg h.coefficient_ne, hnormal]
    rfl
  · have hne : String.ofList normal.format ≠ "" := by
      intro hempty
      have hnone : plainDecimal? 28 "" = none := by decide
      rw [hempty, hnone] at hplain
      exact Option.some_ne_none _ hplain.symm
    have hpos : 0 < d.toRat := (zpow_pos (by norm_num : (0 : ℚ) < 10) _).trans_le h.low
    simp only [canonicalPositiveDecimal, decide_eq_true hne, hplain, decide_eq_true hpos, require_true, orThrow_some,
      ok_bind]
    rfl
  · rw [String.toList_ofList]
    exact hr

/-- The floor of a number, as a text. -/
lemma floorsTo_of_floor {value step : Decimal} {v : ℚ} {a b : ℤ} {k n : ℕ} (error : String) (ha : a < 999999)
    (hb : b < 999999) (hv : Within a v) (hstep : Within b step.toRat) (hcount : ⌊v / step.toRat⌋₊ + 1 < 10 ^ n)
    (hdigits : SigDigits k step.toRat) (hfew : k + n ≤ 26) {r : Decimal} (hr : floorToStep value step = .ok r)
    (hvalue : r.toRat = ⌊v / step.toRat⌋₊ * step.toRat) :
    FloorsTo (do
      let rounded ← floorToStep value step
      require (rounded.coefficient ≠ 0) (.value error)
      decimalToString rounded) step.toRat (· ≤ v) := by
  have hlargest := largestMultiple_floor hstep.pos hv.pos.le
  rw [hr, ok_bind]
  by_cases hzero : r.coefficient = 0
  · rw [toRat_eq_zero.mpr hzero] at hvalue
    rw [← hvalue] at hlargest
    rw [decide_eq_false (not_not.mpr hzero)]
    refine ⟨fun text htext => ?_, fun _ => hlargest, fun _ => ⟨error, rfl⟩⟩
    exact nomatch (htext : Except.error (SizingError.value error) = Except.ok text)
  · have hpos : r.toRat ≠ 0 := fun h => hzero (toRat_eq_zero.mp h)
    rw [hvalue] at hpos
    have hone : (1 : ℚ) ≤ ⌊v / step.toRat⌋₊ := by
      have hnat : ⌊v / step.toRat⌋₊ ≠ 0 := fun h => hpos (by rw [h, Nat.cast_zero, zero_mul])
      exact_mod_cast Nat.one_le_iff_ne_zero.mpr hnat
    have hnormal : Context.default.Normal r.toRat := by
      rw [hvalue]
      exact ⟨(hstep.normal Context.default hb).low.trans (le_mul_of_one_le_left hstep.pos.le hone),
        hlargest.1.2.trans_lt (hv.normal Context.default ha).high⟩
    have hshort : SigDigits 28 r.toRat := by
      rw [hvalue]
      exact ((sigDigits_natCast (by omega : _ < 10 ^ n)).mul hdigits).mono (by omega)
    obtain ⟨text, htext, hcanonical, -⟩ := decimalToString_spec hnormal hshort
    rw [decide_eq_true hzero, require_true, ok_bind, htext]
    refine ⟨fun text' h => ?_, fun h => ?_, fun h => ?_⟩
    · obtain rfl := Except.ok.inj h
      exact ⟨r.toRat, hcanonical, hvalue ▸ hlargest⟩
    · obtain ⟨_, h⟩ := h
      exact nomatch h
    · exact absurd (hlargest.unique h) hpos

end texts

/-! ## Orders -/

/-- The digits that a trigger price may have beside a tick. -/
def PriceDigits (trigger tick : ℚ) : Prop :=
  SigDigits 26 trigger ∧ ∃ k n, SigDigits k tick ∧ ⌊trigger / tick⌋₊ + 1 < 10 ^ n ∧ k + n ≤ 26

/-- The digits that a notional may have beside a price, a contract value and a lot. -/
def SizeDigits (notional price contractValue lot : ℚ) : Prop :=
  SigDigits 26 notional ∧ ∃ i j k n, SigDigits i price ∧ SigDigits j contractValue ∧ SigDigits k lot ∧
    ⌊notional / (price * contractValue) / lot⌋₊ + 1 < 10 ^ n ∧ i + j + k + n ≤ 26

/-- A number of an ordinary exponent. -/
def Ordinary (d : Decimal) : Prop := Within 200000 d.toRat

section orders

variable [DecimalDigits]

/-- **The sizing of an order is exact**: the price is the largest multiple of the tick below the trigger, the size the
largest multiple of the lot that the notional buys at the price. -/
structure SizingExact (spec : OKXInstrumentSpec) (trigger notional : Decimal) : Prop where
  price : PriceDigits trigger.toRat spec.tickSize.toRat →
    FloorsTo (spec.priceToString (.decimal trigger)) spec.tickSize.toRat (· ≤ trigger.toRat)
  size : ∀ p x, PriceDigits trigger.toRat spec.tickSize.toRat → spec.priceToString (.decimal trigger) = .ok p →
    Canonical p x → SizeDigits notional.toRat x spec.contractValue.toRat spec.lotSize.toRat →
    FloorsTo (spec.sizeForNotional (.decimal notional) (.text p)) spec.lotSize.toRat
      (· * x * spec.contractValue.toRat ≤ notional.toRat)

variable {spec : OKXInstrumentSpec} {trigger notional : Decimal}

lemma positiveDecimal_decimal {d : Decimal} {label : String} (h : 0 < d.toRat) :
    positiveDecimal (.decimal d) label = .ok d := by
  have hne : d.coefficient ≠ 0 := fun hzero => h.ne' (toRat_eq_zero.mpr hzero)
  simp only [positiveDecimal, pure_bind, decide_eq_true hne, require_true, ok_bind]
  rfl

lemma positiveDecimal_text {d : Decimal} {text label : String} (hread : ofText? text.toList = some d) (h : 0 < d.toRat) :
    positiveDecimal (.text text) label = .ok d := by
  have hne : d.coefficient ≠ 0 := fun hzero => h.ne' (toRat_eq_zero.mpr hzero)
  simp only [positiveDecimal, hread, orThrow_some, decide_eq_true hne, require_true, ok_bind]
  rfl

omit [DecimalDigits] in
/-- The price of an order: the floor of the trigger, as its text reads. -/
lemma priceToString_spec (htick : Ordinary spec.tickSize) (htrigger : Ordinary trigger)
    (hdigits : PriceDigits trigger.toRat spec.tickSize.toRat) :
    ∃ r, floorToStep trigger spec.tickSize = .ok r ∧
      r.toRat = ⌊trigger.toRat / spec.tickSize.toRat⌋₊ * spec.tickSize.toRat := by
  obtain ⟨htriggerDigits, k, n, hk, hn, hfew⟩ := hdigits
  refine floorToStep_of_near (by norm_num) (by norm_num) (by norm_num) htrigger htick ?_ (fun _ => rfl) hn hk hfew
    (quotient_gap htriggerDigits hk htick.pos htrigger.pos.le hn hfew)
  rw [sub_self, abs_zero, zero_mul]
  exact mul_nonneg (by norm_num) trigger.toRat_nonneg

lemma floorsTo_price (htick : Ordinary spec.tickSize) (htrigger : Ordinary trigger)
    (hdigits : PriceDigits trigger.toRat spec.tickSize.toRat) :
    FloorsTo (spec.priceToString (.decimal trigger)) spec.tickSize.toRat (· ≤ trigger.toRat) := by
  obtain ⟨r, hr, hvalue⟩ := priceToString_spec htick htrigger hdigits
  obtain ⟨-, k, n, hk, hn, hfew⟩ := hdigits
  rw [OKXInstrumentSpec.priceToString, positiveDecimal_decimal htrigger.pos, ok_bind]
  exact floorsTo_of_floor _ (by norm_num) (by norm_num) htrigger htick hn hk hfew hr hvalue

/-- A price that was returned: its text reads as a number between the tick and the trigger. -/
lemma price_reads (htick : Ordinary spec.tickSize) (htrigger : Ordinary trigger)
    (hdigits : PriceDigits trigger.toRat spec.tickSize.toRat) {p : String}
    (hp : spec.priceToString (.decimal trigger) = .ok p) {x : ℚ} (hx : Canonical p x) :
    ∃ d, ofText? p.toList = some d ∧ d.toRat = x ∧ Within 200000 x := by
  obtain ⟨r, hr, hvalue⟩ := priceToString_spec htick htrigger hdigits
  obtain ⟨-, k, n, hk, hn, hfew⟩ := hdigits
  rw [OKXInstrumentSpec.priceToString, positiveDecimal_decimal htrigger.pos, ok_bind, hr, ok_bind, bind_eq_ok] at hp
  obtain ⟨_, hne, htext⟩ := hp
  rw [require_eq_ok, decide_eq_true_eq] at hne
  have hlargest := largestMultiple_floor htick.pos htrigger.pos.le
  rw [← hvalue] at hlargest
  have hone : (1 : ℚ) ≤ ⌊trigger.toRat / spec.tickSize.toRat⌋₊ := by
    have hnat : ⌊trigger.toRat / spec.tickSize.toRat⌋₊ ≠ 0 := by
      intro h
      rw [h, Nat.cast_zero, zero_mul] at hvalue
      exact hne (toRat_eq_zero.mp hvalue)
    exact_mod_cast Nat.one_le_iff_ne_zero.mpr hnat
  have hwithin : Within 200000 r.toRat :=
    Within.between htick htrigger (hvalue ▸ le_mul_of_one_le_left htick.pos.le hone) hlargest.1.2
  have hshort : SigDigits 28 r.toRat := by
    rw [hvalue]
    exact ((sigDigits_natCast (by omega : _ < 10 ^ n)).mul hk).mono (by omega)
  obtain ⟨text, htext', hcanonical, d, hd, hread⟩ := decimalToString_spec (hwithin.normal _ (by decide)) hshort
  obtain rfl := Except.ok.inj (htext'.symm.trans htext)
  have hsame : r.toRat = x := Except.ok.inj ((hcanonical "").symm.trans (hx ""))
  exact ⟨d, hd, hread.trans hsame, hsame ▸ hwithin⟩

lemma floorsTo_size (hcontract : Ordinary spec.contractValue) (hlot : Ordinary spec.lotSize)
    (hnotional : Ordinary notional) {p : String} {d : Decimal} (hread : ofText? p.toList = some d) (hd : Ordinary d)
    (hdigits : SizeDigits notional.toRat d.toRat spec.contractValue.toRat spec.lotSize.toRat) :
    FloorsTo (spec.sizeForNotional (.decimal notional) (.text p)) spec.lotSize.toRat
      (· * d.toRat * spec.contractValue.toRat ≤ notional.toRat) := by
  obtain ⟨hnotionalDigits, i, j, k, n, hi, hj, hk, hn, hfew⟩ := hdigits
  -- the contract is exact, the size that it buys is near
  obtain ⟨contract, hmul, hrounds⟩ := Context.mul_spec ((hd.mul hcontract).normal Context.default (by decide))
  have hproduct : contract.toRat = d.toRat * spec.contractValue.toRat :=
    hrounds.exact ((hi.mul hj).mono (by change i + j ≤ 28; omega))
  have hcontractWithin : Within 400000 contract.toRat := hproduct ▸ hd.mul hcontract
  have hrawWithin : Within 600000 (notional.toRat / contract.toRat) := hnotional.div hcontractWithin
  have hne {e : Decimal} (h : 0 < e.toRat) : e.coefficient ≠ 0 := fun hzero => h.ne' (toRat_eq_zero.mpr hzero)
  obtain ⟨hlow, hhigh⟩ := hrawWithin.double (by norm_num : (600000 : ℤ) < 999999)
  obtain ⟨raw, hdiv, hnear, hexact⟩ :=
    div_spec Context.default (hne hnotional.pos) (hne hcontractWithin.pos) hlow hhigh
  have hrawPos : 0 < raw.toRat := by
    refine (hrawWithin.near ?_).pos
    have hscaled : |raw.toRat - notional.toRat / contract.toRat| * 10 ^ 28 ≤ 7 * (notional.toRat / contract.toRat) := hnear
    linarith [abs_nonneg (raw.toRat - notional.toRat / contract.toRat)]
  have hstep : 0 < d.toRat * spec.contractValue.toRat * spec.lotSize.toRat :=
    mul_pos (mul_pos hd.pos hcontract.pos) hlot.pos
  have hquotient : notional.toRat / contract.toRat / spec.lotSize.toRat =
      notional.toRat / (d.toRat * spec.contractValue.toRat * spec.lotSize.toRat) := by rw [hproduct, div_div]
  rw [← hproduct] at hn
  have hgap := quotient_gap hnotionalDigits ((hi.mul hj).mul hk) hstep hnotional.pos.le (hquotient ▸ hn) hfew
  rw [← hquotient] at hgap
  obtain ⟨r, hr, hvalue⟩ := floorToStep_of_near (by norm_num) (by norm_num) (by norm_num) hrawWithin hlot hnear hexact hn hk
    (by omega) hgap
  have hfloors := floorsTo_of_floor "rounded size must be positive" (by norm_num) (by norm_num) hrawWithin hlot
    hn hk (by omega) hr hvalue
  have hfits : (· * d.toRat * spec.contractValue.toRat ≤ notional.toRat) = (· ≤ notional.toRat / contract.toRat) := by
    funext s
    rw [le_div_iff₀ hcontractWithin.pos, hproduct, mul_assoc]
  rw [hfits, OKXInstrumentSpec.sizeForNotional, positiveDecimal_decimal hnotional.pos, ok_bind,
    positiveDecimal_text hread hd.pos, ok_bind, hmul, signalled, ok_bind, hdiv, signalled, ok_bind,
    OKXInstrumentSpec.sizeToString, positiveDecimal_decimal hrawPos, ok_bind]
  exact hfloors

/-- **Order sizing is the exact floor** of numbers of ordinary exponents. -/
theorem sizing_exact (htick : Ordinary spec.tickSize) (hlot : Ordinary spec.lotSize)
    (hcontract : Ordinary spec.contractValue) (htrigger : Ordinary trigger) (hnotional : Ordinary notional) :
    SizingExact spec trigger notional := by
  refine ⟨floorsTo_price htick htrigger, fun p x hprice hp hx hsize => ?_⟩
  obtain ⟨d, hread, rfl, hd⟩ := price_reads htick htrigger hprice hp hx
  exact floorsTo_size hcontract hlot hnotional hread hd hsize

end orders

/-! ## A sizing, and one that underflows -/

section concrete

attribute [local instance] writtenDigits

/-- A contract of a tenth, at a tick of a hundredth. -/
def demoSpec : OKXInstrumentSpec where
  instId := "MU-USDT-SWAP"
  tickSize := ⟨1, -2⟩
  lotSize := ⟨1, 0⟩
  contractValue := ⟨1, -1⟩
  instId_ne := by decide
  tickSize_pos := by decide
  lotSize_pos := by decide
  contractValue_pos := by decide

/-- A number of few digits is ordinary. -/
lemma ordinary_of_within {d : Decimal} (h : Within 3 d.toRat) : Ordinary d := h.mono (by norm_num)

/-- 81 contracts at 123.45 for 1000, and no more. -/
theorem sizing_exact_demo :
    demoSpec.priceToString (.decimal ⟨123456, -3⟩) = .ok "123.45" ∧
      demoSpec.sizeForNotional (.decimal ⟨1000, 0⟩) (.text "123.45") = .ok "81" ∧
      SizingExact demoSpec ⟨123456, -3⟩ ⟨1000, 0⟩ := by
  refine ⟨by decide +kernel, by decide +kernel, sizing_exact ?_ ?_ ?_ ?_ ?_⟩
  all_goals
    refine ordinary_of_within ⟨?_, ?_⟩
    all_goals norm_num [toRat, demoSpec]

/-- A tick below the exponents of the context. -/
def tinySpec : OKXInstrumentSpec where
  instId := "MU-USDT-SWAP"
  tickSize := ⟨3, -1000030⟩
  lotSize := ⟨1, 0⟩
  contractValue := ⟨1, 0⟩
  instId_ne := by decide
  tickSize_pos := by decide
  lotSize_pos := by decide
  contractValue_pos := by decide

/-- A price of one such tick underflows to zero, and is refused. -/
theorem sizing_underflows : ¬∀ (spec : OKXInstrumentSpec) (trigger notional : Decimal),
    trigger.coefficient ≠ 0 → notional.coefficient ≠ 0 → SizingExact spec trigger notional := by
  intro h
  obtain ⟨hprice, -⟩ := h tinySpec ⟨3, -1000030⟩ ⟨1, 0⟩ (by decide) (by decide)
  have htick : 0 < tinySpec.tickSize.toRat :=
    mul_pos (Nat.cast_pos.mpr (by decide : 0 < tinySpec.tickSize.coefficient)) (zpow_pos (by norm_num) _)
  have hrefused : tinySpec.priceToString (.decimal ⟨3, -1000030⟩) = .error (.value "rounded price must be positive") := by
    decide +kernel
  have hself : toRat ⟨3, -1000030⟩ = tinySpec.tickSize.toRat := rfl
  rw [hself, hrefused] at hprice
  have hdigits {n : ℕ} (hn : 1 ≤ n) : SigDigits n tinySpec.tickSize.toRat :=
    SigDigits.mono (m := 1) ⟨3, -1000030, by norm_num, by rw [toRat]; rfl⟩ hn
  have hzero := (hprice ⟨hdigits (by norm_num), 1, 1, hdigits (by norm_num), ?_, by norm_num⟩).raises.mp ⟨_, rfl⟩
  · have hone : tinySpec.tickSize.toRat ≤ 0 := hzero.2 ⟨⟨1, by rw [Nat.cast_one, one_mul]⟩, le_refl _⟩
    linarith
  · rw [div_self htick.ne', Nat.floor_one]
    norm_num

end concrete

end MuStrategy.Execution
