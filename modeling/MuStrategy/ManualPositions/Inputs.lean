import Mathlib.Tactic.IntervalCases
import MuStrategy.Canonical
import MuStrategy.Lib.Calendar
import MuStrategy.Lib.Check
import MuStrategy.Lib.Decimal
import MuStrategy.Lib.Number

/-!
# Manual inputs

What a person submits to the manual position ledger, a form of text fields, and the facts the ledger
reads from it.

* `identifier`, `decimal`, `stage`, `note` — the checked fields; `number` prints a decimal.
* `fill` — the fill a form describes.
* `decimal_number` — a decimal that was accepted is printed as a text that is accepted again.
-/

namespace MuStrategy.ManualPositions

open Lib

/-- What a ledger call raises. -/
inductive LedgerError where
  /-- `ValueError(text)`. -/
  | value (text : String)
  /-- `KeyError`. -/
  | key
  /-- `sqlite3.IntegrityError`: a uniqueness constraint. -/
  | integrity
  /-- `sqlite3.OperationalError`: a table is missing. -/
  | operational
  /-- `OverflowError`: the integer does not fit a column. -/
  | overflow
  /-- `sqlite3.OperationalError`: the largest row id is in use. -/
  | full
  deriving DecidableEq

/-- A form: its fields by name. -/
abbrev Payload := List (String × String)

/-- `payload.get(name)`. -/
def Payload.get (payload : Payload) (name : String) : Option String := payload.lookup name

/-- `payload.get(name, "")`. -/
def Payload.getD (payload : Payload) (name : String) : String := (payload.get name).getD ""

/-- Source: `manual_positions.py` `_identifier`. -/
def identifier (value : Option String) : Except LedgerError String := do
  let value ← orThrow value (.value "记录标识无效，请重新打开录入页。")
  require (isLowerHex 32 value) (.value "记录标识无效，请重新打开录入页。")
  pure value

/-! ## Numbers -/

section numbers

variable [DecimalDigits]

/-- `\d`. -/
def isDigit (c : Char) : Bool := (DecimalDigits.digit? c).isSome

/-- `[1-9]`. -/
def isLeadingDigit (c : Char) : Bool := '1' ≤ c && c ≤ '9'

/-- `0|[1-9]\d{0,17}`. -/
def isIntegerPart (cs : List Char) : Bool :=
  match cs with
  | [] => false
  | c :: rest =>
      (c = '0' && rest.isEmpty) || (isLeadingDigit c && rest.length ≤ 17 && rest.all isDigit)

/-- `(?:0|[1-9]\d{0,17})(?:\.\d{1,12})?`. -/
def isDecimalText (cs : List Char) : Bool :=
  isIntegerPart (cs.takeWhile (· != '.')) &&
    match cs.dropWhile (· != '.') with
    | [] => true
    | _ :: fraction => 1 ≤ fraction.length && fraction.length ≤ 12 && fraction.all isDigit

/-- Source: `manual_positions.py` `_decimal`. -/
def decimal (value : Option String) (label : String) : Except LedgerError Decimal := do
  let value ← orThrow value (.value (label ++ "须为正数，最多 18 位整数、12 位小数。"))
  require (isDecimalText value.toList) (.value (label ++ "须为正数，最多 18 位整数、12 位小数。"))
  let result ← orThrow (Decimal.ofText? value.toList) (.value "InvalidOperation")
  require (0 < result.coefficient) (.value (label ++ "须大于零。"))
  pure result

/-- Source: `manual_positions.py` `_number`. -/
def number (value : Decimal) : String := String.ofList value.number

/-- A decimal field that may be left blank, as printed text. -/
def optionalNumber (value label : String) : Except LedgerError (Option String) :=
  if value = "" then pure none
  else do
    let result ← decimal (some value) label
    pure (some (number result))

/-- Source: `manual_positions.py` `_stage`. -/
def stage (value : String) : Except LedgerError (Option ℕ) :=
  match value.toList with
  | [] => pure none
  | c :: rest => do
      require (isLeadingDigit c && rest.length ≤ 1 && rest.all isDigit)
        (.value "stage 须为 1–99 的整数；不知道时留空。")
      let result ← orThrow (Decimal.readDigits 0 (c :: rest)) (.value "invalid literal for int()")
      pure (some result)

/-! ### Accepted decimals -/

/-- What an accepted decimal is: a positive number below `10 ^ 18` with at most 12 fraction digits. -/
structure Amount (d : Decimal) : Prop where
  scale : Decimal.HasScale 12 d
  pos : 0 < d.coefficient
  lt : d.coefficient < 10 ^ (18 + (-d.exponent).toNat)

omit [DecimalDigits] in
lemma Amount.toRat_pos {d : Decimal} (h : Amount d) : 0 < d.toRat := by
  have hne : d.toRat ≠ 0 := fun h0 => h.pos.ne' (Decimal.toRat_eq_zero.mp h0)
  exact lt_of_le_of_ne (Decimal.toRat_nonneg d) (Ne.symm hne)

omit [DecimalDigits] in
lemma Amount.toRat_lt {d : Decimal} (h : Amount d) : d.toRat < 10 ^ 18 := by
  have hupper := h.scale.upper
  have hexp : ((-d.exponent).toNat : ℤ) = -d.exponent := Int.toNat_of_nonneg (by omega)
  have hlt : (d.coefficient : ℚ) < 10 ^ (18 + (-d.exponent).toNat) := by exact_mod_cast h.lt
  have hpos : (0 : ℚ) < (10 : ℚ) ^ d.exponent := zpow_pos (by norm_num) _
  calc d.toRat < 10 ^ (18 + (-d.exponent).toNat) * (10 : ℚ) ^ d.exponent :=
        mul_lt_mul_of_pos_right hlt hpos
    _ = 10 ^ 18 := by
        rw [pow_add, mul_assoc, ← zpow_natCast (10 : ℚ) (-d.exponent).toNat, hexp,
          ← zpow_add₀ (by norm_num)]
        simp

lemma length_of_isIntegerPart {cs : List Char} (h : isIntegerPart cs = true) : cs.length ≤ 18 := by
  cases cs with
  | nil => cases h
  | cons c rest =>
      simp only [isIntegerPart, Bool.or_eq_true, Bool.and_eq_true, decide_eq_true_eq,
        List.isEmpty_iff] at h
      rcases h with ⟨-, rfl⟩ | ⟨⟨-, hlen⟩, -⟩
      · simp
      · rw [List.length_cons]
        omega

lemma decimal_eq_ok {value : Option String} {label : String} {d : Decimal} :
    decimal value label = .ok d ↔ ∃ text, value = some text ∧ isDecimalText text.toList = true ∧
      Decimal.ofText? text.toList = some d ∧ 0 < d.coefficient := by
  simp only [decimal, bind_eq_ok, orThrow_eq_ok, require_eq_ok, exists_const, pure_eq_ok_iff,
    decide_eq_true_eq]
  constructor
  · rintro ⟨text, rfl, hshape, result, hresult, hpos, rfl⟩
    exact ⟨text, rfl, hshape, hresult, hpos⟩
  · rintro ⟨text, rfl, hshape, hresult, hpos⟩
    exact ⟨text, rfl, hshape, d, hresult, hpos, rfl⟩

/-- An accepted decimal is an amount. -/
lemma amount_of_decimal {value : Option String} {label : String} {d : Decimal}
    (h : decimal value label = .ok d) : Amount d := by
  obtain ⟨text, rfl, hshape, htext, hpos⟩ := decimal_eq_ok.mp h
  simp only [isDecimalText, Bool.and_eq_true] at hshape
  obtain ⟨hint, hfraction⟩ := hshape
  have hlen := length_of_isIntegerPart hint
  rw [Decimal.ofText?] at htext
  split at htext
  · obtain ⟨n, hn, rfl⟩ := Option.map_eq_some_iff.mp htext
    refine ⟨⟨by simp, le_rfl⟩, hpos, ?_⟩
    have hlt := Decimal.readDigits_lt hn
    calc n < (0 + 1) * 10 ^ (text.toList.takeWhile (· != '.')).length := hlt
      _ ≤ 10 ^ (18 + (-(0 : ℤ)).toNat) := by
        rw [Nat.zero_add, Nat.one_mul]
        exact Nat.pow_le_pow_right (by omega) (by simpa using hlen)
  · rename_i c fraction hdrop
    simp only [hdrop, Bool.and_eq_true, decide_eq_true_eq] at hfraction
    obtain ⟨⟨-, hle⟩, -⟩ := hfraction
    obtain ⟨n, hn, rfl⟩ := Option.map_eq_some_iff.mp htext
    refine ⟨⟨by simp only; omega, by simp⟩, hpos, ?_⟩
    have hlt := Decimal.readDigits_lt hn
    calc n < (0 + 1) * 10 ^ (text.toList.takeWhile (· != '.') ++ fraction).length := hlt
      _ ≤ 10 ^ (18 + (-(-(fraction.length : ℤ))).toNat) := by
        rw [Nat.zero_add, Nat.one_mul, List.length_append]
        exact Nat.pow_le_pow_right (by omega) (by omega)

/-- The text of a number below `10 ^ 18` is an integer part. -/
lemma isIntegerPart_toDigits {n : ℕ} (hn : n < 10 ^ 18) : isIntegerPart (Nat.toDigits 10 n) = true := by
  rcases Nat.eq_zero_or_pos n with rfl | hpos
  · rfl
  · obtain ⟨d, cs, hcs, hd, hlt, hall⟩ := Decimal.toDigits_eq_cons hpos
    have hlen := (Nat.length_toDigits_le_iff (by omega) (by omega)).mpr hn
    rw [hcs, List.length_cons] at hlen
    have hdigits : cs.all isDigit = true := by
      refine List.all_eq_true.mpr fun c hc => ?_
      obtain ⟨e, he, rfl⟩ := hall c hc
      simp [isDigit, DecimalDigits.ascii e he]
    have hlead : isLeadingDigit (Nat.digitChar d) = true := by
      interval_cases d <;> decide
    rw [hcs, isIntegerPart, hlead, hdigits]
    simp
    omega

/-- The text of an amount is accepted. -/
lemma isDecimalText_format {n scale : ℕ} (hscale : scale ≤ 12) (hn : n < 10 ^ (18 + scale)) :
    isDecimalText (Decimal.format ⟨n, -(scale : ℤ)⟩) = true := by
  have hpoint : ∀ m, ∀ c ∈ Nat.toDigits 10 m, (c != '.') = true := by
    intro m c hc
    simpa using Decimal.toDigits_ne_point m c hc
  cases scale with
  | zero =>
      rw [isDecimalText, Nat.cast_zero, neg_zero, Decimal.format_natural,
        List.takeWhile_eq_self_iff.mpr (hpoint n), List.dropWhile_eq_nil_iff.mpr (hpoint n),
        isIntegerPart_toDigits hn]
      rfl
  | succ scale =>
      have hint : n / 10 ^ (scale + 1) < 10 ^ 18 := by
        rw [Nat.div_lt_iff_lt_mul (by positivity), ← pow_add]
        exact hn
      have hdigits : (Decimal.fractionDigits (scale + 1) n).all isDigit = true := by
        refine List.all_eq_true.mpr fun c hc => ?_
        obtain ⟨e, he, rfl⟩ := Decimal.mem_fractionDigits c hc
        simp [isDigit, DecimalDigits.ascii e he]
      rw [isDecimalText, Decimal.format_fraction, List.takeWhile_append_of_pos (hpoint _),
        List.dropWhile_append_of_pos (hpoint _)]
      simp [isIntegerPart_toDigits hint, hdigits, Decimal.length_fractionDigits]
      omega

/-- **A decimal that was accepted is printed as a text that is accepted again.** -/
theorem decimal_number {d : Decimal} (h : Amount d) (label : String) :
    ∃ d', decimal (some (number d)) label = .ok d' := by
  obtain ⟨n, e⟩ := d
  obtain ⟨k, rfl⟩ : ∃ k : ℕ, e = -(k : ℤ) :=
    ⟨(-e).toNat, by have := h.scale.upper; simp only at this; omega⟩
  have hk : k ≤ 12 := by
    have := h.scale.lower
    simp only at this
    omega
  have hpos : 0 < n := h.pos
  have hlt : n < 10 ^ (18 + k) := by simpa using h.lt
  obtain ⟨n', k', hle, rfl, -, htext⟩ := Decimal.number_eq_format k n
  have hn' : 0 < n' := Nat.pos_of_mul_pos_right hpos
  have hlt' : n' < 10 ^ (18 + k') := by
    have hsplit : 10 ^ (18 + k) = 10 ^ (18 + k') * 10 ^ (k - k') := by
      rw [← pow_add]
      congr 1
      omega
    rw [hsplit] at hlt
    exact Nat.lt_of_mul_lt_mul_right hlt
  refine ⟨⟨n', -(k' : ℤ)⟩, decimal_eq_ok.mpr ⟨_, rfl, ?_, ?_, hn'⟩⟩
  · rw [number, String.toList_ofList, htext]
    exact isDecimalText_format (hle.trans hk) hlt'
  · rw [number, String.toList_ofList, htext]
    exact Decimal.ofText_format n' k'

/-- An accepted blank or decimal field reads as missing, or as an accepted decimal. -/
lemma optionalNumber_eq_ok {value label : String} {result : Option String}
    (h : optionalNumber value label = .ok result) (label' : String) :
    ∀ text, result = some text → ∃ d, decimal (some text) label' = .ok d := by
  unfold optionalNumber at h
  split at h
  · rw [pure_eq_ok_iff] at h
    subst h
    intro text htext
    cases htext
  · simp only [bind_eq_ok, pure_eq_ok_iff] at h
    obtain ⟨d, hd, rfl⟩ := h
    intro text htext
    obtain rfl := Option.some.inj htext
    exact decimal_number (amount_of_decimal hd) label'

omit [DecimalDigits] in
/-- A leading digit is the digit of a number from 1 to 9. -/
lemma exists_of_isLeadingDigit {c : Char} (h : isLeadingDigit c = true) :
    ∃ d, 1 ≤ d ∧ d < 10 ∧ c = Nat.digitChar d := by
  have hc : 49 ≤ c.toNat ∧ c.toNat ≤ 57 := by
    simpa [isLeadingDigit, Char.le_def, UInt32.le_iff_toNat_le] using h
  obtain ⟨hlower, hupper⟩ := hc
  refine ⟨c.toNat - 48, by omega, by omega, ?_⟩
  rw [← Char.ofNat_toNat c]
  generalize c.toNat = n at hlower hupper
  interval_cases n <;> decide

/-- An accepted stage is a number from 1 to 99. -/
lemma stage_range {value : String} {n : ℕ} (h : stage value = .ok (some n)) : 1 ≤ n ∧ n ≤ 99 := by
  unfold stage at h
  split at h
  · cases h
  · rename_i c rest _
    simp only [bind_eq_ok, require_eq_ok, exists_const, orThrow_eq_ok, pure_eq_ok_iff, Option.some.injEq,
      Bool.and_eq_true, decide_eq_true_eq] at h
    obtain ⟨⟨⟨hlead, hlen⟩, -⟩, m, hm, rfl⟩ := h
    obtain ⟨d, hd, hd', rfl⟩ := exists_of_isLeadingDigit hlead
    rw [← List.singleton_append, Decimal.readDigits_append, Decimal.readDigits_digit hd',
      Option.bind_some, Nat.mul_zero, Nat.zero_add] at hm
    rcases rest with _ | ⟨c, _ | ⟨c', rest⟩⟩
    · obtain rfl := Option.some.inj hm
      omega
    · have hlt := Decimal.readDigits_lt hm
      have hle := Decimal.le_readDigits hm
      simp only [List.length_singleton, pow_one] at hlt hle
      omega
    · simp only [List.length_cons] at hlen
      omega

end numbers

/-- `value.strip()`. -/
def strip (value : String) : String :=
  String.ofList ((value.toList.dropWhile isSpace).rdropWhile isSpace)

/-- Source: `manual_positions.py` `_note`. -/
def note (value : String) : Except LedgerError String := do
  require (value.toList.length ≤ 2000) (.value "备注最多 2000 字。")
  pure (strip value)

lemma length_strip_le (value : String) : (strip value).toList.length ≤ value.toList.length := by
  rw [strip, String.toList_ofList]
  exact (List.rdropWhile_prefix _ _).length_le.trans (List.dropWhile_sublist _).length_le

/-- An accepted note is accepted again. -/
lemma note_of_note {value result : String} (h : note value = .ok result) :
    note result = .ok (strip result) := by
  simp only [note, bind_eq_ok, require_eq_ok, exists_const, pure_eq_ok_iff, decide_eq_true_eq] at h
  obtain ⟨hlen, rfl⟩ := h
  have hle : decide ((strip value).toList.length ≤ 2000) = true :=
    decide_eq_true ((length_strip_le value).trans hlen)
  rw [note, hle, require_true]
  rfl

/-! ## Fills -/

/-- `buy` or `sell`. -/
inductive FillAction where
  | buy
  | sell
  deriving DecidableEq

instance : PyEnum FillAction where
  members := [.buy, .sell]
  value
    | .buy => "buy"
    | .sell => "sell"
  find_value action := by cases action <;> decide

/-- A fill as the ledger stores it. Source: `manual_positions.py` `_fill`. -/
structure Fill where
  action : FillAction
  quantity : String
  price : String
  timeMs : ℤ
  stage : Option ℕ
  stopPrice : Option String
  note : String
  voided : Bool
  deriving DecidableEq

/-- The number two ASCII digits denote. -/
def twoDigits? (a b : Char) : Option ℕ :=
  if isAsciiDigit a && isAsciiDigit b then some (digitsValue [a, b]) else none

/-- The seconds of a time of day. -/
def clockSeconds? (hour minute second : ℕ) : Option ℕ :=
  if hour < 24 ∧ minute < 60 ∧ second < 60 then some (hour * 3600 + minute * 60 + second) else none

/-- The seconds part of a time text, if there is one. -/
def seconds? : List Char → Option ℕ
  | [] => some 0
  | [':', s, s'] => twoDigits? s s'
  | _ => none

/-- `YYYY-MM-DDTHH:MM` or `YYYY-MM-DDTHH:MM:SS` as Beijing time, in milliseconds since the epoch.
Source: `manual_positions.py` `_fill`, by `datetime.fromisoformat` and `timestamp`. -/
def executedAtMs? (value : String) : Option ℤ :=
  match value.toList with
  | y₁ :: y₂ :: y₃ :: y₄ :: '-' :: m₁ :: m₂ :: '-' :: d₁ :: d₂ :: 'T' :: h₁ :: h₂ :: ':' :: n₁ :: n₂ ::
      rest => do
      let century ← twoDigits? y₁ y₂
      let year ← twoDigits? y₃ y₄
      let month ← twoDigits? m₁ m₂
      let day ← twoDigits? d₁ d₂
      let hour ← twoDigits? h₁ h₂
      let minute ← twoDigits? n₁ n₂
      let second ← seconds? rest
      let time ← clockSeconds? hour minute second
      if Calendar.isDate (100 * century + year) month day then
        some ((Calendar.epochDay (100 * century + year) month day * 86400 + time - 8 * 3600) * 1000)
      else none
  | _ => none

/-- Source: `manual_positions.py` `_fill`. -/
def fill [DecimalDigits] (payload : Payload) (nowMs : ℤ) : Except LedgerError Fill := do
  let action ← orThrow (payload.get "action" >>= PyEnum.ofValue?) (.value "请选择买入或卖出。")
  let quantity ← decimal (payload.get "quantity") "实际数量"
  let price ← decimal (payload.get "price") "实际价格"
  let timeMs ← orThrow (executedAtMs? (payload.getD "executed_at"))
    (.value "请填写有效的北京时间成交时间。")
  require (0 < timeMs && timeMs ≤ nowMs) (.value "成交时间须在 1970 年之后，且不能晚于当前时间。")
  let noteText ← note (payload.getD "note")
  let stageNumber ← stage (payload.getD "stage")
  let stopPrice ← optionalNumber (payload.getD "stop_price") "手记止损"
  require (payload.getD "voided" = "" || payload.getD "voided" = "yes") (.value "作废标记无效。")
  pure {
    action, timeMs, stopPrice
    quantity := number quantity
    price := number price
    stage := stageNumber
    note := noteText
    voided := payload.getD "voided" = "yes" }

/-- The quantity and price of a fill are texts that are accepted again. -/
lemma amounts_of_fill [DecimalDigits] {payload : Payload} {nowMs : ℤ} {f : Fill} (h : fill payload nowMs = .ok f) :
    (∃ d, decimal (some f.quantity) "实际数量" = .ok d) ∧ ∃ d, decimal (some f.price) "实际价格" = .ok d := by
  simp only [fill, bind_eq_ok, pure_eq_ok_iff] at h
  obtain ⟨-, -, quantity, hquantity, price, hprice, -, -, -, -, -, -, -, -, -, -, -, -, rfl⟩ := h
  exact ⟨decimal_number (amount_of_decimal hquantity) _, decimal_number (amount_of_decimal hprice) _⟩

end MuStrategy.ManualPositions
