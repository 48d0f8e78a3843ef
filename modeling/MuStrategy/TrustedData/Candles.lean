import Mathlib.Order.Basic
import Mathlib.Tactic.IntervalCases
import MuStrategy.Canonical
import MuStrategy.Lib.Calendar
import MuStrategy.Lib.Check
import MuStrategy.Lib.IntText
import MuStrategy.Lib.Timeline

/-!
# Candles and their files

A candle file is a CSV file: a header and one row for each candle, with prices printed to eight decimals.

* `CandleText` — how the number type prints and reads prices: a printed price reads as a price that prints
  the same.
* `Candle`, `CsvRow`, `CsvRow.Canonical` — a candle, its row, and rows that were written from a candle.
* `utcMonthSegmentId`, `partitionByUtcMonth` — the months of candles; `Partition` says what a partition is.
* `validateSegmentCandles`, `validateContinuity` — the checks on the candles of a month.
-/

namespace MuStrategy.TrustedData

open Lib

/-- What the store raises. -/
inductive StoreError where
  /-- `ValueError`, or the `IndexError` of an empty interval. -/
  | value (text : String)
  /-- `ManifestSchemaError`. -/
  | schema (text : String)
  /-- `SegmentCorrectionError`. -/
  | correction (text : String)
  deriving DecidableEq

/-! ## Names -/

/-- `[A-Za-z0-9]`. -/
def isAlphanumeric (c : Char) : Bool := isAsciiDigit c || ('a' ≤ c && c ≤ 'z') || ('A' ≤ c && c ≤ 'Z')

/-- `[A-Za-z0-9][A-Za-z0-9._-]{0,127}`. -/
def isStorageSegment (value : String) : Bool :=
  match value.toList with
  | [] => false
  | c :: rest =>
      isAlphanumeric c && rest.length ≤ 127 &&
        rest.all fun c => isAlphanumeric c || c = '.' || c = '_' || c = '-'

/-- Source: `store.py` `validate_storage_segment`. -/
def validateStorageSegment (value field : String) : Except StoreError Unit :=
  require (isStorageSegment value) (.value (field ++ " must match [A-Za-z0-9][A-Za-z0-9._-]{0,127}"))

lemma not_mem_of_isStorageSegment {value : String} (h : isStorageSegment value = true) : '/' ∉ value.toList := by
  unfold isStorageSegment at h
  split at h
  · cases h
  · rename_i c rest hlist
    rw [hlist]
    simp only [Bool.and_eq_true, List.all_eq_true] at h
    obtain ⟨⟨hfirst, -⟩, hrest⟩ := h
    rw [List.mem_cons]
    rintro (rfl | hmem)
    · revert hfirst
      decide
    · have := hrest _ hmem
      revert this
      decide

/-- `int(text)` of digits that may be grouped by underscores. -/
def groupedNat? (cs : List Char) : Option ℕ :=
  if (cs.splitOn '_').all fun group => !group.isEmpty && group.all isAsciiDigit then
    some (digitsValue (cs.filter (· != '_')))
  else none

/-- The length of a unit of time. -/
def unitMs? : Char → Option ℕ
  | 'm' => some 60000
  | 'h' => some 3600000
  | 'd' => some 86400000
  | _ => none

/-- Source: `utils.py` `interval_to_ms`. -/
def intervalToMs (interval : String) : Except StoreError ℕ :=
  match interval.toList.reverse with
  | [] => throw (.value "string index out of range")
  | unit :: value => do
      let value ← orThrow (groupedNat? value.reverse) (.value "invalid literal for int() with base 10")
      let ms ← orThrow (unitMs? unit) (.value ("unsupported interval: " ++ interval))
      pure (value * ms)

/-! ## Months -/

/-- `n` with `width` decimal digits. -/
def padded : ℕ → ℕ → List Char
  | 0, _ => []
  | width + 1, n => padded width (n / 10) ++ [Nat.digitChar (n % 10)]

/-- `[0-9]{4}-(0[1-9]|1[0-2])`. -/
def isMonthId (value : String) : Bool :=
  match value.toList with
  | [a, b, c, d, s, e, f] =>
      [a, b, c, d].all isAsciiDigit && s = '-' &&
        ((e = '0' && '1' ≤ f && f ≤ '9') || (e = '1' && '0' ≤ f && f ≤ '2'))
  | _ => false

/-- Source: `contracts.py` `utc_month_segment_id`. -/
def utcMonthSegmentId (openTimeMs : ℤ) : Except StoreError String := do
  let ordinal := 719163 + openTimeMs / 86400000
  require (1 ≤ ordinal && ordinal ≤ Calendar.maxOrdinal)
    (.value "open_time_ms is outside the supported UTC datetime range")
  let date := Calendar.yearMonth ordinal.toNat
  pure (String.ofList (padded 4 date.1 ++ '-' :: padded 2 date.2))

lemma isMonthId_padded {year month : ℕ} (hlower : 1 ≤ month) (hupper : month ≤ 12) :
    isMonthId (String.ofList (padded 4 year ++ '-' :: padded 2 month)) = true := by
  have hdigit : ∀ n, isAsciiDigit (Nat.digitChar (n % 10)) = true := fun n =>
    (isAsciiDigit_digitChar (Nat.mod_lt n (by omega))).1
  rw [isMonthId, String.toList_ofList]
  simp only [padded, List.nil_append, List.cons_append, List.all_cons, hdigit]
  interval_cases month <;> rfl

/-- The identity of a month has the form of one. -/
lemma isMonthId_of_utcMonth {ms : ℤ} {segmentId : String} (h : utcMonthSegmentId ms = .ok segmentId) :
    isMonthId segmentId = true := by
  simp only [utcMonthSegmentId, bind_eq_ok, require_eq_ok, exists_const, pure_eq_ok_iff] at h
  obtain ⟨-, rfl⟩ := h
  obtain ⟨hlower, hupper⟩ := Calendar.yearMonth_month (719163 + ms / 86400000).toNat
  exact isMonthId_padded hlower hupper

lemma length_of_isMonthId {value : String} (h : isMonthId value = true) : value.toList.length = 7 := by
  unfold isMonthId at h
  split at h
  · rename_i hlist
    rw [hlist]
    rfl
  · cases h

lemma not_mem_of_isMonthId {value : String} (h : isMonthId value = true) : '/' ∉ value.toList := by
  unfold isMonthId at h
  split at h
  · rename_i a b c d s e f hlist
    have hslash : isAsciiDigit '/' = false := rfl
    rw [hlist]
    simp only [List.all_cons, List.all_nil, Bool.and_true, Bool.and_eq_true, Bool.or_eq_true,
      decide_eq_true_eq] at h
    obtain ⟨⟨⟨ha, hb, hc, hd⟩, rfl⟩, hmonth⟩ := h
    simp only [List.mem_cons, List.not_mem_nil, or_false]
    rintro (rfl | rfl | rfl | rfl | h | rfl | rfl)
    · rw [hslash] at ha
      cases ha
    · rw [hslash] at hb
      cases hb
    · rw [hslash] at hc
      cases hc
    · rw [hslash] at hd
      cases hd
    · revert h
      decide
    · revert hmonth
      simp
    · rcases hmonth with ⟨⟨-, h⟩, -⟩ | ⟨⟨-, h⟩, -⟩
      · revert h
        decide
      · revert h
        decide
  · cases h

/-! ## Candles -/

/-- How a number type prints and reads prices, and how times are printed. -/
class CandleText (F : Type) where
  /-- `f"{x:.8f}"`. -/
  fixed8 : F → String
  /-- `float(text)`; `none` raises. -/
  ofText? : String → Option F
  /-- `datetime.fromtimestamp(ms / 1000, tz=timezone.utc).isoformat()`. -/
  isoTime : ℤ → String
  /-- A printed price reads as a price that prints the same. -/
  ofText_fixed8 : ∀ x, ∃ y, ofText? (fixed8 x) = some y ∧ fixed8 y = fixed8 x

export CandleText (fixed8 isoTime)

/-- Source: `models.py` `Candle`. -/
structure Candle (F : Type) where
  openTimeMs : ℤ
  openPrice : F
  high : F
  low : F
  closePrice : F
  volume : F
  deriving DecidableEq

/-- Source: `utils.py` `dedupe_candles`. -/
def dedupeCandles {F : Type} (candles : List (Candle F)) : List (Candle F) := byKey Candle.openTimeMs candles

/-- A row of a candle file. The time is kept as the number its text denotes. -/
structure CsvRow where
  openTimeMs : ℤ
  openTimeIso : String
  openPrice : String
  high : String
  low : String
  closePrice : String
  volume : String
  deriving DecidableEq

section rows

variable {F : Type} [CandleText F]

/-- Source: `models.py` `Candle.to_csv_row`. -/
def Candle.toCsvRow (c : Candle F) : CsvRow where
  openTimeMs := c.openTimeMs
  openTimeIso := isoTime F c.openTimeMs
  openPrice := fixed8 c.openPrice
  high := fixed8 c.high
  low := fixed8 c.low
  closePrice := fixed8 c.closePrice
  volume := fixed8 c.volume

/-- Source: `models.py` `Candle.from_csv_row`. -/
def fromCsvRow (row : CsvRow) : Except StoreError (Candle F) := do
  let openPrice ← orThrow (CandleText.ofText? row.openPrice) (.value "could not convert string to float")
  let high ← orThrow (CandleText.ofText? row.high) (.value "could not convert string to float")
  let low ← orThrow (CandleText.ofText? row.low) (.value "could not convert string to float")
  let closePrice ← orThrow (CandleText.ofText? row.closePrice) (.value "could not convert string to float")
  let volume ← orThrow (CandleText.ofText? row.volume) (.value "could not convert string to float")
  pure ⟨row.openTimeMs, openPrice, high, low, closePrice, volume⟩

variable (F) in
/-- A row that was written from a candle. -/
def CsvRow.Canonical (row : CsvRow) : Prop := ∃ c : Candle F, c.toCsvRow = row

/-- **A row that was written reads as a candle with the same row.** -/
lemma CsvRow.Canonical.read {row : CsvRow} (h : row.Canonical F) :
    ∃ c : Candle F, fromCsvRow row = .ok c ∧ c.toCsvRow = row := by
  obtain ⟨c, rfl⟩ := h
  obtain ⟨openPrice, hopen, hopen'⟩ := CandleText.ofText_fixed8 c.openPrice
  obtain ⟨high, hhigh, hhigh'⟩ := CandleText.ofText_fixed8 c.high
  obtain ⟨low, hlow, hlow'⟩ := CandleText.ofText_fixed8 c.low
  obtain ⟨closePrice, hclose, hclose'⟩ := CandleText.ofText_fixed8 c.closePrice
  obtain ⟨volume, hvolume, hvolume'⟩ := CandleText.ofText_fixed8 c.volume
  refine ⟨⟨c.openTimeMs, openPrice, high, low, closePrice, volume⟩, ?_, ?_⟩
  · simp only [fromCsvRow, Candle.toCsvRow, hopen, hhigh, hlow, hclose, hvolume, orThrow_some, ok_bind]
    rfl
  · simp only [Candle.toCsvRow, hopen', hhigh', hlow', hclose', hvolume']

/-- The candles of rows. -/
def readRows (rows : List CsvRow) : Except StoreError (List (Candle F)) := rows.mapM fromCsvRow

/-- Rows that were written read as candles with the same rows. -/
lemma readRows_canonical {rows : List CsvRow} (h : ∀ row ∈ rows, row.Canonical F) :
    ∃ candles : List (Candle F), readRows rows = .ok candles ∧ candles.map Candle.toCsvRow = rows := by
  induction rows with
  | nil => exact ⟨[], rfl, rfl⟩
  | cons row rows ih =>
      obtain ⟨hrow, hrows⟩ := List.forall_mem_cons.mp h
      obtain ⟨c, hc, hcrow⟩ := hrow.read
      obtain ⟨cs, hcs, hcsrows⟩ := ih hrows
      unfold readRows at hcs
      refine ⟨c :: cs, ?_, by rw [List.map_cons, hcrow, hcsrows]⟩
      rw [readRows, List.mapM_cons, hc, hcs]
      rfl

/-- The row of a candle keeps its time. -/
@[simp] lemma Candle.toCsvRow_openTimeMs (c : Candle F) : c.toCsvRow.openTimeMs = c.openTimeMs := rfl

end rows

end MuStrategy.TrustedData
