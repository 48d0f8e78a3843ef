import MuStrategy.Lib.Grid
import MuStrategy.Lib.Number
import MuStrategy.TrustedData.Candles

/-!
# Aggregation

Candles of five minutes are aggregated to parents of a quarter of an hour or an hour.

* `aggregateCandles` — the parents of all buckets that are full.
* `completeParentWindow`, `clipParentCandlesToCompleteBaseWindow` — the first and the last full bucket, and the candles
  between them.
* `Target` — a parent interval: a multiple of five minutes.
* `aggregateCandles_eq` — without gaps, the full buckets are those of the window.
* `Aggregated`, `aggregation_exact` — the parents of candles without gaps, and of any piece of them.
-/

namespace MuStrategy.TrustedData

open Lib

variable {F : Type} [Number F]

/-! ## Parents -/

/-- `a == b` of two numbers. -/
def sameNumber (a b : F) : Bool := a ≤ b && b ≤ a

/-- `(open, high, low, close)` of two candles are the same. -/
def sameOhlc (a b : Candle F) : Bool :=
  sameNumber a.openPrice b.openPrice && sameNumber a.high b.high && sameNumber a.low b.low &&
    sameNumber a.closePrice b.closePrice

/-- The rows that give the prices of a parent. Source: `validation.py` `_aggregate_parent`. -/
def ohlcRows (timestamp : ℤ) (rows : List (Candle F)) (ohlcPolicy : String) : Except StoreError (List (Candle F)) :=
  if ohlcPolicy = "standard" then pure rows
  else
    match rows.filter fun row => 0 < row.volume, rows with
    | [], first :: rest => do
        require (rest.all fun row => sameOhlc row first)
          (.value ("inconsistent all-zero no-trade bucket at " ++ toString timestamp))
        pure (first :: rest)
    | [], [] => throw (.value ("inconsistent all-zero no-trade bucket at " ++ toString timestamp))
    | traded, _ => pure traded

/-- Source: `validation.py` `_aggregate_parent`. -/
def aggregateParent (timestamp : ℤ) (rows : List (Candle F)) (ohlcPolicy : String) :
    Except StoreError (Candle F) := do
  let ohlc ← ohlcRows timestamp rows ohlcPolicy
  let first ← orThrow ohlc.head? (.value "list index out of range")
  let high ← orThrow (maximum? (ohlc.map Candle.high)) (.value "max() iterable argument is empty")
  let low ← orThrow (minimum? (ohlc.map Candle.low)) (.value "min() iterable argument is empty")
  let last ← orThrow ohlc.getLast? (.value "list index out of range")
  pure ⟨timestamp, first.openPrice, high, low, last.closePrice, Number.sum (rows.map Candle.volume)⟩

/-- The bucket of a candle. -/
def bucketOf (targetMs : ℕ) (candle : Candle F) : ℤ := floorTo targetMs candle.openTimeMs

/-- Source: `validation.py` `aggregate_candles`, with its default base interval. -/
def aggregateCandles (candles : List (Candle F)) (interval ohlcPolicy : String) :
    Except StoreError (List (Candle F)) := do
  let targetMs ← intervalToMs interval
  let baseMs ← intervalToMs "5m"
  let expected := targetMs / baseMs
  require (0 < expected && targetMs % baseMs = 0) (.value ("5m cannot build " ++ interval))
  require (ohlcPolicy = "standard" || ohlcPolicy = "okx_native") (.value ("unsupported ohlc_policy: " ++ ohlcPolicy))
  let ordered := dedupeCandles candles
  let groups := (byKey id (ordered.map (bucketOf targetMs))).map fun timestamp =>
    (timestamp, dedupeCandles (level (bucketOf targetMs) timestamp ordered))
  (groups.filter fun group => group.2.length = expected).mapM fun group =>
    aggregateParent group.1 group.2 ohlcPolicy

/-! ## Windows -/

/-- Source: `validation.py` `complete_parent_window`, with its default base interval. -/
def completeParentWindow (baseCandles : List (Candle F)) (interval : String) : Except StoreError (Option (ℤ × ℤ)) :=
  match (dedupeCandles baseCandles).head?, (dedupeCandles baseCandles).getLast? with
  | some oldest, some newest => do
      let targetMs ← intervalToMs interval
      let baseMs ← intervalToMs "5m"
      require (targetMs % baseMs = 0 && baseMs ≤ targetMs) (.value ("5m cannot build " ++ interval))
      let first := ceilTo targetMs oldest.openTimeMs
      let last := floorTo targetMs (newest.openTimeMs - (targetMs - baseMs))
      pure (if last < first then none else some (first, last))
  | _, _ => pure none

/-- The candles of a window. -/
def inParentWindow (window : Option (ℤ × ℤ)) (candle : Candle F) : Bool :=
  match window with
  | none => false
  | some (first, last) => first ≤ candle.openTimeMs && candle.openTimeMs ≤ last

/-- Source: `validation.py` `clip_parent_candles_to_complete_base_window`, with its default base interval. -/
def clipParentCandlesToCompleteBaseWindow (candles baseCandles : List (Candle F)) (interval : String) :
    Except StoreError (List (Candle F)) := do
  let window ← completeParentWindow baseCandles interval
  pure ((dedupeCandles candles).filter (inParentWindow window))

/-! ## Full buckets -/

/-- The length of the base interval. -/
def baseMs : ℤ := 300000

lemma baseMs_pos : 0 < baseMs := by decide

/-- A multiple of the base interval. -/
lemma width_eq (n : ℕ) : ((n * 300000 : ℕ) : ℤ) = n * baseMs := by
  rw [baseMs]
  push_cast
  ring

/-- A parent interval: some multiple of five minutes. -/
structure Target (interval : String) (n : ℕ) : Prop where
  pos : 0 < n
  width : intervalToMs interval = .ok (n * 300000)

lemma target_quarter : Target "15m" 3 := ⟨by decide, by decide⟩

lemma target_hour : Target "1h" 12 := ⟨by decide, by decide⟩

/-- Candles at multiples of five minutes, without a gap. -/
abbrev Contiguous (base : List (Candle F)) : Prop := OnGrid baseMs Candle.openTimeMs base

/-- A policy that is supported. -/
def SupportedPolicy (ohlcPolicy : String) : Prop := ohlcPolicy = "standard" ∨ ohlcPolicy = "okx_native"

/-- The parents of the times of a list. -/
def parentsAt (base : List (Candle F)) (targetMs : ℕ) (ohlcPolicy : String) (times : List ℤ) :
    Except StoreError (List (Candle F)) :=
  times.mapM fun t => aggregateParent t (level (bucketOf targetMs) t base) ohlcPolicy

/-- The times of a window. -/
def windowTimes (targetMs : ℕ) : Option (ℤ × ℤ) → List ℤ
  | none => []
  | some (first, last) => progression targetMs first last

/-- The window of candles without a gap. -/
def windowOf (base : List (Candle F)) (targetMs : ℕ) : Option (ℤ × ℤ) :=
  match base.head?, base.getLast? with
  | some oldest, some newest =>
      let first := ceilTo targetMs oldest.openTimeMs
      let last := floorTo targetMs (newest.openTimeMs - (targetMs - baseMs))
      if last < first then none else some (first, last)
  | _, _ => none

section contiguous

variable {base sub : List (Candle F)} {interval ohlcPolicy : String} {n : ℕ}

omit [Number F] in
lemma dedupeCandles_of_increasing {candles : List (Candle F)} (h : Increasing Candle.openTimeMs candles) :
    dedupeCandles candles = candles := byKey_of_increasing h

omit [Number F] in
lemma Contiguous.increasing (h : Contiguous base) : Increasing Candle.openTimeMs base :=
  OnGrid.increasing baseMs_pos h

omit [Number F] in
/-- The window is the one of the code. -/
lemma completeParentWindow_eq (ht : Target interval n) (h : Contiguous base) :
    completeParentWindow base interval = .ok (windowOf base (n * 300000)) := by
  have hpos := ht.pos
  have hbuilds : (n * 300000 % 300000 = 0 && 300000 ≤ n * 300000) = true := by
    rw [Bool.and_eq_true, decide_eq_true_eq, decide_eq_true_eq]
    omega
  rw [completeParentWindow, dedupeCandles_of_increasing h.increasing, windowOf]
  cases base.head? with
  | none => rfl
  | some oldest =>
      cases base.getLast? with
      | none => rfl
      | some newest =>
          have hbase : intervalToMs "5m" = .ok 300000 := by decide
          dsimp only
          rw [ht.width, ok_bind, hbase, ok_bind, hbuilds, require_true, ok_bind]
          rfl

omit [Number F] in
/-- The times of the window: the multiples of the interval whose buckets lie between the first and the last candle. -/
lemma mem_windowTimes (ht : Target interval n) {oldest newest : Candle F} (holdest : base.head? = some oldest)
    (hnewest : base.getLast? = some newest) (t : ℤ) : t ∈ windowTimes (n * 300000) (windowOf base (n * 300000)) ↔
      ((n * 300000 : ℕ) : ℤ) ∣ t ∧ oldest.openTimeMs ≤ t ∧ t + ((n * 300000 : ℕ) : ℤ) - baseMs ≤ newest.openTimeMs := by
  have hpos : 0 < ((n * 300000 : ℕ) : ℤ) := by
    have := ht.pos
    omega
  have hbounds : ((n * 300000 : ℕ) : ℤ) ∣ t → ((oldest.openTimeMs ≤ t ∧
      t + ((n * 300000 : ℕ) : ℤ) - baseMs ≤ newest.openTimeMs) ↔ ceilTo ((n * 300000 : ℕ) : ℤ) oldest.openTimeMs ≤ t ∧
        t ≤ floorTo ((n * 300000 : ℕ) : ℤ) (newest.openTimeMs - (((n * 300000 : ℕ) : ℤ) - baseMs))) := by
    intro hdvd
    rw [ceilTo_le_iff hpos hdvd, le_floorTo_iff hpos hdvd]
    refine and_congr_right fun _ => ?_
    omega
  rw [windowOf, holdest, hnewest]
  dsimp only
  split
  · rename_i hempty
    refine iff_of_false List.not_mem_nil fun ⟨hdvd, hin⟩ => ?_
    obtain ⟨hlower, hupper⟩ := (hbounds hdvd).mp hin
    exact absurd (hlower.trans hupper) (not_le.mpr hempty)
  · rw [windowTimes, mem_progression hpos]
    constructor
    · rintro ⟨hdvd, hin⟩
      have hdvd' := (dvd_sub_left dvd_ceilTo).mp hdvd
      exact ⟨hdvd', (hbounds hdvd').mpr hin⟩
    · rintro ⟨hdvd, hin⟩
      exact ⟨dvd_sub hdvd dvd_ceilTo, (hbounds hdvd).mp hin⟩

omit [Number F] in
/-- The first and the last candle. -/
lemma exists_ends (hne : base ≠ []) : ∃ oldest newest, base.head? = some oldest ∧ base.getLast? = some newest := by
  obtain ⟨oldest, rest, rfl⟩ := List.exists_cons_of_ne_nil hne
  obtain ⟨newest, hnewest⟩ :=
    Option.ne_none_iff_exists'.mp fun hnone => hne (List.getLast?_eq_none_iff.mp hnone)
  exact ⟨oldest, newest, rfl, hnewest⟩

omit [Number F] in
/-- **The buckets of the window are the full ones.** -/
lemma length_bucket_iff (ht : Target interval n) (h : Contiguous base) {t : ℤ} (hdvd : ((n * 300000 : ℕ) : ℤ) ∣ t) :
    (level (bucketOf (n * 300000)) t base).length = n ↔ t ∈ windowTimes (n * 300000) (windowOf base (n * 300000)) := by
  rcases eq_or_ne base [] with rfl | hne
  · have hn := ht.pos.ne
    simpa [windowOf, windowTimes, level] using hn
  · obtain ⟨oldest, newest, holdest, hnewest⟩ := exists_ends hne
    have hfirst : base.head?.map Candle.openTimeMs = some oldest.openTimeMs := by
      rw [holdest]
      rfl
    have hlast : base.getLast?.map Candle.openTimeMs = some newest.openTimeMs := by
      rw [hnewest]
      rfl
    rw [mem_windowTimes ht holdest hnewest, and_iff_right hdvd]
    exact OnGrid.length_bucket baseMs_pos h hfirst hlast ht.pos (width_eq n) hdvd

lemma windowTimes_pairwise {targetMs : ℕ} (hpos : 0 < targetMs) (window : Option (ℤ × ℤ)) :
    (windowTimes targetMs window).Pairwise (· < ·) := by
  cases window with
  | none => exact List.Pairwise.nil
  | some window => exact progression_pairwise (Int.natCast_pos.mpr hpos)

omit [Number F] in
/-- The times of the window are multiples of the interval. -/
lemma dvd_of_mem_windowTimes {targetMs : ℕ} (hpos : 0 < targetMs) {t : ℤ}
    (h : t ∈ windowTimes targetMs (windowOf base targetMs)) : (targetMs : ℤ) ∣ t := by
  unfold windowOf at h
  split at h
  · dsimp only at h
    split at h
    · cases h
    · obtain ⟨hdvd, -⟩ := (mem_progression (Int.natCast_pos.mpr hpos)).mp h
      exact (dvd_sub_left dvd_ceilTo).mp hdvd
  · cases h

/-- **Without gaps, the parents are those of the window.** -/
theorem aggregateCandles_eq (ht : Target interval n) (h : Contiguous base) (hpolicy : SupportedPolicy ohlcPolicy) :
    aggregateCandles base interval ohlcPolicy =
      parentsAt base (n * 300000) ohlcPolicy (windowTimes (n * 300000) (windowOf base (n * 300000))) := by
  have hpos : 0 < n * 300000 := by
    have := ht.pos
    omega
  have hbase : intervalToMs "5m" = .ok 300000 := by decide
  have hexpected : n * 300000 / 300000 = n := by omega
  have hbuilds : (0 < n && n * 300000 % 300000 = 0) = true := by
    rw [Bool.and_eq_true, decide_eq_true_eq, decide_eq_true_eq]
    exact ⟨ht.pos, by omega⟩
  have hsupported : (ohlcPolicy = "standard" || ohlcPolicy = "okx_native") = true := by
    rw [Bool.or_eq_true, decide_eq_true_eq, decide_eq_true_eq]
    exact hpolicy
  have hrows : ∀ t, dedupeCandles (level (bucketOf (n * 300000)) t base) = level (bucketOf (n * 300000)) t base :=
    fun t => dedupeCandles_of_increasing (h.increasing.filter _)
  obtain ⟨hsorted, hsub, hcovers⟩ := byKey_spec (id : ℤ → ℤ) (base.map (bucketOf (n * 300000)))
  have htimes : ((byKey id (base.map (bucketOf (n * 300000)))).filter fun t =>
      (level (bucketOf (n * 300000)) t base).length = n) =
        windowTimes (n * 300000) (windowOf base (n * 300000)) := by
    refine (hsorted.filter _).ext (windowTimes_pairwise hpos _) fun t => ?_
    rw [List.mem_filter, decide_eq_true_eq]
    constructor
    · rintro ⟨ht', hfull⟩
      obtain ⟨row, -, rfl⟩ := List.mem_map.mp (hsub t ht')
      exact (length_bucket_iff ht h dvd_floorTo).mp hfull
    · intro hmem
      have hfull := (length_bucket_iff ht h (dvd_of_mem_windowTimes hpos hmem)).mpr hmem
      refine ⟨?_, hfull⟩
      obtain ⟨row, hrow⟩ := List.exists_mem_of_length_pos (hfull ▸ ht.pos)
      obtain ⟨hrow, hbucket⟩ := mem_level.mp hrow
      obtain ⟨z, hz, hkey⟩ := hcovers t (hbucket ▸ List.mem_map_of_mem hrow)
      rwa [← show z = t from hkey]
  rw [aggregateCandles, ht.width, ok_bind, hbase, ok_bind]
  dsimp only
  rw [hexpected, hbuilds, require_true, ok_bind, hsupported, require_true, ok_bind,
    dedupeCandles_of_increasing h.increasing, List.filter_map, parentsAt, ← htimes, List.mapM_map]
  simp only [Function.comp_def, hrows]

/-! ## The parents -/

/-- The rows that a policy selects: the ones with a volume, or all of them if none has one. -/
def selected (ohlcPolicy : String) (rows : List (Candle F)) : List (Candle F) :=
  if ohlcPolicy = "standard" ∨ (rows.filter fun row => 0 < row.volume) = [] then rows
  else rows.filter fun row => 0 < row.volume

/-- The rows of a parent. -/
def rowsOf (base : List (Candle F)) (targetMs t : ℤ) : List (Candle F) :=
  base.filter fun row => t ≤ row.openTimeMs && row.openTimeMs < t + targetMs

/-- The open of the first, the close of the last, the highest high and the lowest low of the selected rows, and the
total volume. -/
structure ParentOf (ohlcPolicy : String) (rows : List (Candle F)) (parent : Candle F) : Prop where
  openPrice : (selected ohlcPolicy rows).head?.map Candle.openPrice = some parent.openPrice
  high : maximum? ((selected ohlcPolicy rows).map Candle.high) = some parent.high
  low : minimum? ((selected ohlcPolicy rows).map Candle.low) = some parent.low
  closePrice : (selected ohlcPolicy rows).getLast?.map Candle.closePrice = some parent.closePrice
  volume : parent.volume = Number.sum (rows.map Candle.volume)

lemma ohlcRows_selected {rows ohlc : List (Candle F)} {t : ℤ} (h : ohlcRows t rows ohlcPolicy = .ok ohlc) :
    ohlc = selected ohlcPolicy rows := by
  unfold ohlcRows at h
  unfold selected
  by_cases hstandard : ohlcPolicy = "standard"
  · rw [if_pos hstandard] at h
    rw [if_pos (.inl hstandard)]
    exact (pure_eq_ok_iff.mp h).symm
  · rw [if_neg hstandard] at h
    cases htraded : rows.filter fun row => 0 < row.volume with
    | nil =>
        rw [htraded] at h
        rw [if_pos (.inr rfl)]
        cases rows with
        | nil => cases h
        | cons first rest =>
            obtain ⟨-, -, h⟩ := bind_eq_ok.mp h
            exact (pure_eq_ok_iff.mp h).symm
    | cons first rest =>
        rw [htraded] at h
        rw [if_neg (not_or.mpr ⟨hstandard, List.cons_ne_nil first rest⟩)]
        exact (pure_eq_ok_iff.mp h).symm

/-- What a parent is. -/
lemma aggregateParent_eq {rows : List (Candle F)} {t : ℤ} {parent : Candle F}
    (h : aggregateParent t rows ohlcPolicy = .ok parent) :
    parent.openTimeMs = t ∧ ParentOf ohlcPolicy rows parent := by
  obtain ⟨ohlc, hohlc, h⟩ := bind_eq_ok.mp h
  obtain ⟨first, hfirst, h⟩ := bind_eq_ok.mp h
  obtain ⟨high, hhigh, h⟩ := bind_eq_ok.mp h
  obtain ⟨low, hlow, h⟩ := bind_eq_ok.mp h
  obtain ⟨last, hlast, h⟩ := bind_eq_ok.mp h
  rw [pure_eq_ok_iff] at h
  subst h
  rw [orThrow_eq_ok] at hfirst hhigh hlow hlast
  obtain rfl := ohlcRows_selected hohlc
  exact ⟨rfl, by rw [hfirst]; rfl, hhigh, hlow, by rw [hlast]; rfl, rfl⟩

omit [Number F] in
/-- A bucket is the rows from its start, as long as the interval. -/
lemma bucket_eq_rowsOf {targetMs : ℕ} (hpos : 0 < targetMs) {t : ℤ} (hdvd : (targetMs : ℤ) ∣ t)
    (base : List (Candle F)) : level (bucketOf targetMs) t base = rowsOf base targetMs t := by
  refine List.filter_congr fun row _ => ?_
  rw [← Bool.decide_and]
  exact decide_eq_decide.mpr (floorTo_eq_iff (Int.natCast_pos.mpr hpos) hdvd)

/-- Each of the parents is the one of its time. -/
lemma parentsAt_spec {targetMs : ℕ} {times : List ℤ} {parents : List (Candle F)}
    (h : parentsAt base targetMs ohlcPolicy times = .ok parents) : parents.map Candle.openTimeMs = times ∧
      ∀ parent ∈ parents,
        aggregateParent parent.openTimeMs (level (bucketOf targetMs) parent.openTimeMs base) ohlcPolicy = .ok parent := by
  have hall := forall₂_of_mapM_eq_ok h
  clear h
  induction hall with
  | nil => exact ⟨rfl, fun parent hparent => absurd hparent List.not_mem_nil⟩
  | cons hfirst _ ih =>
      obtain ⟨rfl, -⟩ := aggregateParent_eq hfirst
      rw [List.map_cons, ih.1, List.forall_mem_cons]
      exact ⟨rfl, hfirst, ih.2⟩

omit [Number F] in
/-- A full bucket of a piece is the bucket. -/
lemma bucket_of_piece (ht : Target interval n) (hbase : Contiguous base) (hsub : sub <:+: base) {t : ℤ}
    (hmem : t ∈ windowTimes (n * 300000) (windowOf sub (n * 300000))) :
    level (bucketOf (n * 300000)) t sub = level (bucketOf (n * 300000)) t base ∧
      t ∈ windowTimes (n * 300000) (windowOf base (n * 300000)) := by
  have hpos : 0 < n * 300000 := by
    have := ht.pos
    omega
  have hdvd := dvd_of_mem_windowTimes hpos hmem
  have hfull := (length_bucket_iff ht (hbase.piece hsub) hdvd).mpr hmem
  have hsublist : (level (bucketOf (n * 300000)) t sub).Sublist (level (bucketOf (n * 300000)) t base) :=
    hsub.sublist.filter _
  -- no bucket has more rows than a full one
  have hle : (level (bucketOf (n * 300000)) t base).length ≤ n := by
    have hsubset := OnGrid.bucket_subset baseMs_pos hbase (width_eq n) (Int.natCast_pos.mpr hpos) hdvd
    have hnodup : ((level (bucketOf (n * 300000)) t base).map Candle.openTimeMs).Nodup :=
      (List.pairwise_map.mpr (hbase.increasing.filter _)).imp fun hlt => hlt.ne
    have hlength := (hnodup.subperm hsubset).length_le
    rwa [length_progression baseMs_pos ht.pos, List.length_map] at hlength
  have heq := hsublist.eq_of_length (le_antisymm hsublist.length_le (hle.trans hfull.ge))
  rw [heq] at hfull
  exact ⟨heq, (length_bucket_iff ht hbase hdvd).mp hfull⟩

/-- Parents that all exist, for some of the times. -/
lemma parentsAt_filter {targetMs : ℕ} {times : List ℤ} {parents : List (Candle F)} (p : ℤ → Bool)
    (h : parentsAt base targetMs ohlcPolicy times = .ok parents) :
    parentsAt base targetMs ohlcPolicy (times.filter p) = .ok (parents.filter fun parent => p parent.openTimeMs) := by
  have hall := forall₂_of_mapM_eq_ok h
  clear h
  induction hall with
  | nil => rfl
  | @cons t parent times parents hfirst _ ih =>
      obtain ⟨rfl, -⟩ := aggregateParent_eq hfirst
      by_cases hp : p parent.openTimeMs = true
      · rw [List.filter_cons, List.filter_cons, if_pos hp, if_pos hp, parentsAt, List.mapM_cons, hfirst, ok_bind]
        rw [parentsAt] at ih
        rw [ih]
        rfl
      · rw [List.filter_cons, List.filter_cons, if_neg hp, if_neg hp]
        exact ih

lemma parentsAt_congr (ohlcPolicy : String) {targetMs : ℕ} {times : List ℤ}
    (h : ∀ t ∈ times, level (bucketOf targetMs) t sub = level (bucketOf targetMs) t base) :
    parentsAt sub targetMs ohlcPolicy times = parentsAt base targetMs ohlcPolicy times := by
  induction times with
  | nil => rfl
  | cons t times ih =>
      have hrest := ih fun t' ht' => h t' (List.mem_cons_of_mem t ht')
      rw [parentsAt] at hrest ⊢
      rw [parentsAt, List.mapM_cons, List.mapM_cons, h t List.mem_cons_self, hrest]
      rfl

/-- The aggregation of candles without gaps: the parents of the window, each made of the rows of its time, and for each
piece of the candles the parents of its window. -/
structure Aggregated (base : List (Candle F)) (interval ohlcPolicy : String) (n : ℕ) (parents : List (Candle F)) :
    Prop where
  times : ∃ window, completeParentWindow base interval = .ok window ∧
    parents.map Candle.openTimeMs = windowTimes (n * 300000) window
  parent : ∀ parent ∈ parents, (rowsOf base (n * 300000) parent.openTimeMs).length = n ∧
    ParentOf ohlcPolicy (rowsOf base (n * 300000) parent.openTimeMs) parent
  pieces : ∀ sub, sub <:+: base → ∃ window, completeParentWindow sub interval = .ok window ∧
    aggregateCandles sub interval ohlcPolicy = .ok (parents.filter (inParentWindow window))

omit [Number F] in
/-- The times of a window are those in it that are multiples of the interval. -/
lemma mem_windowTimes_iff {targetMs : ℕ} (hpos : 0 < targetMs) (base : List (Candle F)) {candle : Candle F}
    (hdvd : (targetMs : ℤ) ∣ candle.openTimeMs) :
    candle.openTimeMs ∈ windowTimes targetMs (windowOf base targetMs) ↔
      inParentWindow (windowOf base targetMs) candle = true := by
  have hdvd' : ∀ first last, windowOf base targetMs = some (first, last) → (targetMs : ℤ) ∣ first := by
    intro first last hwindow
    unfold windowOf at hwindow
    split at hwindow
    · dsimp only at hwindow
      split at hwindow
      · cases hwindow
      · cases hwindow
        exact dvd_ceilTo
    · cases hwindow
  cases hwindow : windowOf base targetMs with
  | none => exact iff_of_false List.not_mem_nil Bool.false_ne_true
  | some window =>
      obtain ⟨first, last⟩ := window
      rw [windowTimes, mem_progression (Int.natCast_pos.mpr hpos), inParentWindow, Bool.and_eq_true, decide_eq_true_eq,
        decide_eq_true_eq]
      exact and_iff_right (dvd_sub hdvd (hdvd' first last hwindow))

/-- The aggregation to a parent interval. -/
lemma aggregated (ht : Target interval n) (hbase : Contiguous base) (hpolicy : SupportedPolicy ohlcPolicy)
    {parents : List (Candle F)} (h : aggregateCandles base interval ohlcPolicy = .ok parents) :
    Aggregated base interval ohlcPolicy n parents := by
  have hpos : 0 < n * 300000 := by
    have := ht.pos
    omega
  rw [aggregateCandles_eq ht hbase hpolicy] at h
  obtain ⟨htimes, hparents⟩ := parentsAt_spec h
  have hmem : ∀ parent ∈ parents, parent.openTimeMs ∈ windowTimes (n * 300000) (windowOf base (n * 300000)) :=
    fun parent hparent => htimes ▸ List.mem_map_of_mem hparent
  have hrows : ∀ parent ∈ parents, level (bucketOf (n * 300000)) parent.openTimeMs base =
      rowsOf base (n * 300000) parent.openTimeMs := by
    intro parent hparent
    rw [bucket_eq_rowsOf hpos (dvd_of_mem_windowTimes hpos (hmem parent hparent))]
    push_cast
    rfl
  refine ⟨⟨_, completeParentWindow_eq ht hbase, htimes⟩, fun parent hparent => ?_, fun sub hsub => ?_⟩
  · rw [← hrows parent hparent]
    have hdvd := dvd_of_mem_windowTimes hpos (hmem parent hparent)
    exact ⟨(length_bucket_iff ht hbase hdvd).mpr (hmem parent hparent), (aggregateParent_eq (hparents parent hparent)).2⟩
  · have hpiece := hbase.piece hsub
    refine ⟨_, completeParentWindow_eq ht hpiece, ?_⟩
    -- the times of the piece are those of the whole that are in its window
    have hfilter : (windowTimes (n * 300000) (windowOf base (n * 300000))).filter
        (fun t => t ∈ windowTimes (n * 300000) (windowOf sub (n * 300000))) =
          windowTimes (n * 300000) (windowOf sub (n * 300000)) := by
      have hsorted : Increasing id (windowTimes (n * 300000) (windowOf base (n * 300000))) := windowTimes_pairwise hpos _
      refine (hsorted.filter _).ext (windowTimes_pairwise hpos _) fun t => ?_
      rw [List.mem_filter, decide_eq_true_eq]
      exact and_iff_right_of_imp fun hmem => (bucket_of_piece ht hbase hsub hmem).2
    have hkept := parentsAt_filter (fun t => decide (t ∈ windowTimes (n * 300000) (windowOf sub (n * 300000)))) h
    rw [hfilter] at hkept
    have hbuckets := parentsAt_congr ohlcPolicy fun t hmem => (bucket_of_piece ht hbase hsub hmem).1
    rw [aggregateCandles_eq ht hpiece hpolicy, hbuckets, hkept]
    refine congrArg Except.ok (List.filter_congr fun parent hparent => ?_)
    rw [Bool.eq_iff_iff, decide_eq_true_eq]
    exact mem_windowTimes_iff hpos sub (dvd_of_mem_windowTimes hpos (hmem parent hparent))

/-- An aggregation that returns has a supported policy. -/
lemma supportedPolicy_of_ok {parents : List (Candle F)} (h : aggregateCandles base interval ohlcPolicy = .ok parents) :
    SupportedPolicy ohlcPolicy := by
  obtain ⟨targetMs, _, h⟩ := bind_eq_ok.mp h
  obtain ⟨baseMs, _, h⟩ := bind_eq_ok.mp h
  obtain ⟨_, _, h⟩ := bind_eq_ok.mp h
  obtain ⟨_, hpolicy, _⟩ := bind_eq_ok.mp h
  rw [require_eq_ok, Bool.or_eq_true, decide_eq_true_eq, decide_eq_true_eq] at hpolicy
  exact hpolicy

/-- **Aggregation is exact on complete windows and commutes with windowing.** -/
theorem aggregation_exact {parents : List (Candle F)} (hbase : Contiguous base)
    (hinterval : interval = "15m" ∨ interval = "1h") (h : aggregateCandles base interval ohlcPolicy = .ok parents) :
    Aggregated base interval ohlcPolicy (if interval = "15m" then 3 else 12) parents := by
  rcases hinterval with rfl | rfl
  · exact aggregated target_quarter hbase (supportedPolicy_of_ok h) h
  · exact aggregated target_hour hbase (supportedPolicy_of_ok h) h

end contiguous

/-! ## Five candles -/

/-- Five candles from 00:10 on. The second has no volume. -/
def demoBase : List (Candle ℚ) :=
  [⟨600000, 1, 1, 1, 1, 5⟩, ⟨900000, 1, 9, 1, 1, 0⟩, ⟨1200000, 2, 4, 1, 3, 6⟩, ⟨1500000, 3, 5, 2, 4, 7⟩,
    ⟨1800000, 4, 4, 4, 4, 8⟩]

lemma demoBase_contiguous : Contiguous demoBase where
  aligned := by decide
  steps := by decide

/-- They have one full quarter, from 00:15 on. -/
theorem aggregation_exact_demo : Aggregated demoBase "15m" "okx_native" 3 [⟨900000, 2, 5, 1, 4, 13⟩] :=
  aggregation_exact demoBase_contiguous (.inl rfl) (by decide +kernel)

end MuStrategy.TrustedData
