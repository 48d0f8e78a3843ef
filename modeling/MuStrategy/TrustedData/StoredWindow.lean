import MuStrategy.TrustedData.Evaluate

/-!
# A window of what is stored

A window cuts a piece out of the candles that are stored. If what is stored is fine, so is every window of it.

* `Stored`, `stored_of_physical` — what physical validation establishes: valid candles, and parents that are the ones of
  the base.
* `window_nonempty` — a window of at least a day has full buckets.
* `Windowed`, `Stored.windowed` — the same of the candles of a window.
-/

namespace MuStrategy.TrustedData

open Lib

variable {F : Type} [Number F] [FloatChecks F]

/-! ## What is stored -/

/-- The parent intervals of a bundle. -/
inductive Parent : String → ℕ → Prop
  | quarter : Parent "15m" 3
  | hour : Parent "1h" 12

lemma Parent.target {interval : String} {n : ℕ} (h : Parent interval n) : Target interval n := by
  cases h
  · exact target_quarter
  · exact target_hour

lemma width_base : intervalToMs "5m" = .ok 300000 := by decide

/-- Stored candles that are fine: valid ones of the base, and valid parents that are the ones of the base. -/
structure Stored (five : List (Candle F)) (native : String → List (Candle F)) : Prop where
  base : ValidCandles five 300000
  parents : ∀ interval n, Parent interval n → ValidCandles (native interval) (n * 300000) ∧
    ∃ built, aggregateCandles five interval "okx_native" = .ok built ∧
      SameParents built ((native interval).filter (inParentWindow (windowOf five (n * 300000)))) (n * 300000)

section stored

variable {raw : String → List (Candle F)} {intervals : List String} {reports reports' : Reports F}
  {five native : List (Candle F)} {interval : String} {n : ℕ}

/-- The reports on the candles of the intervals. -/
lemma normalizeBundle_spec (h : normalizeBundle raw intervals = .ok reports) (interval : String) :
    (interval ∈ intervals → ∃ result, normalizeAndValidateCandles (raw interval) interval = .ok result ∧
      reports interval = some result) ∧ (interval ∉ intervals → reports interval = none) := by
  induction intervals generalizing reports with
  | nil =>
      obtain rfl := pure_eq_ok_iff.mp h
      exact ⟨fun hmem => absurd hmem List.not_mem_nil, fun _ => rfl⟩
  | cons first intervals ih =>
      obtain ⟨result, hresult, h⟩ := bind_eq_ok.mp h
      obtain ⟨rest, hrest, h⟩ := bind_eq_ok.mp h
      obtain rfl := pure_eq_ok_iff.mp h
      by_cases heq : interval = first
      · subst heq
        exact ⟨fun _ => ⟨result, hresult, Function.update_self _ _ _⟩, fun hnot => absurd List.mem_cons_self hnot⟩
      · rw [Function.update_of_ne heq, List.mem_cons, or_iff_right heq]
        exact ih hrest

omit [FloatChecks F] in
/-- The parents that are built from valid candles are in their window. -/
lemma clip_built {built : List (Candle F)} (ht : Target interval n) (hbase : Contiguous five)
    (h : aggregateCandles five interval "okx_native" = .ok built) :
    Increasing Candle.openTimeMs built ∧ built.map Candle.openTimeMs = windowTimes (n * 300000) (windowOf five (n * 300000)) ∧
      clipParentCandlesToCompleteBaseWindow built five interval = .ok built := by
  have hpos : 0 < n * 300000 := by
    have := ht.pos
    omega
  obtain ⟨window, hwindow, htimes⟩ := (aggregated ht hbase (.inr rfl) h).times
  obtain rfl := Except.ok.inj ((completeParentWindow_eq ht hbase).symm.trans hwindow)
  have hincreasing : Increasing Candle.openTimeMs built := by
    have hsorted := windowTimes_pairwise hpos (windowOf five (n * 300000))
    rwa [← htimes, List.pairwise_map] at hsorted
  refine ⟨hincreasing, htimes, ?_⟩
  rw [clipParentCandlesToCompleteBaseWindow, hwindow, ok_bind, dedupeCandles_of_increasing hincreasing]
  refine congrArg Except.ok (List.filter_eq_self.mpr fun candle hcandle => ?_)
  have hmem : candle.openTimeMs ∈ windowTimes (n * 300000) (windowOf five (n * 300000)) :=
    htimes ▸ List.mem_map_of_mem hcandle
  exact (mem_windowTimes_iff hpos five (dvd_of_mem_windowTimes hpos hmem)).mp hmem

/-- **A comparison of valid candles** with native ones that are in order. -/
lemma builtNativeReport_eq {built : List (Candle F)} (ht : Target interval n) (hbase : Contiguous five)
    (hnative : Increasing Candle.openTimeMs native) (h : aggregateCandles five interval "okx_native" = .ok built) :
    ∃ report, builtNativeReport five native interval =
        .ok (native.filter (inParentWindow (windowOf five (n * 300000))), report) ∧
      (report.ok = true ↔
        SameParents built (native.filter (inParentWindow (windowOf five (n * 300000)))) (n * 300000)) := by
  have hpos : n * 300000 ≠ 0 := by
    have := ht.pos
    omega
  have hclip : clipParentCandlesToCompleteBaseWindow native five interval =
      .ok (native.filter (inParentWindow (windowOf five (n * 300000)))) := by
    rw [clipParentCandlesToCompleteBaseWindow, completeParentWindow_eq ht hbase, ok_bind,
      dedupeCandles_of_increasing hnative]
    rfl
  obtain ⟨report, hreport, hok⟩ := validateBuiltNativeCandles_ok built
    (native.filter (inParentWindow (windowOf five (n * 300000)))) ht.width hpos
  refine ⟨report, ?_, hok⟩
  rw [builtNativeReport, h]
  dsimp only
  rw [(clip_built ht hbase h).2.2, ok_bind, hclip, ok_bind, hreport]
  rfl

/-- A parent interval that is fine after the comparison. -/
lemma comparePhysical_spec (h : comparePhysical five reports interval = .ok reports') :
    (∀ other, other ≠ interval → reports' other = reports other) ∧
      ∀ compared report, reports' interval = some (compared, report) → report.ok = true →
        ∃ native before, reports interval = some (native, before) ∧ before.ok = true ∧
          builtNativeReport five native interval = .ok (compared, report) := by
  unfold comparePhysical at h
  cases hreport : reports interval with
  | none =>
      rw [hreport] at h
      obtain rfl := pure_eq_ok_iff.mp h
      refine ⟨fun _ _ => rfl, fun compared report hsome => ?_⟩
      rw [hreport] at hsome
      cases hsome
  | some entry =>
      obtain ⟨native, before⟩ := entry
      rw [hreport] at h
      dsimp only at h
      by_cases hok : before.ok = true
      · rw [if_pos hok] at h
        obtain ⟨⟨compared, report⟩, hcompared, h⟩ := bind_eq_ok.mp h
        obtain rfl := pure_eq_ok_iff.mp h
        refine ⟨fun other hne => Function.update_of_ne hne _ _, fun compared' report' hsome _ => ?_⟩
        rw [Function.update_self] at hsome
        obtain ⟨rfl, rfl⟩ := Prod.mk.inj (Option.some.inj hsome)
        exact ⟨native, before, rfl, hok, hcompared⟩
      · rw [if_neg hok] at h
        obtain rfl := pure_eq_ok_iff.mp h
        refine ⟨fun _ _ => rfl, fun compared report hsome hreport' => ?_⟩
        rw [hreport] at hsome
        obtain ⟨-, rfl⟩ := Prod.mk.inj (Option.some.inj hsome)
        exact absurd hreport' hok

omit [Number F] [FloatChecks F] in
lemma blockPhysical_of_ne {base : ValidationReport F} {other : String} (hne : other ≠ interval) :
    blockPhysical base reports interval other = reports other := by
  unfold blockPhysical
  cases reports interval with
  | none => rfl
  | some entry =>
      dsimp only
      by_cases hok : entry.2.ok = true
      · rw [if_pos hok, Function.update_of_ne hne]
      · rw [if_neg hok]

/-- **Physical validation** of a bundle that is fine. -/
lemma stored_of_physical (hintervals : ∀ i, i ∈ intervals ↔ i = "5m" ∨ i = "15m" ∨ i = "1h")
    (h : validatePhysicalCandleBundle intervals raw = .ok reports)
    (hok : ∀ i ∈ intervals, ∃ entry, reports i = some entry ∧ entry.2.ok = true) :
    Stored (dedupeCandles (raw "5m")) fun i => dedupeCandles (raw i) := by
  obtain ⟨reports₀, hreports₀, h⟩ := bind_eq_ok.mp h
  have hspec := normalizeBundle_spec hreports₀
  obtain ⟨result, hresult, hfive⟩ := (hspec "5m").1 ((hintervals "5m").mpr (.inl rfl))
  obtain ⟨report, hnormalized, hvalid⟩ := normalizeAndValidateCandles_ok (raw "5m") width_base (by decide)
  obtain rfl := Except.ok.inj (hnormalized.symm.trans hresult)
  rw [hfive] at h
  dsimp only at h
  by_cases hreport : report.ok = true
  · have hbase := hvalid.mp hreport
    obtain ⟨first, rest, hcons⟩ := List.exists_cons_of_ne_nil hbase.ne
    have hnonempty : (dedupeCandles (raw "5m")).isEmpty = false := by
      rw [hcons]
      rfl
    rw [hreport, hnonempty] at h
    obtain ⟨reports₁, hreports₁, h⟩ := bind_eq_ok.mp h
    obtain ⟨reports₂, hreports₂, h⟩ := bind_eq_ok.mp h
    obtain rfl := pure_eq_ok_iff.mp h
    obtain ⟨hkeep₁, hcompare₁⟩ := comparePhysical_spec hreports₁
    obtain ⟨hkeep₂, hcompare₂⟩ := comparePhysical_spec hreports₂
    refine ⟨hbase, fun interval n hparent => ?_⟩
    have hpos : n * 300000 ≠ 0 := by
      have := hparent.target.pos
      omega
    -- the report of the interval comes from its comparison
    obtain ⟨native, before, compared, report', hbefore, hbeforeOk, hreport', hcompared⟩ : ∃ native before compared report',
        reports₀ interval = some (native, before) ∧ before.ok = true ∧ report'.ok = true ∧
          builtNativeReport (dedupeCandles (raw "5m")) native interval = .ok (compared, report') := by
      cases hparent with
      | quarter =>
          obtain ⟨⟨compared, report'⟩, hentry, hentryOk⟩ := hok "15m" ((hintervals _).mpr (.inr (.inl rfl)))
          rw [hkeep₂ "15m" (by decide)] at hentry
          obtain ⟨native, before, hbefore, hbeforeOk, hcompared⟩ := hcompare₁ compared report' hentry hentryOk
          exact ⟨native, before, compared, report', hbefore, hbeforeOk, hentryOk, hcompared⟩
      | hour =>
          obtain ⟨⟨compared, report'⟩, hentry, hentryOk⟩ := hok "1h" ((hintervals _).mpr (.inr (.inr rfl)))
          obtain ⟨native, before, hbefore, hbeforeOk, hcompared⟩ := hcompare₂ compared report' hentry hentryOk
          rw [hkeep₁ "1h" (by decide)] at hbefore
          exact ⟨native, before, compared, report', hbefore, hbeforeOk, hentryOk, hcompared⟩
    have hmem : interval ∈ intervals := by
      refine (hintervals interval).mpr ?_
      cases hparent
      · exact .inr (.inl rfl)
      · exact .inr (.inr rfl)
    obtain ⟨result, hresult, hentry⟩ := (hspec interval).1 hmem
    obtain ⟨report'', hnormalized, hvalid'⟩ :=
      normalizeAndValidateCandles_ok (raw interval) hparent.target.width hpos
    obtain rfl := Except.ok.inj (hnormalized.symm.trans hresult)
    rw [hentry] at hbefore
    obtain ⟨rfl, rfl⟩ := Prod.mk.inj (Option.some.inj hbefore)
    refine ⟨hvalid'.mp hbeforeOk, ?_⟩
    cases hbuilt : aggregateCandles (dedupeCandles (raw "5m")) interval "okx_native" with
    | error error =>
        rw [builtNativeReport, hbuilt] at hcompared
        obtain ⟨-, rfl⟩ := Prod.mk.inj (pure_eq_ok_iff.mp hcompared)
        cases hreport'
    | ok built =>
        obtain ⟨report₃, hreport₃, hsame⟩ := builtNativeReport_eq hparent.target hbase.grid
          (byKey_spec Candle.openTimeMs (raw interval)).1 hbuilt
        obtain ⟨rfl, rfl⟩ := Prod.mk.inj (Except.ok.inj (hreport₃.symm.trans hcompared))
        exact ⟨built, rfl, hsame.mp hreport'⟩
  · -- the report on the base stays as it is
    rw [Bool.not_eq_true] at hreport
    rw [hreport] at h
    obtain rfl := pure_eq_ok_iff.mp h
    obtain ⟨entry, hentry, hentryOk⟩ := hok "5m" ((hintervals "5m").mpr (.inl rfl))
    rw [List.foldl_cons, List.foldl_cons, List.foldl_nil, blockPhysical_of_ne (by decide),
      blockPhysical_of_ne (by decide), hfive] at hentry
    obtain rfl := Option.some.inj hentry
    exact absurd hentryOk (by simp [hreport])

end stored

/-! ## A window -/

/-- The candles of some days up to a time. -/
def cut (candles : List (Candle F)) (days time : ℤ) : List (Candle F) :=
  candles.filter fun bar => time - days * dayMs ≤ bar.openTimeMs && bar.openTimeMs ≤ time

section window

variable {five candles : List (Candle F)} {native : String → List (Candle F)} {interval : String} {n : ℕ}
  {newest : Candle F} {days time : ℤ}

omit [Number F] [FloatChecks F] in
lemma mem_cut {bar : Candle F} : bar ∈ cut candles days time ↔
    bar ∈ candles ∧ time - days * dayMs ≤ bar.openTimeMs ∧ bar.openTimeMs ≤ time := by
  rw [cut, List.mem_filter, Bool.and_eq_true, decide_eq_true_eq, decide_eq_true_eq]

omit [Number F] [FloatChecks F] in
lemma cut_piece (h : Increasing Candle.openTimeMs candles) (days time : ℤ) : cut candles days time <:+: candles :=
  h.filter_piece _ _

omit [Number F] [FloatChecks F] in
/-- The newest candle ends its window. -/
lemma cut_getLast (hdays : 0 ≤ days) (hnewest : candles.getLast? = some newest) :
    (cut candles days newest.openTimeMs).getLast? = some newest := by
  rcases List.eq_nil_or_concat candles with rfl | ⟨init, y, rfl⟩
  · cases hnewest
  · rw [List.concat_eq_append] at hnewest ⊢
    obtain rfl := Option.some.inj (List.getLast?_concat.symm.trans hnewest)
    have hkept : (decide (y.openTimeMs - days * dayMs ≤ y.openTimeMs) && decide (y.openTimeMs ≤ y.openTimeMs)) = true := by
      rw [Bool.and_eq_true, decide_eq_true_eq, decide_eq_true_eq]
      have : 0 ≤ days * dayMs := mul_nonneg hdays (by decide)
      omega
    rw [cut, List.filter_append, List.filter_cons, if_pos hkept, List.filter_nil, List.getLast?_concat]

omit [Number F] [FloatChecks F] in
/-- **A window of at least a day has full buckets**, if there are any. -/
lemma window_nonempty (ht : Target interval n) (hn : n ≤ 12) (hbase : Contiguous five)
    (hnewest : five.getLast? = some newest) (hdays : 1 ≤ days)
    (hfull : windowTimes (n * 300000) (windowOf five (n * 300000)) ≠ []) :
    windowTimes (n * 300000) (windowOf (cut five days newest.openTimeMs) (n * 300000)) ≠ [] := by
  have hne : five ≠ [] := by
    rintro rfl
    cases hnewest
  obtain ⟨oldest, newest', holdest, hnewest'⟩ := exists_ends hne
  obtain rfl := Option.some.inj (hnewest.symm.trans hnewest')
  have hlast := cut_getLast (by omega : 0 ≤ days) hnewest
  have hcut : cut five days newest.openTimeMs ≠ [] := by
    intro hnil
    rw [hnil] at hlast
    cases hlast
  obtain ⟨first, last, hfirst, hlast'⟩ := exists_ends hcut
  obtain rfl := Option.some.inj (hlast.symm.trans hlast')
  by_cases hshort : newest.openTimeMs - days * dayMs ≤ oldest.openTimeMs
  · -- all candles are in the window
    have hall : cut five days newest.openTimeMs = five := by
      refine List.filter_eq_self.mpr fun bar hbar => ?_
      rw [Bool.and_eq_true, decide_eq_true_eq, decide_eq_true_eq]
      exact ⟨hshort.trans (hbase.increasing.head_le holdest hbar), hbase.increasing.le_getLast hnewest hbar⟩
    rwa [hall]
  · -- the first bucket that starts in the last day is in the window
    have hpos : 0 < ((n * 300000 : ℕ) : ℤ) := by
      have := ht.pos
      omega
    have hday : newest.openTimeMs - days * dayMs ≤ newest.openTimeMs - dayMs := by
      have : dayMs ≤ days * dayMs := le_mul_of_one_le_left (by decide) hdays
      omega
    have hlower := le_ceilTo (t := newest.openTimeMs - dayMs) hpos
    have hupper := ceilTo_lt_add (t := newest.openTimeMs - dayMs) hpos
    set t := ceilTo ((n * 300000 : ℕ) : ℤ) (newest.openTimeMs - dayMs) with ht'
    have hwidth : ((n * 300000 : ℕ) : ℤ) ≤ 3600000 := by omega
    have hdvd : ((n * 300000 : ℕ) : ℤ) ∣ t := dvd_ceilTo
    rw [dayMs] at hlower hupper
    have hin : t ∈ five.map Candle.openTimeMs := by
      refine (hbase.mem_keys baseMs_pos (by rw [holdest]; rfl) (by rw [hnewest]; rfl) t).mpr ⟨?_, ?_, ?_⟩
      · exact (Dvd.intro_left (n : ℤ) (width_eq n).symm).trans hdvd
      · rw [dayMs] at hday hshort
        omega
      · omega
    obtain ⟨bar, hbar, hkey⟩ := List.mem_map.mp hin
    have hbar' : bar ∈ cut five days newest.openTimeMs := by
      refine mem_cut.mpr ⟨hbar, ?_, ?_⟩
      · rw [dayMs] at hday
        rw [hkey, dayMs]
        omega
      · rw [hkey]
        omega
    have hfirst' := (hbase.increasing.filter _).head_le hfirst hbar'
    refine List.ne_nil_of_mem ((mem_windowTimes ht hfirst hlast t).mpr ⟨hdvd, hkey ▸ hfirst', ?_⟩)
    rw [baseMs]
    omega

/-- The times of a parent window. -/
def inWindow (window : Option (ℤ × ℤ)) (t : ℤ) : Bool := window.any fun w => w.1 ≤ t && t ≤ w.2

omit [Number F] [FloatChecks F] in
lemma inParentWindow_eq (window : Option (ℤ × ℤ)) :
    inParentWindow window = fun candle : Candle F => inWindow window candle.openTimeMs := by
  funext candle
  cases window <;> rfl

omit [Number F] [FloatChecks F] in
/-- A parent window lies between the first and the last candle. -/
lemma inParentWindow_bounds (ht : Target interval n) {oldest candle : Candle F} (holdest : five.head? = some oldest)
    (hnewest : five.getLast? = some newest) (h : inParentWindow (windowOf five (n * 300000)) candle = true) :
    oldest.openTimeMs ≤ candle.openTimeMs ∧ candle.openTimeMs ≤ newest.openTimeMs := by
  have hpos : 0 < ((n * 300000 : ℕ) : ℤ) := by
    have := ht.pos
    omega
  rw [windowOf, holdest, hnewest] at h
  dsimp only at h
  split at h
  · cases h
  · rw [inParentWindow, Bool.and_eq_true, decide_eq_true_eq, decide_eq_true_eq] at h
    have hwidth := Int.le_of_dvd hpos (Dvd.intro_left (n : ℤ) (width_eq n).symm)
    have hlower := le_ceilTo (t := oldest.openTimeMs) hpos
    have hupper := floorTo_le (t := newest.openTimeMs - (((n * 300000 : ℕ) : ℤ) - baseMs)) hpos
    omega

omit [Number F] [FloatChecks F] in
/-- The parents that are compared in a window: the native ones that its base can build. -/
lemma clip_cut (ht : Target interval n) (hfive : Contiguous five) (hnewest : five.getLast? = some newest)
    (hdays : 0 ≤ days) (hnative : Increasing Candle.openTimeMs candles) :
    clipParentCandlesToCompleteBaseWindow (cut candles days newest.openTimeMs) (cut five days newest.openTimeMs) interval =
      .ok (candles.filter (inParentWindow (windowOf (cut five days newest.openTimeMs) (n * 300000)))) := by
  have hcut := hfive.piece (cut_piece hfive.increasing days newest.openTimeMs)
  have hlast := cut_getLast hdays hnewest
  have hsorted : dedupeCandles (cut candles days newest.openTimeMs) = cut candles days newest.openTimeMs :=
    dedupeCandles_of_increasing (hnative.filter _)
  rw [clipParentCandlesToCompleteBaseWindow, completeParentWindow_eq ht hcut, ok_bind, hsorted]
  refine congrArg Except.ok (List.filter_filter.trans (List.filter_congr fun candle _ => ?_))
  rw [Bool.and_eq_left_iff_imp]
  intro hin
  have hne : cut five days newest.openTimeMs ≠ [] := by
    intro hnil
    rw [hnil] at hlast
    cases hlast
  obtain ⟨oldest, last, hfirst, hlast'⟩ := exists_ends hne
  obtain ⟨hlower, hupper⟩ := inParentWindow_bounds ht hfirst hlast hin
  obtain ⟨-, hstart, -⟩ := mem_cut.mp (List.mem_of_head? hfirst)
  rw [Bool.and_eq_true, decide_eq_true_eq, decide_eq_true_eq]
  exact ⟨hstart.trans hlower, hupper⟩

/-- The candles of a window that are fine: valid ones of the base, and valid parents that the base builds. -/
structure Windowed (five : List (Candle F)) (native : List (Candle F)) (interval : String) (n : ℕ) : Prop where
  valid : ValidCandles native (n * 300000)
  clipped : native.filter (inParentWindow (windowOf five (n * 300000))) = native
  built : ∃ built, aggregateCandles five interval "okx_native" = .ok built ∧ SameParents built native (n * 300000) ∧
    native.map Candle.openTimeMs = built.map Candle.openTimeMs

/-- **A window of candles that are fine is fine.** -/
lemma Stored.windowed (h : Stored five native) (hparent : Parent interval n) (hnewest : five.getLast? = some newest)
    (hdays : 1 ≤ days) :
    Windowed (cut five days newest.openTimeMs)
      ((native interval).filter (inParentWindow (windowOf (cut five days newest.openTimeMs) (n * 300000)))) interval n := by
  have ht := hparent.target
  have hn : n ≤ 12 := by cases hparent <;> omega
  have hpos : 0 < n * 300000 := by
    have := ht.pos
    omega
  obtain ⟨hvalid, built, hbuilt, hsame⟩ := h.parents interval n hparent
  have hfive : Contiguous five := h.base.grid
  have hnative : Increasing Candle.openTimeMs (native interval) :=
    hvalid.grid.increasing (Int.natCast_pos.mpr hpos)
  have hsub : cut five days newest.openTimeMs <:+: five :=
    cut_piece hfive.increasing days newest.openTimeMs
  obtain ⟨hincreasing, htimes, -⟩ := clip_built ht hfive hbuilt
  -- the window has full buckets
  have hfull : windowTimes (n * 300000) (windowOf (cut five days newest.openTimeMs) (n * 300000)) ≠ [] := by
    refine window_nonempty ht hn hfive hnewest hdays fun hnil => hsame.ne ?_
    rw [hnil] at htimes
    exact List.map_eq_nil_iff.mp htimes
  set window := windowOf (cut five days newest.openTimeMs) (n * 300000) with hwindow
  -- the parents of the window are those of the whole
  have hbuilt' : aggregateCandles (cut five days newest.openTimeMs) interval "okx_native" =
      .ok (built.filter (inParentWindow window)) := by
    obtain ⟨window', hwindow', hpiece⟩ := (aggregated ht hfive (.inr rfl) hbuilt).pieces _ hsub
    obtain rfl := Except.ok.inj ((completeParentWindow_eq ht (hfive.piece hsub)).symm.trans hwindow')
    exact hpiece
  obtain ⟨hincreasing', htimes', -⟩ := clip_built ht (hfive.piece hsub) hbuilt'
  have hwithin : ∀ candle ∈ native interval, inParentWindow window candle = true →
      inParentWindow (windowOf five (n * 300000)) candle = true := by
    intro candle hcandle hin
    have hdvd := hvalid.grid.aligned candle hcandle
    have hmem := (mem_windowTimes_iff hpos (cut five days newest.openTimeMs) hdvd).mpr hin
    exact (mem_windowTimes_iff hpos five hdvd).mp (bucket_of_piece ht hfive hsub hmem).2
  have hkept : ((native interval).filter (inParentWindow (windowOf five (n * 300000)))).filter
      (inParentWindow window) = (native interval).filter (inParentWindow window) := by
    rw [List.filter_filter]
    refine List.filter_congr fun candle hcandle => ?_
    rw [Bool.and_eq_left_iff_imp]
    exact hwithin candle hcandle
  have hsame' : SameParents (built.filter (inParentWindow window)) ((native interval).filter (inParentWindow window))
      (n * 300000) := by
    rw [← hkept]
    have hne : built.filter (inParentWindow window) ≠ [] := by
      intro hnil
      rw [hnil] at htimes'
      exact hfull htimes'.symm
    rw [inParentWindow_eq window] at hne ⊢
    exact hsame.filter hincreasing (hnative.filter _) (inWindow window) hne
  have hmap : ((native interval).filter (inParentWindow window)).map Candle.openTimeMs =
      (built.filter (inParentWindow window)).map Candle.openTimeMs := by
    have hnative' : Increasing id (((native interval).filter (inParentWindow window)).map Candle.openTimeMs) :=
      List.pairwise_map.mpr (hnative.filter _)
    exact hnative'.ext (List.pairwise_map.mpr hincreasing') fun t => (hsame'.times t).symm
  refine ⟨hvalid.piece ?_ ?_, ?_, _, hbuilt', hsame', hmap⟩
  · cases hw : window with
    | none => exact absurd (by rw [hw]; rfl) hfull
    | some w => exact hnative.filter_piece w.1 w.2
  · intro hnil
    rw [hnil] at hmap
    exact hsame'.ne (List.map_eq_nil_iff.mp hmap.symm)
  · rw [List.filter_filter]
    exact List.filter_congr fun candle _ => Bool.and_self _

end window

end MuStrategy.TrustedData
