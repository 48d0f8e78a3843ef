import Mathlib.Algebra.Order.Ring.Int
import MuStrategy.Lib.Timeline
import MuStrategy.TrustedData.Candles

/-!
# The history of an exchange, page by page

OKX returns candles a page at a time, the newest first. Two loops go back through the pages until they have what they
want.

* `okxRowToCandle`, `fetchOkxCandles` — one page; unconfirmed rows are dropped, a request is tried three times.
* `fetchOkxHistorical`, `fetchOkxIncremental` — the loops. Nothing bounds them, so that they run on fuel.
* `Honest` — an exchange with a fixed history that answers with its newest candles before a time.
* `Fetched` — what a loop has while it goes back: the end of the history.
* `Fetches`, `historical_fetches`, `incremental_fetches` — the loops end, with exactly the candles that are asked for.
-/

namespace MuStrategy.MarketData

open Lib TrustedData

variable {F : Type}

/-! ## Pages -/

/-- A row of a page, in numbers. `confirm` is the text of its ninth entry, if it has one. -/
structure OkxRow (F : Type) where
  openTimeMs : ℤ
  openPrice : F
  high : F
  low : F
  closePrice : F
  volume : F
  confirm : Option String
  deriving DecidableEq

/-- Source: `providers/okx.py` `okx_row_to_candle`. -/
def okxRowToCandle (row : OkxRow F) : Option (Candle F) :=
  if row.confirm.any (· ≠ "1") then none
  else some ⟨row.openTimeMs, row.openPrice, row.high, row.low, row.closePrice, row.volume⟩

/-- The parameters of a request. -/
structure OkxRequest where
  instId : String
  bar : String
  limit : ℕ
  after : Option ℤ

/-- An answer of the exchange. -/
structure OkxPayload (F : Type) where
  code : String
  data : List (OkxRow F)

/-- What a request raises. -/
inductive FetchError where
  /-- `URLError`, `TimeoutError` or `OSError`, of the last attempt. -/
  | network
  /-- `RuntimeError`. -/
  | request (text : String)
  deriving DecidableEq

/-- The exchange: its answer to a request, by attempt; an attempt can fail. -/
abbrev OkxServer (F : Type) := OkxRequest → ℕ → Option (OkxPayload F)

/-- Source: `providers/okx.py` `okx_interval`. -/
def okxInterval (interval : String) : String := if interval = "1h" then "1H" else interval

/-- The first answer of the attempts that are left. Source: `providers/okx.py` `fetch_okx_candles`, its loop. -/
def okxAnswer (server : OkxServer F) (request : OkxRequest) : List ℕ → Except FetchError (OkxPayload F)
  | [] => .error .network
  | attempt :: attempts =>
      match server request attempt with
      | some payload => .ok payload
      | none => okxAnswer server request attempts

/-- The request for a page. -/
def okxRequest (symbol interval : String) (after : Option ℤ) : OkxRequest where
  instId := symbol
  bar := okxInterval interval
  limit := 100
  after := after

/-- Source: `providers/okx.py` `fetch_okx_candles`, with its default limit and its three attempts. -/
def fetchOkxCandles (server : OkxServer F) (symbol interval : String) (after : Option ℤ) :
    Except FetchError (List (Candle F)) := do
  let payload ← okxAnswer server (okxRequest symbol interval after) [1, 2, 3]
  require (payload.code = "0") (.request "OKX request failed")
  pure (dedupeCandles (payload.data.filterMap okxRowToCandle))

/-! ## Loops -/

/-- `DAY_MS`. -/
def dayMs : ℤ := 86400000

/-- The open times of candles. -/
def times (candles : List (Candle F)) : List ℤ := candles.map Candle.openTimeMs

/-- What a loop returns; without fuel, nothing. -/
abbrev Outcome (α : Type) := Option (Except FetchError α)

/-- The loop of `fetch_okx_historical`: the candles and the window, if there is one.
Source: `providers/okx.py` `fetch_okx_historical`. -/
def historicalLoop (fetch : Option ℤ → Except FetchError (List (Candle F))) (days endTimeMs : ℤ) :
    ℕ → List (Candle F) → Option (ℤ × ℤ) → Option ℤ → Outcome (List (Candle F) × Option (ℤ × ℤ))
  | 0, _, _, _ => none
  | fuel + 1, output, window, after =>
      match fetch after with
      | .error error => some (.error error)
      | .ok batch =>
          match (times batch).min? with
          | none => some (.ok (output, window))
          | some batchOldest =>
              let output := output ++ batch
              let confirmed := (times output).filter (· ≤ endTimeMs)
              match confirmed.max?, confirmed.min? with
              | some latest, some oldest =>
                  let requiredStart := latest - days * dayMs
                  if oldest ≤ requiredStart ∨ after = some batchOldest then
                    some (.ok (output, some (requiredStart, latest)))
                  else historicalLoop fetch days endTimeMs fuel output (some (requiredStart, latest))
                    (some batchOldest)
              | _, _ => some (.ok (output, window))

/-- `end_time_ms or int(time.time() * 1000)`. -/
def effectiveEnd (endTimeMs : Option ℤ) (now : ℤ) : ℤ :=
  match endTimeMs with
  | some time => if time = 0 then now else time
  | none => now

/-- The candles of a window. -/
def inWindow (candles : List (Candle F)) (window : ℤ × ℤ) : List (Candle F) :=
  candles.filter fun bar => window.1 ≤ bar.openTimeMs && bar.openTimeMs ≤ window.2

/-- Source: `providers/okx.py` `fetch_okx_historical`. -/
def fetchOkxHistorical (server : OkxServer F) (symbol interval : String) (days : ℤ) (endTimeMs : Option ℤ) (now : ℤ)
    (fuel : ℕ) : Outcome (List (Candle F)) :=
  let endTimeMs := effectiveEnd endTimeMs now
  (historicalLoop (fetchOkxCandles server symbol interval) days endTimeMs fuel [] none (some endTimeMs)).map
    fun result => result.map fun (output, window) =>
      match window with
      | none => []
      | some window => dedupeCandles (inWindow output window)

/-- The loop of `fetch_okx_incremental`. Source: `providers/okx.py` `fetch_okx_incremental`. -/
def incrementalLoop (fetch : Option ℤ → Except FetchError (List (Candle F))) (sinceTimeMs : ℤ) :
    ℕ → List (Candle F) → Option ℤ → Outcome (List (Candle F))
  | 0, _, _ => none
  | fuel + 1, output, after =>
      match fetch after with
      | .error error => some (.error error)
      | .ok batch =>
          match (times batch).min? with
          | none => some (.ok output)
          | some oldest =>
              let output := output ++ batch.filter fun bar => sinceTimeMs ≤ bar.openTimeMs
              if oldest ≤ sinceTimeMs ∨ after = some oldest then some (.ok output)
              else incrementalLoop fetch sinceTimeMs fuel output (some oldest)

/-- Source: `providers/okx.py` `fetch_okx_incremental`. -/
def fetchOkxIncremental (server : OkxServer F) (symbol interval : String) (sinceTimeMs : ℤ) (fuel : ℕ) :
    Outcome (List (Candle F)) :=
  (incrementalLoop (fetchOkxCandles server symbol interval) sinceTimeMs fuel [] none).map fun result =>
    result.map dedupeCandles

/-! ## An honest exchange -/

/-- The candles of a history before a time. -/
def olderThan (history : List (Candle F)) : Option ℤ → List (Candle F)
  | none => history
  | some time => history.filter fun bar => bar.openTimeMs < time

/-- An answer holds the newest candles before a time, at most 100 of them, confirmed and in any order; it is empty only
when there are none. -/
structure IsPage (history : List (Candle F)) (after : Option ℤ) (payload : OkxPayload F) : Prop where
  code : payload.code = "0"
  newest : ∃ rest page, olderThan history after = rest ++ page ∧ page.length ≤ 100 ∧ (page = [] → rest = []) ∧
    (payload.data.map okxRowToCandle).Perm (page.map some)

/-- The exchange has a fixed history of candles, answers every request in one of its attempts, and all its answers are
pages of the history. -/
structure Honest (server : OkxServer F) (symbol interval : String) (history : List (Candle F)) : Prop where
  increasing : Increasing Candle.openTimeMs history
  answers : ∀ after, ∃ attempt ∈ [1, 2, 3], (server (okxRequest symbol interval after) attempt).isSome
  pages : ∀ after attempt payload, server (okxRequest symbol interval after) attempt = some payload →
    IsPage history after payload

lemma okxAnswer_ok {server : OkxServer F} {request : OkxRequest} {attempts : List ℕ}
    (h : ∃ attempt ∈ attempts, (server request attempt).isSome) :
    ∃ attempt payload, server request attempt = some payload ∧ okxAnswer server request attempts = .ok payload := by
  induction attempts with
  | nil =>
      obtain ⟨attempt, hmem, -⟩ := h
      cases hmem
  | cons first attempts ih =>
      rw [okxAnswer]
      cases hfirst : server request first with
      | some payload => exact ⟨first, payload, hfirst, rfl⟩
      | none =>
          obtain ⟨attempt, hmem, hsome⟩ := h
          rcases List.mem_cons.mp hmem with rfl | hmem
          · rw [hfirst] at hsome
            cases hsome
          · exact ih ⟨attempt, hmem, hsome⟩

section honest

variable {server : OkxServer F} {symbol interval : String} {history : List (Candle F)}

lemma olderThan_increasing (h : Increasing Candle.openTimeMs history) (after : Option ℤ) :
    Increasing Candle.openTimeMs (olderThan history after) := by
  cases after with
  | none => exact h
  | some time => exact h.filter _

/-- A page is fetched in order: the newest candles before the time. -/
lemma fetchOkxCandles_eq (h : Honest server symbol interval history) (after : Option ℤ) :
    ∃ rest page, olderThan history after = rest ++ page ∧ (page = [] → rest = []) ∧
      fetchOkxCandles server symbol interval after = .ok page := by
  obtain ⟨attempt, payload, hpayload, hanswer⟩ := okxAnswer_ok (h.answers after)
  obtain ⟨hcode, rest, page, hsplit, -, hempty, hperm⟩ := h.pages after attempt payload hpayload
  refine ⟨rest, page, hsplit, hempty, ?_⟩
  have hpage : Increasing Candle.openTimeMs page := by
    have hall := olderThan_increasing h.increasing after
    rw [hsplit] at hall
    exact (increasing_append.mp hall).2.1
  have hcandles : (payload.data.filterMap okxRowToCandle).Perm page := by
    have hflat := hperm.filterMap id
    rwa [List.filterMap_map, List.filterMap_map, Function.id_comp, Function.id_comp, List.filterMap_some] at hflat
  have hdedupe : dedupeCandles (payload.data.filterMap okxRowToCandle) = page := by
    have hall : ∀ bar ∈ page, true = true ↔ bar ∈ payload.data.filterMap okxRowToCandle :=
      fun bar hbar => iff_of_true rfl (hcandles.mem_iff.mpr hbar)
    rw [dedupeCandles, byKey_eq_filter hpage hcandles.subset hall, List.filter_true]
  rw [fetchOkxCandles, hanswer, ok_bind, hcode, decide_eq_true rfl, require_true, ok_bind, hdedupe]
  rfl

/-- Before the first candle of a page are the candles that it leaves. -/
lemma olderThan_first (h : Increasing Candle.openTimeMs history) {after : Option ℤ} {rest page : List (Candle F)}
    {first : Candle F} (hsplit : olderThan history after = rest ++ first :: page) :
    olderThan history (some first.openTimeMs) = rest := by
  have hsorted := olderThan_increasing h after
  rw [hsplit] at hsorted
  obtain ⟨hrest, hpage, hlt⟩ := increasing_append.mp hsorted
  have hmem : ∀ z, z ∈ olderThan history after ↔ z ∈ history ∧ ∀ time ∈ after, z.openTimeMs < time := by
    intro z
    cases after with
    | none => exact ⟨fun hz => ⟨hz, fun time htime => by cases htime⟩, fun hz => hz.1⟩
    | some time => simp [olderThan]
  obtain ⟨-, hfirst⟩ := (hmem first).mp (hsplit ▸ List.mem_append_right rest List.mem_cons_self)
  refine (h.filter _).ext hrest fun z => ?_
  rw [List.mem_filter, decide_eq_true_eq]
  constructor
  · rintro ⟨hz, hbefore⟩
    have hz' : z ∈ rest ++ first :: page := hsplit ▸ (hmem z).mpr ⟨hz, fun time ht => hbefore.trans (hfirst time ht)⟩
    rcases List.mem_append.mp hz' with hz' | hz'
    · exact hz'
    · rcases List.mem_cons.mp hz' with rfl | hz'
      · exact absurd hbefore (lt_irrefl _)
      · exact absurd hbefore (hpage.lt_of_cons hz').asymm
  · intro hz
    exact ⟨((hmem z).mp (hsplit ▸ List.mem_append_left _ hz)).1, hlt z hz first List.mem_cons_self⟩

/-! ## Going back -/

/-- What a loop has: of the end `done` of the candles `all` it goes through, the ones that it keeps; it asks next for
the ones before. -/
structure Fetched (history all : List (Candle F)) (keep : Candle F → Prop) (rest done output : List (Candle F))
    (after : Option ℤ) : Prop where
  split : all = rest ++ done
  kept : ∀ bar, bar ∈ output ↔ bar ∈ done ∧ keep bar
  older : olderThan history after = rest

variable {all rest page done output : List (Candle F)} {keep : Candle F → Prop} {after : Option ℤ} {first : Candle F}

/-- A page that is not empty takes the loop back to its first candle. -/
lemma Fetched.next (h : Fetched history all keep (rest ++ first :: page) done output after)
    (hincreasing : Increasing Candle.openTimeMs history) (batch : List (Candle F))
    (hbatch : ∀ bar, bar ∈ batch ↔ bar ∈ first :: page ∧ keep bar) :
    Fetched history all keep rest (first :: (page ++ done)) (output ++ batch) (some first.openTimeMs) where
  split := by rw [h.split, List.append_assoc, List.cons_append]
  kept := fun bar => by
    rw [List.mem_append, h.kept, hbatch, ← List.cons_append, List.mem_append, or_and_right]
    exact or_comm
  older := olderThan_first hincreasing h.older

/-- A loop never asks for the same page again. -/
lemma Fetched.after_ne (h : Fetched history all keep (rest ++ first :: page) done output after) :
    after ≠ some first.openTimeMs := by
  rintro rfl
  have hmem : first ∈ olderThan history (some first.openTimeMs) :=
    h.older ▸ List.mem_append_right rest List.mem_cons_self
  rw [olderThan, List.mem_filter, decide_eq_true_eq] at hmem
  exact lt_irrefl _ hmem.2

/-- The oldest candle of an end of the history is its first. -/
lemma times_min (hincreasing : Increasing Candle.openTimeMs (first :: page))
    (hmem : ∀ bar, bar ∈ output ↔ bar ∈ first :: page) :
    (times output).min? = some first.openTimeMs := by
  refine List.min?_eq_some_iff.mpr ⟨List.mem_map_of_mem ((hmem first).mpr List.mem_cons_self), fun time htime => ?_⟩
  obtain ⟨bar, hbar, rfl⟩ := List.mem_map.mp htime
  rcases List.mem_cons.mp ((hmem bar).mp hbar) with rfl | hbar
  · exact le_rfl
  · exact (hincreasing.lt_of_cons hbar).le

/-- The newest candle of all is in the end that a loop has. -/
lemma times_max (hincreasing : Increasing Candle.openTimeMs (rest ++ first :: page))
    (hmem : ∀ bar, bar ∈ output ↔ bar ∈ first :: page) :
    (times output).max? = (times (rest ++ first :: page)).max? := by
  obtain ⟨latest, hlatest⟩ : ∃ latest, (times output).max? = some latest := by
    refine Option.ne_none_iff_exists'.mp fun hnone => ?_
    have hfirst := (hmem first).mpr List.mem_cons_self
    rw [List.map_eq_nil_iff.mp (List.max?_eq_none_iff.mp hnone)] at hfirst
    cases hfirst
  rw [hlatest]
  obtain ⟨hin, hle⟩ := List.max?_eq_some_iff.mp hlatest
  refine (List.max?_eq_some_iff.mpr ⟨?_, fun time htime => ?_⟩).symm
  · obtain ⟨bar, hbar, rfl⟩ := List.mem_map.mp hin
    exact List.mem_map_of_mem (List.mem_append_right rest ((hmem bar).mp hbar))
  · obtain ⟨bar, hbar, rfl⟩ := List.mem_map.mp htime
    rcases List.mem_append.mp hbar with hbar | hbar
    · have hlt := (increasing_append.mp hincreasing).2.2 bar hbar first List.mem_cons_self
      exact hlt.le.trans (hle _ (List.mem_map_of_mem ((hmem first).mpr List.mem_cons_self)))
    · exact hle _ (List.mem_map_of_mem ((hmem bar).mpr hbar))

/-! ## The candles that are asked for -/

/-- The candles of `fetch_okx_historical`: the ones from `days` before the newest candle that is older than a time. -/
def historicalCandles (history : List (Candle F)) (days endTimeMs : ℤ) : List (Candle F) :=
  match (times (olderThan history (some endTimeMs))).max? with
  | none => []
  | some latest => inWindow history (latest - days * dayMs, latest)

/-- The candles of `fetch_okx_incremental`. -/
def incrementalCandles (history : List (Candle F)) (sinceTimeMs : ℤ) : List (Candle F) :=
  history.filter fun bar => sinceTimeMs ≤ bar.openTimeMs

/-- A loop ends, with a list of candles that is sorted and without duplicates. -/
def Fetches (run : ℕ → Outcome (List (Candle F))) (expected : List (Candle F)) : Prop :=
  Increasing Candle.openTimeMs expected ∧ ∃ fuel₀, ∀ fuel ≥ fuel₀, run fuel = some (.ok expected)

/-- **The loop of `fetch_okx_historical`** ends with every candle of its window. -/
lemma historicalLoop_eq (h : Honest server symbol interval history) (days : ℤ) {endTimeMs latest : ℤ}
    (hend : ∀ bar ∈ all, bar.openTimeMs ≤ endTimeMs) (hlatest : (times all).max? = some latest) (fuel : ℕ)
    (window : Option (ℤ × ℤ)) (hfetched : Fetched history all (fun _ => True) rest done output after)
    (hincreasing : Increasing Candle.openTimeMs all) (hfuel : rest.length < fuel)
    (hwindow : done ≠ [] → window = some (latest - days * dayMs, latest)) :
    ∃ fetched, historicalLoop (fetchOkxCandles server symbol interval) days endTimeMs fuel output window after =
        some (.ok (fetched, some (latest - days * dayMs, latest))) ∧
      (∀ bar ∈ fetched, bar ∈ all) ∧ ∀ bar ∈ all, latest - days * dayMs ≤ bar.openTimeMs → bar ∈ fetched := by
  induction fuel generalizing rest done output window after with
  | zero => omega
  | succ fuel ih =>
      obtain ⟨rest', page, hsplit, hempty, hfetch⟩ := fetchOkxCandles_eq h after
      rw [hfetched.older] at hsplit
      subst hsplit
      rw [historicalLoop, hfetch]
      dsimp only
      cases page with
      | nil =>
          -- nothing is left
          obtain rfl := hempty rfl
          have hdone : all = done := hfetched.split
          have hne : done ≠ [] := by
            rintro rfl
            rw [hdone] at hlatest
            cases hlatest
          refine ⟨output, ?_, fun bar hbar => hdone ▸ ((hfetched.kept bar).mp hbar).1,
            fun bar hbar _ => (hfetched.kept bar).mpr ⟨hdone ▸ hbar, trivial⟩⟩
          rw [hwindow hne]
          rfl
      | cons first page =>
          have hnext := hfetched.next h.increasing (first :: page) fun bar => (and_iff_left trivial).symm
          have hmem : ∀ bar, bar ∈ output ++ first :: page ↔ bar ∈ first :: (page ++ done) := fun bar =>
            (hnext.kept bar).trans (and_iff_left trivial)
          rw [hnext.split] at hincreasing hlatest
          obtain ⟨hrest, hpage, hlt⟩ := increasing_append.mp hincreasing
          have hconfirmed : (times (output ++ first :: page)).filter (· ≤ endTimeMs) = times (output ++ first :: page) := by
            refine List.filter_eq_self.mpr fun time htime => ?_
            obtain ⟨bar, hbar, rfl⟩ := List.mem_map.mp htime
            exact decide_eq_true (hend bar (hnext.split ▸ List.mem_append_right rest' ((hmem bar).mp hbar)))
          rw [times_min (hpage.sublist ((List.sublist_append_left page done).cons_cons first)) fun bar => Iff.rfl]
          dsimp only
          rw [hconfirmed, times_min hpage hmem, times_max hincreasing hmem, hlatest]
          dsimp only
          by_cases hstop : first.openTimeMs ≤ latest - days * dayMs
          · rw [if_pos (.inl hstop)]
            refine ⟨_, rfl, fun bar hbar => hnext.split ▸ List.mem_append_right rest' ((hmem bar).mp hbar), ?_⟩
            intro bar hbar hstart
            rw [hnext.split] at hbar
            rcases List.mem_append.mp hbar with hbar | hbar
            · have := hlt bar hbar first List.mem_cons_self
              omega
            · exact (hmem bar).mpr hbar
          · rw [if_neg (not_or.mpr ⟨hstop, hfetched.after_ne⟩)]
            rw [← hnext.split] at hincreasing hlatest
            have hlen : rest'.length < fuel := by
              rw [List.length_append, List.length_cons] at hfuel
              omega
            exact ih _ hnext hlen fun _ => rfl

/-- **`fetch_okx_historical` ends**, with exactly the candles of its window. -/
lemma historical_fetches (h : Honest server symbol interval history) (days : ℤ) (endTimeMs : Option ℤ) (now : ℤ) :
    Fetches (fetchOkxHistorical server symbol interval days endTimeMs now)
      (historicalCandles history days (effectiveEnd endTimeMs now)) := by
  set time := effectiveEnd endTimeMs now with htime
  have hbefore : ∀ bar, bar ∈ olderThan history (some time) ↔ bar ∈ history ∧ bar.openTimeMs < time := fun bar => by
    rw [olderThan, List.mem_filter, decide_eq_true_eq]
  have hstart : Fetched history (olderThan history (some time)) (fun _ => True) (olderThan history (some time)) [] []
      (some time) :=
    ⟨(List.append_nil _).symm, fun bar => by simp, rfl⟩
  cases hlatest : (times (olderThan history (some time))).max? with
  | none =>
      -- the first page is empty
      have hnil : olderThan history (some time) = [] := List.map_eq_nil_iff.mp (List.max?_eq_none_iff.mp hlatest)
      obtain ⟨rest, page, hsplit, -, hfetch⟩ := fetchOkxCandles_eq h (some time)
      obtain ⟨-, rfl⟩ := List.append_eq_nil_iff.mp (hsplit.symm.trans hnil)
      refine ⟨by rw [historicalCandles, hlatest]; exact List.Pairwise.nil, 1, fun fuel hfuel => ?_⟩
      obtain ⟨fuel, rfl⟩ := Nat.exists_eq_add_of_le' hfuel
      rw [fetchOkxHistorical, ← htime, historicalLoop, hfetch, historicalCandles, hlatest]
      rfl
  | some latest =>
      obtain ⟨hin, -⟩ := List.max?_eq_some_iff.mp hlatest
      obtain ⟨newest, hnewest, rfl⟩ := List.mem_map.mp hin
      have hexpected : historicalCandles history days time =
          inWindow history (newest.openTimeMs - days * dayMs, newest.openTimeMs) := by
        rw [historicalCandles, hlatest]
      rw [hexpected]
      refine ⟨h.increasing.filter _, (olderThan history (some time)).length + 1, fun fuel hfuel => ?_⟩
      obtain ⟨fetched, hloop, hall, hcovers⟩ := historicalLoop_eq h days
        (fun bar hbar => ((hbefore bar).mp hbar).2.le) hlatest fuel none hstart (olderThan_increasing h.increasing _) hfuel
        fun hne => absurd rfl hne
      have hdedupe : dedupeCandles (inWindow fetched (newest.openTimeMs - days * dayMs, newest.openTimeMs)) =
          inWindow history (newest.openTimeMs - days * dayMs, newest.openTimeMs) := by
        refine byKey_eq_filter h.increasing (fun bar hbar => ?_) fun bar hbar => ?_
        · exact ((hbefore bar).mp (hall bar (List.mem_of_mem_filter hbar))).1
        · rw [inWindow, List.mem_filter, Bool.and_eq_true, decide_eq_true_eq, decide_eq_true_eq]
          refine (and_iff_right_of_imp fun hwindow => hcovers bar ?_ hwindow.1).symm
          exact (hbefore bar).mpr ⟨hbar, hwindow.2.trans_lt ((hbefore newest).mp hnewest).2⟩
      rw [fetchOkxHistorical, ← htime, hloop, Option.map_some, Except.map]
      dsimp only
      rw [hdedupe]

/-- **The loop of `fetch_okx_incremental`** ends with every candle since its time. -/
lemma incrementalLoop_eq (h : Honest server symbol interval history) {sinceTimeMs : ℤ} (fuel : ℕ)
    (hfetched : Fetched history history (fun bar => sinceTimeMs ≤ bar.openTimeMs) rest done output after)
    (hfuel : rest.length < fuel) :
    ∃ fetched, incrementalLoop (fetchOkxCandles server symbol interval) sinceTimeMs fuel output after =
      some (.ok fetched) ∧ ∀ bar, bar ∈ fetched ↔ bar ∈ history ∧ sinceTimeMs ≤ bar.openTimeMs := by
  induction fuel generalizing rest done output after with
  | zero => omega
  | succ fuel ih =>
      obtain ⟨rest', page, hsplit, hempty, hfetch⟩ := fetchOkxCandles_eq h after
      rw [hfetched.older] at hsplit
      subst hsplit
      rw [incrementalLoop, hfetch]
      dsimp only
      cases page with
      | nil =>
          -- nothing is left
          obtain rfl := hempty rfl
          have hdone : history = done := hfetched.split
          exact ⟨output, rfl, fun bar => by rw [hfetched.kept, hdone]⟩
      | cons first page =>
          have hnext := hfetched.next h.increasing
            ((first :: page).filter fun bar => sinceTimeMs ≤ bar.openTimeMs) fun bar => by
              rw [List.mem_filter, decide_eq_true_eq]
          have hincreasing := h.increasing
          rw [hnext.split] at hincreasing
          obtain ⟨hrest, hpage, hlt⟩ := increasing_append.mp hincreasing
          rw [times_min (hpage.sublist ((List.sublist_append_left page done).cons_cons first)) fun bar => Iff.rfl]
          dsimp only
          by_cases hstop : first.openTimeMs ≤ sinceTimeMs
          · rw [if_pos (.inl hstop)]
            refine ⟨_, rfl, fun bar => (hnext.kept bar).trans (and_congr_left fun hsince => ?_)⟩
            rw [hnext.split, List.mem_append]
            refine (or_iff_right fun hbar => ?_).symm
            have := hlt bar hbar first List.mem_cons_self
            omega
          · rw [if_neg (not_or.mpr ⟨hstop, hfetched.after_ne⟩)]
            have hlen : rest'.length < fuel := by
              rw [List.length_append, List.length_cons] at hfuel
              omega
            exact ih hnext hlen

/-- **`fetch_okx_incremental` ends**, with exactly the candles since its time. -/
lemma incremental_fetches (h : Honest server symbol interval history) (sinceTimeMs : ℤ) :
    Fetches (fetchOkxIncremental server symbol interval sinceTimeMs) (incrementalCandles history sinceTimeMs) := by
  refine ⟨h.increasing.filter _, history.length + 1, fun fuel hfuel => ?_⟩
  have hstart : Fetched history history (fun bar => sinceTimeMs ≤ bar.openTimeMs) history [] [] none :=
    ⟨(List.append_nil history).symm, fun bar => by simp, rfl⟩
  obtain ⟨fetched, hloop, hmem⟩ := incrementalLoop_eq h fuel hstart hfuel
  have hdedupe : dedupeCandles fetched = incrementalCandles history sinceTimeMs :=
    byKey_eq_filter h.increasing (fun bar hbar => ((hmem bar).mp hbar).1) fun bar hbar => by
      rw [hmem, decide_eq_true_eq, and_iff_right hbar]
  rw [fetchOkxIncremental, hloop, Option.map_some, Except.map, hdedupe]

end honest

/-! ## An exchange with one candle -/

/-- The only candle of an exchange. -/
def onlyRow : OkxRow ℤ := ⟨500, 1, 1, 1, 1, 1, some "1"⟩

/-- It answers with its candle if that is older than the time. -/
def onlyServer : OkxServer ℤ := fun request _ =>
  some ⟨"0", [onlyRow].filter fun row => request.after.all (row.openTimeMs < ·)⟩

lemma onlyServer_honest : Honest onlyServer "BTC-USDT" "5m" [⟨500, 1, 1, 1, 1, 1⟩] where
  increasing := List.pairwise_singleton _ _
  answers := fun after => ⟨1, by decide, rfl⟩
  pages := by
    rintro after attempt payload hpayload
    obtain rfl := Option.some.inj hpayload
    refine ⟨rfl, [], olderThan [⟨500, 1, 1, 1, 1, 1⟩] after, rfl, ?_, fun _ => rfl, ?_⟩
    · cases after with
      | none => decide
      | some time => exact (List.length_filter_le _ _).trans (by decide)
    · cases after with
      | none => exact List.Perm.refl _
      | some time => by_cases h : 500 < time <;> simp [okxRequest, onlyRow, okxRowToCandle, olderThan, h]

end MuStrategy.MarketData
