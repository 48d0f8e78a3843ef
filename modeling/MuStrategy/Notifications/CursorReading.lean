import MuStrategy.Notifications.LogAppends

/-!
# Reading the log by a cursor

A reader asks for the records behind the cursor of its last call, while appends go on. It takes no lock: an append can
be anywhere between two of its calls on files.

* `readers`, `parties` — what the calls of a reader and the appends do.
* `Excuse` — why a read may raise: never because of its cursor.
* `safe_readBatch` — what a read returns: the next cycles, all of them when it returns fewer than it was asked for.
-/

namespace MuStrategy.Notifications.ObservationFile

open Lib Prog

variable {O : Type} {fmt : LogFormat O} {faults : Prop} {s t u : Log O}

/-! ## Lines -/

lemma readLine_line {line : List UInt8} (hline : newline ∉ line) {size : ℕ} (hsize : line.length < size)
    (rest : List UInt8) : readLine size (line ++ [newline] ++ rest) = line ++ [newline] := by
  induction line generalizing size with
  | nil =>
      obtain ⟨size, rfl⟩ : ∃ n, size = n + 1 := ⟨size - 1, by omega⟩
      rw [List.nil_append, List.singleton_append, readLine, if_pos rfl]
  | cons byte line ih =>
      rw [List.mem_cons, not_or] at hline
      rw [List.length_cons] at hsize
      obtain ⟨size, rfl⟩ : ∃ n, size = n + 1 := ⟨size - 1, by omega⟩
      rw [List.cons_append, List.cons_append, readLine, if_neg (Ne.symm hline.1), ih hline.2 (by omega)]

lemma readLine_torn {torn : List UInt8} (htorn : newline ∉ torn) {size : ℕ} (hsize : torn.length ≤ size) :
    readLine size torn = torn := by
  induction torn generalizing size with
  | nil => cases size <;> rfl
  | cons byte torn ih =>
      rw [List.mem_cons, not_or] at htorn
      rw [List.length_cons] at hsize
      obtain ⟨size, rfl⟩ : ∃ n, size = n + 1 := ⟨size - 1, by omega⟩
      rw [readLine, if_neg (Ne.symm htorn.1), ih htorn.2 (by omega)]

lemma readLine_record (hfmt : fmt.Lawful) {cycle : ObservationCycle O} (hcycle : fmt.Fits cycle) (rest : List UInt8) :
    readLine (maxRecordBytes + 1) (fmt.record cycle ++ rest) = fmt.record cycle := by
  obtain ⟨line, hline, hnewline⟩ := hcycle.line hfmt
  have hsize := hcycle.2
  rw [hline, List.length_append, List.length_singleton] at hsize
  rw [hline, readLine_line hnewline (by omega)]

lemma parse_record (hfmt : fmt.Lawful) {cycle : ObservationCycle O} (hcycle : fmt.Fits cycle) :
    fmt.parse (fmt.record cycle) =
      some <$> orThrow (fmt.decode (fmt.record cycle)) (.corruption "invalid observation record") := by
  obtain ⟨line, hline, -⟩ := hcycle.line hfmt
  have hpos := hcycle.pos hfmt
  have hne : (fmt.record cycle).isEmpty = false := by
    rw [List.isEmpty_eq_false_iff, ← List.length_pos_iff]
    exact hpos
  have hlast : (fmt.record cycle).getLast? = some newline := by rw [hline, List.getLast?_concat]
  rw [RecordFormat.parse, hne, if_neg Bool.false_ne_true, hlast, decide_eq_true hcycle.2, decide_eq_true rfl]
  rfl

lemma parse_torn {torn : List UInt8} (htorn : newline ∉ torn) (hne : torn ≠ []) :
    fmt.parse torn = .error (.corruption "observation record incomplete or oversized") := by
  have hlast : torn.getLast? ≠ some newline := fun h => htorn (List.mem_of_getLast? h)
  have hnotEmpty : torn.isEmpty = false := List.isEmpty_eq_false_iff.mpr hne
  rw [RecordFormat.parse, hnotEmpty, if_neg Bool.false_ne_true, decide_eq_false hlast, Bool.and_false]
  rfl

/-! ## The parties -/

/-- The calls of a reader leave the log alone; they may fail. -/
def readers (faults : Prop) (_ : Bool) (op : Op O) (s : Log O) (reply : op.Reply) (t : Log O) : Prop :=
  t = s ∧ (reply = (files op s.shared).1 ∨ faults ∧ reply = .error .osError)

/-- What the reader, `true`, and the appends do to the log. -/
def parties (fmt : LogFormat O) : Bool → Log O → Log O → Prop
  | true => fun s t => t = s
  | false => AppendStep fmt

/-- Why a read may raise: a call on a file failed, an append was under way, or a committed record does not read back. -/
inductive Excuse (fmt : LogFormat O) (faults : Prop) (s t : Log O) : CollectError → Prop where
  | fault (h : faults) : Excuse fmt faults s t .osError
  | marked (h : UnderWay s t) :
      Excuse fmt faults s t (.alert (.corruption "observation repository has an unresolved failed-write marker"))
  | torn (h : UnderWay s t) : Excuse fmt faults s t (.alert (.corruption "observation record incomplete or oversized"))
  | unreadable (h : (∃ cycle ∈ t.committed, ¬ fmt.Readable cycle) ∨ UnderWay s t) :
      Excuse fmt faults s t (.alert (.corruption "invalid observation record"))

/-- It is one in a longer time. -/
lemma Excuse.mono {s' t' : Log O} {error : CollectError} (h : Excuse fmt faults s t error)
    (hcommitted : t.committed <+: t'.committed) (hunder : UnderWay s t → UnderWay s' t') : Excuse fmt faults s' t' error := by
  cases h with
  | fault h => exact .fault h
  | marked h => exact .marked (hunder h)
  | torn h => exact .torn (hunder h)
  | unreadable h =>
      refine .unreadable (h.imp ?_ hunder)
      rintro ⟨cycle, hcycle, hreadable⟩
      exact ⟨cycle, hcommitted.subset hcycle, hreadable⟩

lemma UnderWay.later (h : UnderWay s t) (hlater : Later fmt t u) : UnderWay s u :=
  h.imp id fun hlt => lt_of_lt_of_le hlt hlater.started

lemma later_of_others (hs : Logged fmt s) (h : Others (parties fmt) true s t) : Later fmt s t := by
  induction h with
  | refl => exact .refl hs
  | tail _ hstep ih =>
      obtain ⟨j, hj, hstep⟩ := hstep
      cases j with
      | true => exact absurd rfl hj
      | false => exact ih.trans (AppendStep.later hstep ih.logged)

/-- The result of a part of a read that began at `s`. -/
def Outcome (fmt : LogFormat O) (faults : Prop) {α : Type} (s : Log O) (P : α → Log O → Prop) :
    Except CollectError α → Log O → Prop
  | .ok a, t => P a t
  | .error error, t => Later fmt s t ∧ Excuse fmt faults s t error

section rules

variable {α β : Type} {Q : Except CollectError α → Log O → Prop} {P P' : α → Log O → Prop} {P'' : β → Log O → Prop}

/-- A part of a read that began later. -/
lemma Outcome.before (h : Later fmt s t) (hP : ∀ a u, P a u → P' a u) {result : Except CollectError α}
    (hresult : Outcome fmt faults t P result u) : Outcome fmt faults s P' result u := by
  cases result with
  | ok a => exact hP a u hresult
  | error error => exact ⟨h.trans hresult.1, hresult.2.mono List.prefix_rfl (h.underWay hresult.1)⟩

lemma safe_result {result : Except CollectError α} (hs : Logged fmt s) (h : ∀ t, Later fmt s t → Q result t) :
    Safe (readers faults) (parties fmt) true Q (.done result) s := fun t ht => h t (later_of_others hs ht)

/-- A call of a reader replies what the log is at some later time, or fails. -/
lemma safe_read {op : Op O} {next : op.Reply → Action O α} (hs : Logged fmt s)
    (hreply : ∀ t, Later fmt s t → Safe (readers faults) (parties fmt) true Q (next (files op t.shared).1) t)
    (hfault : ∀ t, Later fmt s t → faults → Safe (readers faults) (parties fmt) true Q (next (.error .osError)) t) :
    Safe (readers faults) (parties fmt) true Q (.call op next) s := by
  intro t ht reply u hact
  obtain ⟨rfl, rfl | ⟨hfaults, rfl⟩⟩ := hact
  · exact ⟨rfl, hreply _ (later_of_others hs ht)⟩
  · exact ⟨rfl, hfault _ (later_of_others hs ht) hfaults⟩

/-- A call of a part of a read: if it fails, the read raises. -/
lemma safe_call_read {op : Op O} {f : op.Value → Action O α} (ht : Later fmt s t)
    (hreply : ∀ u, Later fmt t u → Safe (readers faults) (parties fmt) true (Outcome fmt faults s P)
      (onValue f (files op u.shared).1) u) :
    Safe (readers faults) (parties fmt) true (Outcome fmt faults s P) (call op >>= f) t :=
  safe_read ht.logged hreply fun _ hu hfaults =>
    safe_result hu.logged fun _ hv => ⟨ht.trans (hu.trans hv), .fault hfaults⟩

/-- A part of a read after another one. -/
lemma safe_bind {p : Action O α} {f : α → Action O β}
    (h : Safe (readers faults) (parties fmt) true (Outcome fmt faults s P) p t)
    (hf : ∀ a u, P a u → Safe (readers faults) (parties fmt) true (Outcome fmt faults s P'') (f a) u) :
    Safe (readers faults) (parties fmt) true (Outcome fmt faults s P'') (p >>= f) t := by
  refine Safe.bind (h.mono fun r u hr => ?_)
  cases r with
  | ok a => exact hf a u hr
  | error error =>
      intro v hv
      have hlater := later_of_others hr.1.logged hv
      exact ⟨hr.1.trans hlater, hr.2.mono hlater.committed fun h => h.later hlater⟩

end rules

/-! ## Records -/

/-- What reading records from behind `done` yields: the cycles that follow, and the cursor behind them. If there are
fewer than the limit, none that was committed before is missing. -/
structure Delivered (fmt : LogFormat O) (done : List (ObservationCycle O)) (limit : ℕ) (s : Log O)
    (batch : List (ObservationCycle O) × LogCursor) (t : Log O) : Prop where
  later : Later fmt s t
  placed : Placed fmt (done ++ batch.1) t
  cursor : batch.2 = fmt.cursorAfter (done ++ batch.1)
  caughtUp : batch.1.length < limit → s.committed <+: done ++ batch.1

lemma Delivered.extend {done : List (ObservationCycle O)} {limit : ℕ} {batch : List (ObservationCycle O) × LogCursor}
    (h : Delivered fmt done limit s batch t) (hlater : Later fmt t u) : Delivered fmt done limit s batch u :=
  ⟨h.later.trans hlater, h.placed.later hlater, h.cursor, h.caughtUp⟩

/-- What the log shows behind cycles that were read. -/
lemma Placed.exists_rest (hfmt : fmt.Lawful) {done : List (ObservationCycle O)} (h : Placed fmt done s)
    (hs : Logged fmt s) : ∃ rest torn, Shown fmt s (done ++ rest) torn ∧
      s.shared.bytes.drop (fmt.cursorAfter done).offset = fmt.records rest ++ torn := by
  obtain ⟨visible, torn, hshown⟩ := hs.exists_shown hfmt
  have hbytes := h.bytes
  rw [hshown.bytes] at hbytes
  obtain ⟨rest, rfl⟩ := prefix_of_records hfmt h.fits h.readable hshown.fits hshown.noLine hbytes
  refine ⟨rest, torn, hshown, ?_⟩
  rw [hshown.bytes, LogFormat.offset_cursorAfter, LogFormat.records_append, List.append_assoc, List.drop_left]

/-- One more of them was read. -/
lemma Placed.concat {done rest : List (ObservationCycle O)} {cycle : ObservationCycle O} {torn : List UInt8}
    (h : Placed fmt done s) (hshown : Shown fmt s (done ++ cycle :: rest) torn)
    (hreadable : fmt.Readable cycle) : Placed fmt (done ++ [cycle]) s := by
  refine ⟨?_, ?_, ?_⟩
  · rw [List.forall_mem_append, List.forall_mem_singleton]
    exact ⟨h.fits, hshown.fits cycle (by simp)⟩
  · rw [List.forall_mem_append, List.forall_mem_singleton]
    exact ⟨h.readable, hreadable⟩
  · rw [hshown.bytes, List.append_cons done cycle rest, LogFormat.records_append (done ++ [cycle]) rest,
      List.append_assoc]
    exact List.prefix_append _ _

/-- Nothing was read. -/
lemma Placed.delivered_nil {done : List (ObservationCycle O)} (h : Placed fmt done t) (ht : Later fmt s t) {limit : ℕ}
    (hall : 0 < limit → s.committed <+: done) : Delivered fmt done limit s ([], fmt.cursorAfter done) t := by
  refine ⟨ht, ?_, ?_, fun hfew => ?_⟩
  · rwa [List.append_nil]
  · rw [List.append_nil]
  · rw [List.append_nil]
    exact hall hfew

lemma Delivered.before {done : List (ObservationCycle O)} {limit : ℕ} {batch : List (ObservationCycle O) × LogCursor}
    (hlater : Later fmt s t) (h : Delivered fmt done limit t batch u) : Delivered fmt done limit s batch u :=
  ⟨hlater.trans h.later, h.placed, h.cursor, fun hfew => hlater.committed.trans (h.caughtUp hfew)⟩

/-- One record, and those behind it. -/
lemma Delivered.cons {done : List (ObservationCycle O)} {limit : ℕ} {cycle : ObservationCycle O}
    {batch : List (ObservationCycle O) × LogCursor} (h : Delivered fmt (done ++ [cycle]) limit s batch t) :
    Delivered fmt done (limit + 1) s (cycle :: batch.1, batch.2) t := by
  obtain ⟨hlater, hplaced, hcursor, hall⟩ := h
  rw [List.append_assoc, List.singleton_append] at hplaced hcursor hall
  exact ⟨hlater, hplaced, hcursor, fun hfew => hall (Nat.lt_of_succ_lt_succ hfew)⟩

/-- **The records behind a cursor are read in order.** -/
theorem safe_readRecords (hfmt : fmt.Lawful) (limit : ℕ) (done : List (ObservationCycle O)) (hs : Logged fmt s)
    (hplaced : Placed fmt done s) :
    Safe (readers faults) (parties fmt) true (Outcome fmt faults s (Delivered fmt done limit s))
      (readRecords fmt.toRecordFormat limit (fmt.cursorAfter done)) s := by
  induction limit generalizing done s with
  | zero => exact safe_result hs fun t ht => (hplaced.later ht).delivered_nil ht fun h => absurd h (Nat.lt_irrefl 0)
  | succ limit ih =>
      refine safe_call_read (.refl hs) fun t ht => ?_
      have hdone := hplaced.later ht
      obtain ⟨rest, torn, hshown, hdrop⟩ := hdone.exists_rest hfmt ht.logged
      have hunder : t.append.isSome → ∀ u, Later fmt t u → UnderWay s u :=
        fun happend u hu => (ht.append happend).later hu
      change Safe _ _ _ _ (onValue _ (.ok (readLine (maxRecordBytes + 1) (t.shared.bytes.drop _)))) t
      rw [hdrop]
      simp only [onValue]
      cases rest with
      | nil =>
          rw [LogFormat.records, List.flatMap_nil, List.nil_append,
            readLine_torn hshown.noLine (Nat.le_succ_of_le hshown.size)]
          rw [List.append_nil] at hshown
          rcases eq_or_ne torn [] with rfl | hne
          · -- The log ends here.
            exact safe_result ht.logged fun u hu =>
              (hdone.later hu).delivered_nil (ht.trans hu) fun _ => ht.committed.trans hshown.committed
          · rw [parse_torn hshown.noLine hne]
            refine safe_result ht.logged fun u hu => ⟨ht.trans hu, .torn (hunder ?_ u hu)⟩
            by_contra hnone
            exact hne (hshown.settled (Option.not_isSome_iff_eq_none.mp hnone)).2
      | cons cycle rest =>
          have hcycle : fmt.Fits cycle := hshown.fits cycle (by simp)
          rw [LogFormat.records_cons, List.append_assoc, readLine_record hfmt hcycle, parse_record hfmt hcycle]
          cases hdecode : fmt.decode (fmt.record cycle) with
          | none =>
              have hunreadable : ¬ fmt.Readable cycle := by
                rw [LogFormat.Readable, hdecode]
                exact Option.some_ne_none _ ∘ Eq.symm
              refine safe_result ht.logged fun u hu => ⟨ht.trans hu, .unreadable ?_⟩
              cases happend : t.append with
              | none =>
                  have hmem : cycle ∈ t.committed := by
                    rw [← (hshown.settled happend).1]
                    simp
                  exact .inl ⟨cycle, hu.committed.subset hmem, hunreadable⟩
              | some append => exact .inr (hunder (by rw [happend]; rfl) u hu)
          | some cycle' =>
              obtain rfl := hfmt.decode hcycle.encode hdecode
              have hrest := ih (done ++ [cycle']) ht.logged (hdone.concat hshown hdecode)
              rw [LogFormat.cursorAfter_concat] at hrest
              change Safe _ _ _ _ (readRecords _ limit ⟨_, _, _⟩ >>= fun batch => pure (cycle' :: batch.1, batch.2)) t
              refine safe_bind (hrest.mono fun r u hr => hr.before ht fun _ _ => Delivered.before ht) fun batch u hu => ?_
              exact safe_result hu.later.logged fun v hv => (hu.extend hv).cons

/-! ## A read -/

/-- The marker was not there at some time. -/
def Unmarked (fmt : LogFormat O) (s t : Log O) : Prop :=
  ∃ u, Later fmt s u ∧ u.shared.invalidMarker = false ∧ Later fmt u t

lemma safe_rejectInvalidMarker (ht : Later fmt s t) :
    Safe (readers faults) (parties fmt) true (Outcome fmt faults s fun _ => Unmarked fmt t) rejectInvalidMarker t := by
  refine safe_call_read ht fun u hu => ?_
  change Safe _ _ _ _ (check (require (!u.shared.invalidMarker) _)) u
  cases hmarker : u.shared.invalidMarker with
  | false => exact safe_result hu.logged fun v hv => ⟨u, hu, hmarker, hv⟩
  | true =>
      have hunder := (ht.trans hu).append (hu.logged.append_of_marked hmarker)
      exact safe_result hu.logged fun v hv => ⟨ht.trans (hu.trans hv), .marked (hunder.later hv)⟩

/-- The record before the cursor is what it was. -/
lemma safe_readAnchor (hfmt : fmt.Lawful) {done : List (ObservationCycle O)} (ht : Later fmt s t)
    (hplaced : Placed fmt done t) :
    Safe (readers faults) (parties fmt) true (Outcome fmt faults s fun _ => Later fmt t)
      (readAnchor fmt.toRecordFormat (fmt.cursorAfter done)) t := by
  unfold readAnchor
  rcases List.eq_nil_or_concat done with rfl | ⟨done, last, rfl⟩
  · exact safe_result ht.logged fun u hu => hu
  · rw [List.concat_eq_append] at hplaced ⊢
    have hlast : fmt.Fits last := hplaced.fits last (by simp)
    have hpos := hlast.pos hfmt
    rw [LogFormat.cursorAfter_concat, if_neg (by dsimp only; omega)]
    refine safe_call_read ht fun u hu => ?_
    obtain ⟨rest, torn, hshown, -⟩ := (hplaced.later hu).exists_rest hfmt hu.logged
    have hdrop : u.shared.bytes.drop (fmt.cursorAfter done).offset = fmt.record last ++ (fmt.records rest ++ torn) := by
      rw [hshown.bytes, LogFormat.offset_cursorAfter, LogFormat.records_append, LogFormat.records_append,
        LogFormat.records_singleton, List.append_assoc, List.append_assoc, List.drop_left]
    change Safe _ _ _ _ (check (fmt.checkAnchor _ (readLine (maxRecordBytes + 1) (u.shared.bytes.drop _)))) u
    obtain ⟨line, hline, -⟩ := hlast.line hfmt
    have hend : (fmt.record last).getLast? = some newline := by rw [hline, List.getLast?_concat]
    rw [hdrop, readLine_record hfmt hlast, RecordFormat.checkAnchor, hend]
    simp only [decide_true, Bool.and_self, require_true]
    exact safe_result hu.logged fun v hv => hu.trans hv

lemma safe_readOpened (hfmt : fmt.Lawful) {done : List (ObservationCycle O)} (limit : ℕ) (ht : Later fmt s t)
    (hplaced : Placed fmt done t) :
    Safe (readers faults) (parties fmt) true (Outcome fmt faults s (Delivered fmt done limit s))
      (readOpened fmt.toRecordFormat (fmt.cursorAfter done) limit) t := by
  refine safe_bind (safe_readAnchor hfmt ht hplaced) fun _ u hu => ?_
  have hsu := ht.trans hu
  exact (safe_readRecords hfmt limit done hu.logged (hplaced.later hu)).mono fun r v hr =>
    hr.before hsu fun _ _ => Delivered.before hsu

/-- What a read returns: its records, and all of them are committed. -/
structure Returned (fmt : LogFormat O) (done : List (ObservationCycle O)) (limit : ℕ) (s : Log O)
    (batch : List (ObservationCycle O) × LogCursor) (t : Log O) : Prop extends Delivered fmt done limit s batch t where
  committed : done ++ batch.1 <+: t.committed

lemma Returned.extend {done : List (ObservationCycle O)} {limit : ℕ} {batch : List (ObservationCycle O) × LogCursor}
    (h : Returned fmt done limit s batch t) (hlater : Later fmt t u) : Returned fmt done limit s batch u :=
  ⟨h.toDelivered.extend hlater, h.committed.trans hlater.committed⟩

/-- Records that were read before the marker was not there are committed. -/
lemma Placed.committed (hfmt : fmt.Lawful) {done : List (ObservationCycle O)} (h : Placed fmt done s)
    (hunmarked : Unmarked fmt s t) : done <+: t.committed := by
  obtain ⟨u, hu, hmarker, ht⟩ := hunmarked
  have hbytes := (h.later hu).bytes
  rw [hu.logged.bytes_of_unmarked hmarker, ← List.append_nil (fmt.records u.committed)] at hbytes
  exact (prefix_of_records hfmt h.fits h.readable hu.logged.fits List.not_mem_nil hbytes).trans ht.committed

lemma Unmarked.later (h : Unmarked fmt s t) : Later fmt s t := by
  obtain ⟨u, hu, -, ht⟩ := h
  exact hu.trans ht

/-- A log without a file has no records. -/
lemma Placed.eq_nil_of_missing (hfmt : fmt.Lawful) {done : List (ObservationCycle O)} (h : Placed fmt done s)
    (hs : Logged fmt s) (hmissing : s.shared.content = none) : done = [] ∧ s.committed = [] := by
  obtain ⟨rest, torn, hshown, -⟩ := h.exists_rest hfmt hs
  have hnil : fmt.records (done ++ rest) = [] := by
    have hbytes := hshown.bytes
    rw [Shared.bytes, hmissing, Option.getD_none] at hbytes
    exact (List.append_eq_nil_iff.mp hbytes.symm).1
  have hvisible : done ++ rest = [] := by
    rw [List.eq_nil_iff_forall_not_mem]
    intro cycle hmem
    have hpos := (hshown.fits cycle hmem).pos hfmt
    rw [List.flatMap_eq_nil_iff.mp hnil cycle hmem] at hpos
    exact absurd hpos (lt_irrefl 0)
  have hcommitted := hshown.committed
  rw [hvisible, List.prefix_nil] at hcommitted
  exact ⟨(List.append_eq_nil_iff.mp hvisible).1, hcommitted⟩

lemma safe_readFiles (hfmt : fmt.Lawful) {done : List (ObservationCycle O)} (limit : ℕ) (hs : Logged fmt s)
    (hplaced : Placed fmt done s) :
    Safe (readers faults) (parties fmt) true (Outcome fmt faults s (Returned fmt done limit s))
      (readFiles fmt.toRecordFormat (fmt.cursorAfter done) limit) s := by
  unfold readFiles
  refine safe_bind (safe_rejectInvalidMarker (.refl hs)) fun _ t hunmarked => ?_
  have ht := hunmarked.later
  refine safe_call_read ht fun u hu => ?_
  have hsu := ht.trans hu
  change Safe _ _ _ _ (if u.shared.content.isSome = true then _ else _) u
  split
  · -- The log is there: the marker is looked for again at the end.
    refine safe_bind (safe_readOpened hfmt limit hsu (hplaced.later hsu)) fun batch v hv => ?_
    refine safe_bind (safe_rejectInvalidMarker hv.later) fun _ w hw => ?_
    refine safe_result hw.later.logged fun x hx => ⟨hv.extend (hw.later.trans hx), ?_⟩
    exact (hv.placed.committed hfmt hw).trans hx.committed
  · -- There is no log yet, and there are no records.
    rename_i hmissing
    obtain ⟨rfl, hnone⟩ := (hplaced.later hsu).eq_nil_of_missing hfmt hu.logged (Option.not_isSome_iff_eq_none.mp hmissing)
    refine safe_bind (safe_rejectInvalidMarker hsu) fun _ v hv => ?_
    refine safe_result hv.later.logged fun w hw => ⟨?_, List.nil_prefix⟩
    refine (hplaced.later (hsu.trans (hv.later.trans hw))).delivered_nil (hsu.trans (hv.later.trans hw)) fun _ => ?_
    rw [← hnone]
    exact hsu.committed

/-- The result of a read: what it returns, or an excuse. -/
def ReadOutcome (fmt : LogFormat O) (faults : Prop) (done : List (ObservationCycle O)) (limit : ℕ) (s : Log O) :
    Except CollectError (List (ObservationCycle O) × LogCursor) → Log O → Prop
  | .ok batch, t => Returned fmt done limit s batch t
  | .error error, t => Later fmt s t ∧ ∃ cause, Excuse fmt faults s t cause ∧ error = asCorruption cause

/-- **A read** from the cursor behind records that were read. -/
theorem safe_readBatch (hfmt : fmt.Lawful) {done : List (ObservationCycle O)} {limit : ℕ} (hlimit : 1 ≤ limit ∧ limit ≤ 1000)
    (hs : Logged fmt s) (hplaced : Placed fmt done s) :
    Safe (readers faults) (parties fmt) true (ReadOutcome fmt faults done limit s)
      (readBatch fmt.toRecordFormat (fmt.cursorAfter done) limit) s := by
  have hvalid := LogFormat.isValid_cursorAfter hfmt hplaced.fits hlimit
  unfold readBatch
  rw [hvalid]
  change Safe _ _ _ _ (handle (readFiles _ _ _) _) s
  refine Safe.andThen ((safe_readFiles hfmt limit hs hplaced).mono fun r t hr => ?_)
  cases r with
  | ok batch => exact safe_result hr.later.logged fun u hu => hr.extend hu
  | error error =>
      refine safe_result hr.1.logged fun u hu => ⟨hr.1.trans hu, error, ?_, rfl⟩
      exact hr.2.mono hu.committed fun h => h.later hu

/-! ## Runs of a reader -/

/-- A whole call of `read_batch`, with steps of appends between its calls on files.
Source: `observations.py` `JsonlObservationRepository.read_batch`. -/
abbrev ReadRun (fmt : LogFormat O) (faults : Prop) (cursor : LogCursor) (limit : ℕ) (s : Log O) :
    Except CollectError (List (ObservationCycle O) × LogCursor) → Log O → Prop :=
  Amid (readers faults true) (AppendStep fmt) (readBatch fmt.toRecordFormat cursor limit) s

/-- A log, and a reader of it: the cycles it was given, its cursor, and all the cursors that were returned. -/
structure Reader (O : Type) where
  log : Log O
  delivered : List (ObservationCycle O) := []
  cursor : LogCursor := {}
  returned : List LogCursor := []

/-- What happens next. -/
inductive ReaderStep where
  | append
  | read (limit : ℕ)

/-- Appends go on; the reader reads from the cursor that the last call returned. A call that raises returns nothing. -/
inductive Reader.Step (fmt : LogFormat O) (s : Reader O) : ReaderStep → Reader O → Prop where
  | append {t : Log O} (h : AppendStep fmt s.log t) : Step fmt s .append { s with log := t }
  | returned {limit : ℕ} {cycles : List (ObservationCycle O)} {next : LogCursor} {t : Log O}
      (hlimit : 1 ≤ limit ∧ limit ≤ 1000) (h : ReadRun fmt True s.cursor limit s.log (.ok (cycles, next)) t) :
      Step fmt s (.read limit) ⟨t, s.delivered ++ cycles, next, next :: s.returned⟩
  | raised {limit : ℕ} {error : CollectError} {t : Log O} (hlimit : 1 ≤ limit ∧ limit ≤ 1000)
      (h : ReadRun fmt True s.cursor limit s.log (.error error) t) : Step fmt s (.read limit) { s with log := t }

/-- A log without records, and a reader that starts from `(0, 0, null)`. -/
def cursorReads (fmt : LogFormat O) : System (Reader O) ReaderStep where
  init s := ∃ content, (content = none ∨ content = some []) ∧
    s = { log := { shared := { content := content, db := { tables := .empty } } } }
  step := Reader.Step fmt

lemma Reader.reachable_appends {s : Reader O} (h : (cursorReads fmt).Reachable s) {log : Log O}
    (happends : Relation.ReflTransGen (AppendStep fmt) s.log log) : (cursorReads fmt).Reachable { s with log := log } := by
  induction happends with
  | refl => exact h
  | tail _ hstep ih => exact ih.step (a := .append) (Reader.Step.append hstep)

/-- A call from the cursor behind records that were read ends as its safety says. -/
lemma ReadRun.outcome (hfmt : fmt.Lawful) {done : List (ObservationCycle O)} {limit : ℕ}
    (hlimit : 1 ≤ limit ∧ limit ≤ 1000) (hs : Logged fmt s) (hplaced : Placed fmt done s)
    {result : Except CollectError (List (ObservationCycle O) × LogCursor)}
    (h : ReadRun fmt faults (fmt.cursorAfter done) limit s result t) : ReadOutcome fmt faults done limit s result t :=
  (safe_readBatch hfmt hlimit hs hplaced).amid (fun _ _ hstep => ⟨false, Bool.false_ne_true, hstep⟩) h

/-- The invariant: the cycles that were given are the first ones of those that were committed, and every cursor that was
returned stands behind some of these. -/
structure Reader.Sound (fmt : LogFormat O) (s : Reader O) : Prop where
  logged : Logged fmt s.log
  placed : Placed fmt s.delivered s.log
  committed : s.delivered <+: s.log.committed
  cursor : s.cursor = fmt.cursorAfter s.delivered
  returned : ∀ cursor ∈ s.returned, ∃ done, done <+: s.delivered ∧ cursor = fmt.cursorAfter done

lemma Placed.of_isPrefix {done cycles : List (ObservationCycle O)} (h : Placed fmt cycles s) (hdone : done <+: cycles) :
    Placed fmt done s := by
  obtain ⟨rest, rfl⟩ := hdone
  refine ⟨fun c hc => h.fits c (List.mem_append_left _ hc), fun c hc => h.readable c (List.mem_append_left _ hc), ?_⟩
  have hbytes := h.bytes
  rw [LogFormat.records_append] at hbytes
  exact (List.prefix_append _ _).trans hbytes

lemma Reader.Step.sound (hfmt : fmt.Lawful) {s t : Reader O} {label : ReaderStep} (h : Reader.Step fmt s label t)
    (hs : s.Sound fmt) : t.Sound fmt := by
  obtain ⟨hlogged, hplaced, hcommitted, hcursor, hreturned⟩ := hs
  cases h with
  | append h =>
      have hlater := h.later hlogged
      exact ⟨hlater.logged, hplaced.later hlater, hcommitted.trans hlater.committed, hcursor, hreturned⟩
  | @returned limit cycles next log hlimit h =>
      rw [hcursor] at h
      obtain hbatch : Returned fmt s.delivered limit s.log (cycles, next) log := h.outcome hfmt hlimit hlogged hplaced
      refine ⟨hbatch.later.logged, hbatch.placed, hbatch.committed, hbatch.cursor, fun cursor hmem => ?_⟩
      rcases List.mem_cons.mp hmem with rfl | hmem
      · exact ⟨_, List.prefix_rfl, hbatch.cursor⟩
      · obtain ⟨done, hdone, hcursor'⟩ := hreturned cursor hmem
        exact ⟨done, hdone.trans (List.prefix_append _ _), hcursor'⟩
  | @raised limit error log hlimit h =>
      rw [hcursor] at h
      obtain ⟨hlater, -⟩ : ReadOutcome fmt True s.delivered limit s.log (.error error) log :=
        h.outcome hfmt hlimit hlogged hplaced
      exact ⟨hlater.logged, hplaced.later hlater, hcommitted.trans hlater.committed, hcursor, hreturned⟩

theorem Reader.sound (hfmt : fmt.Lawful) {s : Reader O} (h : (cursorReads fmt).Reachable s) : s.Sound fmt := by
  refine h.invariant (I := Reader.Sound fmt) (fun s hinit => ?_) fun _ _ _ hs hstep => Reader.Step.sound hfmt hstep hs
  obtain ⟨content, hcontent, rfl⟩ := hinit
  have hbytes : ({ content := content, db := { tables := .empty } } : Shared O).bytes = [] := by
    rcases hcontent with rfl | rfl <;> rfl
  refine ⟨.idle (by simp) rfl rfl hbytes, ⟨by simp, by simp, ?_⟩, List.prefix_rfl, rfl, by simp⟩
  exact List.nil_prefix

/-! ## Undisturbed reads -/

/-- A whole call of `read_batch` while no append goes on. -/
abbrev QuietRun (fmt : LogFormat O) (faults : Prop) (cursor : LogCursor) (limit : ℕ) (s : Log O) :
    Except CollectError (List (ObservationCycle O) × LogCursor) → Log O → Prop :=
  Amid (readers faults true) (fun _ _ => False) (readBatch fmt.toRecordFormat cursor limit) s

/-- It leaves the log alone. -/
lemma QuietRun.same {cursor : LogCursor} {limit : ℕ} {result : Except CollectError (List (ObservationCycle O) × LogCursor)}
    (h : QuietRun fmt faults cursor limit s result t) : t = s :=
  h.keeps (P := fun u => u = s) (fun _ _ _ _ hs hact => hact.1.trans hs) (fun _ _ _ hstep => hstep.elim) rfl

/-- **A read that nothing disturbs returns**, when every committed record reads back. -/
theorem exists_quietRun (hfmt : fmt.Lawful) {done : List (ObservationCycle O)} {limit : ℕ}
    (hlimit : 1 ≤ limit ∧ limit ≤ 1000) (hs : Logged fmt s) (hplaced : Placed fmt done s) (hfree : s.append = none)
    (hreadable : ∀ cycle ∈ s.committed, fmt.Readable cycle) :
    ∃ batch, QuietRun fmt False (fmt.cursorAfter done) limit s (.ok batch) s := by
  obtain ⟨result, t, hrun⟩ : ∃ result t, QuietRun fmt False (fmt.cursorAfter done) limit s result t :=
    exists_amid (fun op s => ⟨_, s, rfl, .inl rfl⟩) _ _
  obtain rfl := QuietRun.same hrun
  have houtcome : ReadOutcome fmt False done limit t result t :=
    (safe_readBatch hfmt hlimit hs hplaced).amid (fun _ _ hstep => hstep.elim) hrun
  cases result with
  | ok batch => exact ⟨batch, hrun⟩
  | error error =>
      obtain ⟨-, cause, hcause, -⟩ := houtcome
      have hquiet : ¬ UnderWay t t := by
        rintro (happend | hlt)
        · rw [hfree] at happend
          cases happend
        · exact absurd hlt (lt_irrefl _)
      exfalso
      cases hcause with
      | fault h => exact h
      | marked h => exact hquiet h
      | torn h => exact hquiet h
      | unreadable h =>
          rcases h with ⟨cycle, hcycle, hno⟩ | h
          · exact hno (hreadable cycle hcycle)
          · exact hquiet h

/-- It is a call between whose calls on files nothing happens to happen. -/
lemma QuietRun.readRun {cursor : LogCursor} {limit : ℕ}
    {result : Except CollectError (List (ObservationCycle O) × LogCursor)} (h : QuietRun fmt False cursor limit s result t) :
    ReadRun fmt True cursor limit s result t := by
  refine Amid.mono (fun op s reply t hact => ?_) (fun _ _ hstep => hstep.elim) h
  exact ⟨hact.1, hact.2.imp id fun hfault => hfault.1.elim⟩

/-- **A reader that nothing disturbs catches up** by one call, when its limit is above what it did not read. -/
theorem Reader.Sound.exists_caughtUp (hfmt : fmt.Lawful) {s : Reader O} (hs : s.Sound fmt) (hfree : s.log.append = none)
    (hreadable : ∀ cycle ∈ s.log.committed, fmt.Readable cycle) {limit : ℕ} (hlimit : 1 ≤ limit ∧ limit ≤ 1000)
    (hfew : s.log.committed.length < s.delivered.length + limit) :
    ∃ t, Reader.Step fmt s (.read limit) t ∧ t.log = s.log ∧ t.delivered = s.log.committed := by
  obtain ⟨⟨cycles, next⟩, hrun⟩ := exists_quietRun hfmt hlimit hs.logged hs.placed hfree hreadable
  have hread := hrun.readRun
  obtain hbatch : Returned fmt s.delivered limit s.log (cycles, next) s.log :=
    ReadRun.outcome hfmt hlimit hs.logged hs.placed hread
  have hlength : s.delivered.length + cycles.length ≤ s.log.committed.length := by
    rw [← List.length_append]
    exact hbatch.committed.length_le
  have hall := hbatch.caughtUp (show cycles.length < limit by omega)
  rw [← hs.cursor] at hread
  exact ⟨_, .returned hlimit hread, rfl, (hall.eq_of_length_le hbatch.committed.length_le).symm⟩

/-! ## A log that was changed -/

/-- The bytes of the record before the cursor. -/
def LogCursor.anchor (cursor : LogCursor) (bytes : List UInt8) : List UInt8 :=
  (bytes.take cursor.offset).drop cursor.anchorStart

/-- A part of a read raises, or goes on. -/
def Refuses {α : Type} (s : Log O) (P : α → Prop) : Except CollectError α → Log O → Prop
  | .ok a, t => t = s ∧ P a
  | .error error, _ => ∃ message, asCorruption error = .alert (.corruption message)

/-- Nothing happens to the log. -/
def still (_ : Bool) (s t : Log O) : Prop := t = s

lemma eq_of_still (h : Others still true s t) : t = s := by
  induction h with
  | refl => rfl
  | tail _ hstep ih =>
      obtain ⟨j, -, hstep⟩ := hstep
      exact Eq.trans hstep ih

section refusals

variable {α β : Type} {P : α → Prop} {P' : β → Prop}

lemma refuses_result {result : Except CollectError α} (h : Refuses s P result s) :
    Safe (readers faults) still true (Refuses s P) (.done result) s := by
  intro t ht
  rw [eq_of_still ht]
  exact h

lemma refuses_call {op : Op O} {f : op.Value → Action O α}
    (h : Safe (readers faults) still true (Refuses s P) (onValue f (files op s.shared).1) s) :
    Safe (readers faults) still true (Refuses s P) (call op >>= f) s := by
  intro t ht reply u hact
  rw [eq_of_still ht] at hact ⊢
  obtain ⟨rfl, rfl | ⟨-, rfl⟩⟩ := hact
  · exact ⟨rfl, h⟩
  · exact ⟨rfl, refuses_result ⟨_, rfl⟩⟩

lemma refuses_require {condition : Bool} {message : String} :
    Safe (readers faults) still true (Refuses s fun _ => condition = true)
      (check (require condition (.corruption message)) : Action O Unit) s := by
  refine refuses_result ?_
  cases condition with
  | true => exact ⟨rfl, rfl⟩
  | false => exact ⟨message, rfl⟩

lemma refuses_bind {p : Action O α} {f : α → Action O β} (h : Safe (readers faults) still true (Refuses s P) p s)
    (hf : ∀ a, P a → Safe (readers faults) still true (Refuses s P') (f a) s) :
    Safe (readers faults) still true (Refuses s P') (p >>= f) s := by
  refine Safe.bind (h.mono fun r u hr => ?_)
  cases r with
  | ok a =>
      obtain ⟨rfl, ha⟩ := hr
      exact hf a ha
  | error error => exact fun v _ => hr

end refusals

lemma refuses_rejectInvalidMarker :
    Safe (readers faults) still true (Refuses s fun _ => s.shared.invalidMarker = false) rejectInvalidMarker s := by
  refine refuses_call (refuses_require.mono fun r t hr => ?_)
  cases r with
  | ok _ => exact ⟨hr.1, by simpa using hr.2⟩
  | error error => exact hr

/-- The record in front of the cursor is not what it was, so it is refused: equal digests would make it the same. -/
lemma refuses_readAnchor (hinjective : Function.Injective fmt.recordSha256) {cursor : LogCursor} {anchor : List UInt8}
    (hsha : cursor.anchorSha256 = some (fmt.recordSha256 anchor)) (hoffset : cursor.offset ≠ 0)
    (hchanged : cursor.anchor s.shared.bytes ≠ anchor) :
    Safe (readers faults) still true (Refuses s fun _ => False) (readAnchor fmt.toRecordFormat cursor) s := by
  unfold readAnchor
  rw [if_neg hoffset]
  refine refuses_call (refuses_require.mono fun r t hr => ?_)
  cases r with
  | error error => exact hr
  | ok u =>
      obtain ⟨rfl, hok⟩ := hr
      simp only [Bool.and_eq_true, decide_eq_true_eq] at hok
      obtain ⟨⟨hlength, -⟩, hdigest⟩ := hok
      rw [hsha, Option.some.injEq] at hdigest
      obtain ⟨after, hafter⟩ := readLine_append (maxRecordBytes + 1) (t.shared.bytes.drop cursor.anchorStart)
      rw [← hinjective hdigest] at hafter hlength
      refine absurd ?_ hchanged
      rw [LogCursor.anchor, List.drop_take, hafter, ← hlength, Nat.add_sub_cancel_left, List.take_left]

/-- **A read from a cursor whose record changed raises.** -/
theorem refuses_readBatch (hinjective : Function.Injective fmt.recordSha256) {cursor : LogCursor} {anchor : List UInt8}
    (hsha : cursor.anchorSha256 = some (fmt.recordSha256 anchor)) (hoffset : cursor.offset ≠ 0)
    (hchanged : cursor.anchor s.shared.bytes ≠ anchor) (limit : ℕ)
    {result : Except CollectError (List (ObservationCycle O) × LogCursor)}
    (h : QuietRun fmt faults cursor limit s result t) : ∃ message, result = .error (.alert (.corruption message)) := by
  have hopened : Safe (readers faults) still true (Refuses s fun _ => False)
      (readOpened fmt.toRecordFormat cursor limit) s :=
    refuses_bind (refuses_readAnchor hinjective hsha hoffset hchanged) fun _ h => h.elim
  have hmissing : Safe (readers faults) still true (Refuses s fun _ => False) (readMissing (O := O) cursor) s := by
    refine refuses_bind refuses_rejectInvalidMarker fun _ _ => ?_
    refine refuses_bind refuses_require fun _ hzero => ?_
    exact absurd (of_decide_eq_true hzero) hoffset
  have hfiles : Safe (readers faults) still true (Refuses s fun _ => False)
      (readFiles fmt.toRecordFormat cursor limit) s := by
    refine refuses_bind refuses_rejectInvalidMarker fun _ _ => refuses_call ?_
    change Safe _ _ _ _ (if s.shared.content.isSome = true then _ else _) s
    split
    · exact refuses_bind hopened fun _ h => h.elim
    · exact hmissing
  have hbatch : Safe (readers faults) still true (fun r _ => ∃ message, r = .error (.alert (.corruption message)))
      (readBatch fmt.toRecordFormat cursor limit) s := by
    unfold readBatch
    cases cursor.isValid limit with
    | false => exact fun _ _ => ⟨_, rfl⟩
    | true =>
        change Safe _ _ _ _ (handle (readFiles _ _ _) _) s
        refine Safe.andThen (hfiles.mono fun r v hr => ?_)
        cases r with
        | ok batch => exact hr.2.elim
        | error error =>
            obtain ⟨message, hmessage⟩ := hr
            exact fun w _ => ⟨message, congrArg _ hmessage⟩
  exact hbatch.amid (fun _ _ hstep => hstep.elim) h

/-! ## The result -/

/-- The record in front of the last cycle that was read. -/
lemma Placed.anchor {done : List (ObservationCycle O)} {last : ObservationCycle O} (h : Placed fmt (done ++ [last]) s) :
    (fmt.cursorAfter (done ++ [last])).anchor s.shared.bytes = fmt.record last := by
  obtain ⟨more, hmore⟩ := h.bytes
  have htake : s.shared.bytes.take (fmt.cursorAfter (done ++ [last])).offset = fmt.records (done ++ [last]) := by
    rw [LogFormat.offset_cursorAfter, ← hmore, List.take_left]
  rw [LogCursor.anchor, htake, LogFormat.records_append, LogFormat.records_singleton, LogFormat.cursorAfter_concat]
  dsimp only
  rw [LogFormat.offset_cursorAfter, List.drop_left]

/-- Reading by a cursor loses nothing and repeats nothing. -/
structure CursorReading (fmt : LogFormat O) (s : Reader O) : Prop where
  /-- What was given are the first of the committed cycles, in order. -/
  delivered : s.delivered <+: s.log.committed
  /-- A call that returns fewer cycles than its limit gives all that were committed when it began; if none was committed
  meanwhile, the whole log. -/
  caughtUp : ∀ (limit : ℕ) (cycles : List (ObservationCycle O)) (next : LogCursor) (t : Log O), 1 ≤ limit ∧ limit ≤ 1000 →
    ReadRun fmt True s.cursor limit s.log (.ok (cycles, next)) t → cycles.length < limit →
      s.log.committed <+: s.delivered ++ cycles ∧
      (t.committed = s.log.committed → s.delivered ++ cycles = t.committed) ∧
      (s.delivered ++ cycles = t.committed → t.append = none → t.shared.readCycles fmt = .ok (s.delivered ++ cycles))
  /-- Whatever appends do, a call from a cursor that was returned raises only for reasons that are not its cursor. -/
  accepted : ∀ cursor ∈ {} :: s.returned, ∀ (limit : ℕ) (faults : Prop)
    (result : Except CollectError (List (ObservationCycle O) × LogCursor)) (t : Log O), 1 ≤ limit ∧ limit ≤ 1000 →
    ReadRun fmt faults cursor limit s.log result t →
      (∃ batch, result = .ok batch) ∨ ∃ cause, Excuse fmt faults s.log t cause ∧ result = .error (asCorruption cause)
  /-- When nothing disturbs it and the committed records read back, it returns. -/
  returns : ∀ cursor ∈ {} :: s.returned, ∀ limit : ℕ, 1 ≤ limit ∧ limit ≤ 1000 → s.log.append = none →
    (∀ cycle ∈ s.log.committed, fmt.Readable cycle) → ∃ batch, QuietRun fmt False cursor limit s.log (.ok batch) s.log
  /-- If the bytes of the record in front of the cursor change, the next call raises. -/
  changed : Function.Injective fmt.recordSha256 → ∀ cursor ∈ s.returned, 0 < cursor.offset → ∀ t : Log O,
    cursor.anchor t.shared.bytes ≠ cursor.anchor s.log.shared.bytes → ∀ (limit : ℕ)
    (result : Except CollectError (List (ObservationCycle O) × LogCursor)) (u : Log O),
    QuietRun fmt True cursor limit t result u → ∃ message, result = .error (.alert (.corruption message))
  /-- If the log is cut in front of the cursor, the next call raises. -/
  cut : Function.Injective fmt.recordSha256 → ∀ cursor ∈ s.returned, ∀ n < cursor.offset, ∀ t : Log O,
    t.shared.bytes = s.log.shared.bytes.take n → ∀ (limit : ℕ)
    (result : Except CollectError (List (ObservationCycle O) × LogCursor)) (u : Log O),
    QuietRun fmt True cursor limit t result u → ∃ message, result = .error (.alert (.corruption message))

/-- A log whose record in front of a cursor changed. -/
lemma Reader.Sound.changed {s : Reader O} (hs : s.Sound fmt) (hinjective : Function.Injective fmt.recordSha256)
    {cursor : LogCursor} (hcursor : cursor ∈ s.returned) (hoffset : 0 < cursor.offset) {t u : Log O}
    (hchanged : cursor.anchor t.shared.bytes ≠ cursor.anchor s.log.shared.bytes) {limit : ℕ}
    {result : Except CollectError (List (ObservationCycle O) × LogCursor)}
    (h : QuietRun fmt True cursor limit t result u) : ∃ message, result = .error (.alert (.corruption message)) := by
  obtain ⟨done, hdone, rfl⟩ := hs.returned cursor hcursor
  rcases List.eq_nil_or_concat done with rfl | ⟨done, last, rfl⟩
  · exact absurd hoffset (lt_irrefl 0)
  · rw [List.concat_eq_append] at hdone h hchanged hoffset
    rw [(hs.placed.of_isPrefix hdone).anchor] at hchanged
    refine refuses_readBatch hinjective ?_ (Nat.ne_of_gt hoffset) hchanged limit h
    rw [LogFormat.cursorAfter_concat]

lemma Reader.Sound.offset_le {s : Reader O} (hs : s.Sound fmt) {cursor : LogCursor} (hcursor : cursor ∈ s.returned) :
    cursor.offset ≤ s.log.shared.bytes.length := by
  obtain ⟨done, hdone, rfl⟩ := hs.returned cursor hcursor
  rw [LogFormat.offset_cursorAfter]
  exact (hs.placed.of_isPrefix hdone).bytes.length_le

lemma Reader.Sound.anchorStart_lt (hfmt : fmt.Lawful) {s : Reader O} (hs : s.Sound fmt) {cursor : LogCursor}
    (hcursor : cursor ∈ s.returned) (hoffset : 0 < cursor.offset) : cursor.anchorStart < cursor.offset := by
  obtain ⟨done, hdone, rfl⟩ := hs.returned cursor hcursor
  rcases List.eq_nil_or_concat done with rfl | ⟨done, last, rfl⟩
  · exact absurd hoffset (lt_irrefl 0)
  · rw [List.concat_eq_append] at hdone ⊢
    have hpos := ((hs.placed.of_isPrefix hdone).fits last (by simp)).pos hfmt
    rw [LogFormat.cursorAfter_concat]
    exact Nat.lt_add_of_pos_right hpos

/-- **Every reader that keeps its cursor** reads the log without loss and repetition. -/
theorem Reader.Sound.cursorReading (hfmt : fmt.Lawful) {s : Reader O} (hs : s.Sound fmt) : CursorReading fmt s := by
  have hplaced : ∀ cursor ∈ {} :: s.returned, ∃ done, Placed fmt done s.log ∧ cursor = fmt.cursorAfter done := by
    intro cursor hmem
    rcases List.mem_cons.mp hmem with rfl | hmem
    · exact ⟨[], hs.placed.of_isPrefix List.nil_prefix, rfl⟩
    · obtain ⟨done, hdone, hcursor⟩ := hs.returned cursor hmem
      exact ⟨done, hs.placed.of_isPrefix hdone, hcursor⟩
  refine ⟨hs.committed, fun limit cycles next t hlimit hrun hfew => ?_, fun cursor hmem limit faults result t hlimit hrun => ?_,
    fun cursor hmem limit hlimit hfree hreadable => ?_, fun hinjective cursor hmem hoffset t hchanged limit result u hrun =>
      hs.changed hinjective hmem hoffset hchanged hrun, fun hinjective cursor hmem n hn t hcut limit result u hrun => ?_⟩
  · rw [hs.cursor] at hrun
    obtain hbatch : Returned fmt s.delivered limit s.log (cycles, next) t :=
      ReadRun.outcome hfmt hlimit hs.logged hs.placed hrun
    have hall := hbatch.caughtUp hfew
    refine ⟨hall, fun hsame => ?_, fun hsame hfree => ?_⟩
    · refine hbatch.committed.eq_of_length_le ?_
      rw [hsame]
      exact hall.length_le
    · have hmarker : t.shared.invalidMarker = false := by
        by_contra hmarked
        have hbusy := hbatch.later.logged.append_of_marked (by simpa using hmarked)
        rw [hfree] at hbusy
        cases hbusy
      refine Shared.readCycles_records hfmt hmarker ?_ hbatch.placed.fits hbatch.placed.readable
      rw [hbatch.later.logged.bytes_of_unmarked hmarker, ← hsame]
  · obtain ⟨done, hdone, rfl⟩ := hplaced cursor hmem
    have houtcome := ReadRun.outcome hfmt hlimit hs.logged hdone hrun
    cases result with
    | ok batch => exact .inl ⟨batch, rfl⟩
    | error error =>
        obtain ⟨-, cause, hcause, rfl⟩ := houtcome
        exact .inr ⟨cause, hcause, rfl⟩
  · obtain ⟨done, hdone, rfl⟩ := hplaced cursor hmem
    exact exists_quietRun hfmt hlimit hs.logged hdone hfree hreadable
  · refine hs.changed hinjective hmem (Nat.zero_lt_of_lt hn) (fun hsame => ?_) hrun
    -- The record in front of the cursor ends behind the cut.
    have hlength := congrArg List.length hsame
    have hsize := hs.offset_le hmem
    have hstart := hs.anchorStart_lt hfmt hmem (Nat.zero_lt_of_lt hn)
    simp only [LogCursor.anchor, hcut, List.length_drop, List.length_take] at hlength
    omega

end MuStrategy.Notifications.ObservationFile
