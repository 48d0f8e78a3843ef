import MuStrategy.ManualPositions.Clients

/-!
# Crashes of the ledger

A request that writes goes through two steps that stay: the connection creates the file if there is none, and the
transaction commits. A crash ends it before, between or after them.

* `Crash`, `Call`, `Store.call` — a call and where it crashes.
* `Store.committed`, `Store.CrashSafe` — the ledger of what was committed; a file that serves reads and requests as that
  ledger does.
* `FirstWriteCommits` — the call does not leave a file without tables behind.
* `call_valid`, `call_file` — what one call does; `crashSafe_iff` — the file is safe after every call of a history
  exactly when no call leaves a file without tables.
-/

namespace MuStrategy.ManualPositions

open Lib

section crash

variable [DecimalDigits] [LedgerLibrary]

/-! ## Calls that crash -/

/-- Where a call crashes. -/
inductive Crash where
  | never
  /-- Before it opens the file to write. -/
  | beforeConnect
  /-- After the connection, before the commit: the transaction is lost. -/
  | beforeCommit
  /-- After the commit, before it returns. -/
  | afterCommit
  deriving DecidableEq

/-- A call on the ledger. -/
inductive Call where
  /-- `read`, which opens the file read-only. -/
  | read
  | request (r : Request) (crash : Crash)

/-- The file after the connection of a request. `save` connects to a path, which creates the file; the
confirmations connect with `mode=rw`, which does not. -/
def Prepared.connect (s : Store) : Prepared → Store
  | .fill .. => s.connected
  | .state .. | .management .. => s

/-- What a call leaves. -/
def Store.call (s : Store) : Call → Store
  | .read => s
  | .request r crash =>
      match s.start r with
      | .answered _ => s
      | .transaction p =>
          match crash with
          | .beforeConnect => s
          | .beforeCommit => p.connect s
          | .never | .afterCommit => (p.run s).1

/-- The file after a history of calls. -/
def storeAfter (calls : List Call) : Store := calls.foldl Store.call .absent

/-- The ledger of what was committed: without committed tables there is none. -/
def Store.committed : Store → Store
  | .file (some t) => .file (some t)
  | .absent | .file none => .absent

/-- Reading returns what was committed, and a request that the ledger of it accepts is accepted. -/
structure Store.CrashSafe (s : Store) : Prop where
  reads : ∃ views, s.read = .ok views ∧ s.committed.read = .ok views
  accepts : ∀ r id, (s.committed.handle r).2 = .ok id → (s.handle r).2 = .ok id

/-- A call that starts the first transaction does not crash between its connection and its commit, and its clock
reading fits its column. -/
def FirstWriteCommits (s : Store) (c : Call) : Prop :=
  ∀ r crash p, c = .request r crash → s = .absent → s.start r = .transaction p → crash ≠ .beforeConnect →
    crash ≠ .beforeCommit ∧ r.nowMs < columnBound

/-! ## What one call does -/

variable {s : Store} {r : Request} {p : Prepared}

/-- A call that does not crash is the request. -/
lemma call_never (s : Store) (r : Request) : s.call (.request r .never) = (s.handle r).1 := by
  rw [handle_eq, Store.call, Store.serve]
  cases s.start r <;> rfl

lemma run_fst_eq (h : s.start r = .transaction p) : p.run s = s.handle r := by
  rw [handle_eq, Store.serve, h]

omit [DecimalDigits] [LedgerLibrary] in
lemma connect_tables (s : Store) (p : Prepared) : (p.connect s).tables = s.tables := by
  cases p <;> rfl

/-- What a call leaves: the file as it was, with the connection made, or after the request. -/
lemma call_cases (s : Store) (c : Call) : s.call c = s ∨
    ∃ r crash p, c = .request r crash ∧ s.start r = .transaction p ∧
      ((crash = .beforeCommit ∧ s.call c = p.connect s) ∨
        ((crash = .never ∨ crash = .afterCommit) ∧ s.call c = (s.handle r).1)) := by
  cases c with
  | read => exact .inl rfl
  | request r crash =>
      cases hstart : s.start r with
      | answered result => exact .inl (by simp only [Store.call, hstart])
      | transaction p =>
          have hrun := run_fst_eq hstart
          cases crash with
          | beforeConnect => exact .inl (by simp only [Store.call, hstart])
          | beforeCommit => exact .inr ⟨r, _, p, rfl, hstart, .inl ⟨rfl, by simp only [Store.call, hstart]⟩⟩
          | never =>
              exact .inr ⟨r, _, p, rfl, hstart, .inr ⟨.inl rfl, by simp only [Store.call, hstart, hrun]⟩⟩
          | afterCommit =>
              exact .inr ⟨r, _, p, rfl, hstart, .inr ⟨.inr rfl, by simp only [Store.call, hstart, hrun]⟩⟩

/-- Committed tables stay valid. -/
lemma call_valid (h : s.Valid) (c : Call) : (s.call c).Valid := by
  rcases call_cases s c with heq | ⟨r, crash, p, -, -, ⟨-, heq⟩ | ⟨-, heq⟩⟩
  · rwa [heq]
  · intro t ht
    rw [heq, connect_tables] at ht
    exact h t ht
  · rw [heq]
    have hout := handle_outcome (r := r) h
    generalize s.handle r = out at hout
    cases hout with
    | rejected e => exact h
    | emptied e => exact fun t ht => by cases ht
    | repeated id => exact h
    | committed t id ht => exact fun t' ht' => Option.some.inj ht' ▸ ht

/-- A file with tables keeps tables. -/
lemma call_file (h : s.Valid) {t : Tables} (hs : s = .file (some t)) (c : Call) : ∃ t', s.call c = .file (some t') := by
  rcases call_cases s c with heq | ⟨r, crash, p, -, -, ⟨-, heq⟩ | ⟨-, heq⟩⟩
  · exact ⟨t, heq.trans hs⟩
  · refine ⟨t, heq.trans ?_⟩
    subst hs
    cases p <;> rfl
  · rw [heq]
    have hout := handle_outcome (r := r) h
    generalize s.handle r = out at hout
    cases hout with
    | rejected e => exact ⟨t, hs⟩
    | emptied e habsent => cases habsent.symm.trans hs
    | repeated id => exact ⟨t, hs⟩
    | committed t' id => exact ⟨t', rfl⟩

/-- Without a file, only a request to save gets as far as a transaction. -/
lemma start_absent (h : Store.absent.start r = .transaction p) :
    ∃ request submission, r.method = .save ∧ p = .fill r.payload submission r.nowMs ∧
      checkFill .absent request r.payload r.nowMs r.entries = .ok submission := by
  unfold Store.start at h
  cases hmethod : r.method with
  | save =>
      simp only [hmethod, startFill] at h
      split at h
      · cases h
      · rename_i request hrequest
        have hsaved : savedFill .absent request = .ok none := rfl
        simp only [hsaved] at h
        split at h
        · cases h
        · rename_i submission hcheck
          cases h
          exact ⟨request, submission, rfl, rfl, hcheck⟩
  | saveState =>
      simp only [hmethod, prepareState] at h
      cases hrequest : requestIdentity r.payload with
      | error e => rw [hrequest] at h; cases h
      | ok request => rw [hrequest] at h; cases h
  | saveManagement =>
      simp only [hmethod, prepareManagement] at h
      cases hrequest : requestIdentity r.payload with
      | error e => rw [hrequest] at h; cases h
      | ok request => rw [hrequest] at h; cases h

/-- A clock reading that does not fit its column is not recorded. -/
lemma addFill_overflow {t : Tables} {payload : Payload} {submission : Submission} {nowMs : ℤ}
    (hnow : (columnBound : ℤ) ≤ nowMs) (t' : Tables) : addFill t payload submission nowMs ≠ .ok t' := by
  intro h
  simp only [addFill, bind_eq_ok] at h
  obtain ⟨views, -, dest, -, ⟨fillId, revision⟩, -, projection, -, rows, hinsert, -⟩ := h
  simp only [Tables.insertFill, bind_eq_ok, require_eq_ok, exists_const, Bool.and_eq_true, decide_eq_true_eq] at hinsert
  obtain ⟨⟨hfits, -⟩, -⟩ := hinsert
  omega

/-- Without a file, a transaction whose clock reading does not fit leaves an empty one. -/
lemma run_absent_overflow (h : Store.absent.start r = .transaction p) (hnow : (columnBound : ℤ) ≤ r.nowMs) :
    (p.run .absent).1 = .file none := by
  obtain ⟨request, submission, -, rfl, -⟩ := start_absent h
  have hcommit : commitFill Store.absent.tables r.payload submission r.nowMs =
      (addFill .empty r.payload submission r.nowMs >>= fun t => pure (submission.request.positionId, t)) := rfl
  cases hadd : addFill .empty r.payload submission r.nowMs with
  | ok t => exact absurd hadd (addFill_overflow hnow t)
  | error e =>
      rw [Prepared.run, hcommit, hadd]
      rfl

/-- The first write leaves an empty file exactly when it does not commit. -/
lemma call_absent_iff (c : Call) : Store.absent.call c = .file none ↔ ¬ FirstWriteCommits .absent c := by
  constructor
  · intro hempty hcommits
    rcases call_cases .absent c with heq | ⟨r, crash, p, rfl, hstart, ⟨rfl, -⟩ | ⟨hcrash, heq⟩⟩
    · cases heq.symm.trans hempty
    · exact (hcommits r _ p rfl rfl hstart (fun h => by cases h)).1 rfl
    · have hnow := (hcommits r crash p rfl rfl hstart (by rcases hcrash with rfl | rfl <;> decide)).2
      have hout := handle_outcome (r := r) (s := .absent) fun t ht => by cases ht
      rw [hempty] at heq
      generalize Store.absent.handle r = out at hout heq
      cases hout with
      | rejected e => cases heq
      | emptied e habsent hbound => exact absurd hnow (not_lt.mpr hbound)
      | repeated id => cases heq
      | committed t id => cases heq
  · intro hfails
    unfold FirstWriteCommits at hfails
    push Not at hfails
    obtain ⟨r, crash, p, rfl, -, hstart, hconnected, hfails⟩ := hfails
    obtain ⟨request, submission, -, rfl, -⟩ := start_absent hstart
    cases crash with
    | beforeConnect => exact absurd rfl hconnected
    | beforeCommit =>
        simp only [Store.call, hstart]
        rfl
    | never =>
        simp only [Store.call, hstart]
        exact run_absent_overflow hstart (hfails (by decide))
    | afterCommit =>
        simp only [Store.call, hstart]
        exact run_absent_overflow hstart (hfails (by decide))

/-! ## Histories -/

/-- A valid file is safe unless it has no tables. -/
lemma crashSafe_of_valid (h : s.Valid) (hs : s ≠ .file none) : s.CrashSafe := by
  cases s with
  | absent => exact ⟨⟨[], rfl, rfl⟩, fun r id hid => hid⟩
  | file tables =>
      cases tables with
      | none => exact absurd rfl hs
      | some t =>
          obtain ⟨views, hviews⟩ := (h t rfl).read
          exact ⟨⟨views, hviews, hviews⟩, fun r id hid => hid⟩

/-- A file without tables is not: reading it raises. -/
lemma not_crashSafe_empty : ¬ (Store.file none).CrashSafe := by
  rintro ⟨⟨views, hread, -⟩, -⟩
  cases hread

lemma storeAfter_valid (calls : List Call) : (storeAfter calls).Valid := by
  induction calls using List.reverseRecOn with
  | nil => exact fun t ht => by cases ht
  | append_singleton calls c ih =>
      rw [storeAfter, List.foldl_append]
      exact call_valid ih c

lemma storeAfter_take_succ {calls : List Call} {n : ℕ} {c : Call} (h : calls[n]? = some c) :
    storeAfter (calls.take (n + 1)) = (storeAfter (calls.take n)).call c := by
  rw [List.take_add_one, h, storeAfter, List.foldl_append]
  rfl

/-- **Crash safety of the first write**: after every call of a history, whatever crashes, the file serves reads and
requests as the ledger of what was committed does, exactly when every call that starts the first transaction gets to
its commit.
Source: `manual_positions.py` `ManualPositionLedger.read`, `save`, `save_state`. -/
theorem crashSafe_iff (calls : List Call) :
    (∀ n, (storeAfter (calls.take n)).CrashSafe) ↔
      ∀ n c, calls[n]? = some c → FirstWriteCommits (storeAfter (calls.take n)) c := by
  constructor
  · intro hsafe n c hc r crash p hcall habsent
    have hcommits : FirstWriteCommits .absent c := by
      by_contra hfails
      have hempty := (call_absent_iff c).mpr hfails
      have hnext := hsafe (n + 1)
      rw [storeAfter_take_succ hc, habsent, hempty] at hnext
      exact not_crashSafe_empty hnext
    rw [habsent]
    exact hcommits r crash p hcall rfl
  · intro hcommits n
    refine crashSafe_of_valid (storeAfter_valid _) ?_
    induction n with
    | zero => exact fun h => by cases h
    | succ n ih =>
        cases hc : calls[n]? with
        | none => rwa [List.take_add_one, hc, Option.toList_none, List.append_nil]
        | some c =>
            have hstep := hcommits n c hc
            rw [storeAfter_take_succ hc]
            have hvalid := storeAfter_valid (calls.take n)
            generalize storeAfter (calls.take n) = s at ih hstep hvalid
            cases s with
            | absent => exact fun hempty => (call_absent_iff c).mp hempty hstep
            | file tables =>
                cases tables with
                | none => exact absurd rfl ih
                | some t =>
                    obtain ⟨t', ht'⟩ := call_file hvalid rfl c
                    rw [ht']
                    exact fun hempty => by cases hempty

end crash

/-! ## A first write that crashes -/

section concrete

attribute [local instance] asciiDigits noConfigurations

/-- A first buy. -/
def firstBuy : Request := demoFill "1" [("command", "create"), ("action", "buy"), ("quantity", "2"),
  ("symbol", "MU-USDT-SWAP"), ("executed_at", "2026-01-01T09:00")]

/-- It crashes after the file was created. -/
def crashedCreate : Call := .request firstBuy .beforeCommit

/-- Nothing was committed; reading raises, and the buy is refused when it is sent again. -/
theorem crashedCreate_unsafe : ¬ (∀ n, (storeAfter ([crashedCreate].take n)).CrashSafe) ∧
    (storeAfter [crashedCreate]).read.isOk = false ∧ ((storeAfter [crashedCreate]).handle firstBuy).2.isOk = false := by
  have hexists : (storeAfter [crashedCreate]).exists? = true := by decide +kernel
  have htables : (storeAfter [crashedCreate]).tables.isNone = true := by decide +kernel
  have hempty : storeAfter [crashedCreate] = .file none := by
    generalize storeAfter [crashedCreate] = s at hexists htables
    cases s with
    | absent => cases hexists
    | file tables =>
        obtain rfl := Option.isNone_iff_eq_none.mp htables
        rfl
  refine ⟨fun hsafe => ?_, by rw [hempty]; rfl, by rw [hempty]; decide +kernel⟩
  have h := hsafe 1
  rw [List.take_succ_cons, List.take_zero, hempty] at h
  exact not_crashSafe_empty h

end concrete

end MuStrategy.ManualPositions
