import MuStrategy.Notifications.Changes

/-!
# The lifecycle of an entry

An entry is active in the stream of its symbol until it is withdrawn, once, by an event that names it; the counter of a
stream numbers its entries.

* `entriesOf`, `withdrawalsOf` — the entries of a symbol, and the withdrawals of an entry.
* `Lifecycle` — how entries, withdrawals and streams belong together.
* `Tracked` — the invariant; `Change.tracked`, `Tracked.delivers` — collections and deliveries keep it.
* `DistinctTransitions` — what it assumes of the digests: two transitions of a signal have two identities.
-/

namespace MuStrategy.Notifications

open Lib

variable {O : Type} [StageObservation O]

/-! ## Entries and withdrawals -/

/-- An entry of a symbol. -/
def OutboxRow.isEntryOf (symbol : String) (row : OutboxRow O) : Bool :=
  row.payload.kind = .entryReview && row.payload.observation.any fun o => StageObservation.symbol o = symbol

omit [StageObservation O] in
/-- A withdrawal of an entry. -/
def OutboxRow.isWithdrawalOf (eventId : HexDigest) (row : OutboxRow O) : Bool :=
  row.payload.kind = .signalInvalidated && row.payload.relatedEventId = some eventId

namespace Database

variable (db : Database O)

/-- The entries of a symbol, oldest first. -/
def entriesOf (symbol : String) : List (OutboxRow O) := db.outbox.filter (OutboxRow.isEntryOf symbol)

omit [StageObservation O] in
/-- The withdrawals of an entry. -/
def withdrawalsOf (eventId : HexDigest) : List (OutboxRow O) := db.outbox.filter (OutboxRow.isWithdrawalOf eventId)

variable {db} {db' : Database O} {symbol : String} {eventId : HexDigest} {row : OutboxRow O}

lemma mem_entriesOf : row ∈ db.entriesOf symbol ↔ row ∈ db.outbox ∧ row.payload.kind = .entryReview ∧
    ∃ o, row.payload.observation = some o ∧ StageObservation.symbol o = symbol := by
  simp only [entriesOf, OutboxRow.isEntryOf, List.mem_filter, Bool.and_eq_true, decide_eq_true_eq, Option.any_eq_true]

omit [StageObservation O] in
lemma mem_withdrawalsOf : row ∈ db.withdrawalsOf eventId ↔
    row ∈ db.outbox ∧ row.payload.kind = .signalInvalidated ∧ row.payload.relatedEventId = some eventId := by
  simp only [withdrawalsOf, OutboxRow.isWithdrawalOf, List.mem_filter, Bool.and_eq_true, decide_eq_true_eq]

section moved

variable {g : OutboxRow O → OutboxRow O}

omit [StageObservation O] in
/-- Rows that keep their payload are selected by it as before. -/
lemma filter_moved {p : OutboxRow O → Bool} (hg : ∀ r ∈ db.outbox, (g r).payload = r.payload)
    (hp : ∀ r r' : OutboxRow O, r'.payload = r.payload → p r' = p r) (hout : db'.outbox = db.outbox.map g) :
    db'.outbox.filter p = (db.outbox.filter p).map g := by
  rw [hout, List.filter_map]
  exact congrArg (List.map g) (List.filter_congr fun r hr => hp r (g r) (hg r hr))

lemma entriesOf_moved (hg : ∀ r ∈ db.outbox, (g r).payload = r.payload) (hout : db'.outbox = db.outbox.map g) :
    db'.entriesOf symbol = (db.entriesOf symbol).map g :=
  filter_moved hg (fun r r' h => by unfold OutboxRow.isEntryOf; rw [h]) hout

omit [StageObservation O] in
lemma withdrawalsOf_moved (hg : ∀ r ∈ db.outbox, (g r).payload = r.payload) (hout : db'.outbox = db.outbox.map g) :
    db'.withdrawalsOf eventId = (db.withdrawalsOf eventId).map g :=
  filter_moved hg (fun r r' h => by unfold OutboxRow.isWithdrawalOf; rw [h]) hout

end moved

section added

lemma entriesOf_added (hout : db'.outbox = db.outbox ++ [row]) :
    db'.entriesOf symbol = db.entriesOf symbol ++ if row.isEntryOf symbol then [row] else [] := by
  rw [entriesOf, hout, List.filter_append, List.filter_singleton, Bool.cond_eq_ite]
  rfl

omit [StageObservation O] in
lemma withdrawalsOf_added (hout : db'.outbox = db.outbox ++ [row]) :
    db'.withdrawalsOf eventId = db.withdrawalsOf eventId ++ if row.isWithdrawalOf eventId then [row] else [] := by
  rw [withdrawalsOf, hout, List.filter_append, List.filter_singleton, Bool.cond_eq_ite]
  rfl

end added

end Database

/-! ## The lifecycle -/

/-- How entries, withdrawals and streams belong together. -/
structure Lifecycle (store : AlertStore O) : Prop where
  /-- The active event of a stream is an entry of its symbol, which was not withdrawn. -/
  active : ∀ symbol eventId, (store.streamOf symbol).activeEventId = some eventId →
    (∃ row ∈ store.delivery.entriesOf symbol, row.eventId = eventId) ∧ store.delivery.withdrawalsOf eventId = []
  /-- A stream has an active event exactly when it has a key. -/
  key : ∀ symbol, (store.streamOf symbol).activeEventId = none ↔ (store.streamOf symbol).signalKey = none
  /-- An entry is that of a symbol: it is active, and was not withdrawn, or it is suppressed, and was withdrawn once. -/
  entry : ∀ row ∈ store.delivery.outbox, row.payload.kind = .entryReview → ∃ symbol,
    row ∈ store.delivery.entriesOf symbol ∧
      (((store.streamOf symbol).activeEventId = some row.eventId ∧ store.delivery.withdrawalsOf row.eventId = []) ∨
        (row.suppressedReason.isSome ∧ (store.delivery.withdrawalsOf row.eventId).length = 1))
  /-- At most one entry of a symbol was not withdrawn. -/
  one : ∀ symbol, ∀ row ∈ store.delivery.entriesOf symbol, ∀ row' ∈ store.delivery.entriesOf symbol,
    store.delivery.withdrawalsOf row.eventId = [] → store.delivery.withdrawalsOf row'.eventId = [] → row = row'
  /-- A withdrawal names an entry. -/
  withdrawal : ∀ row ∈ store.delivery.outbox, row.payload.kind = .signalInvalidated →
    ∃ entry ∈ store.delivery.outbox, entry.payload.kind = .entryReview ∧ row.payload.relatedEventId = some entry.eventId
  /-- The counter of a stream is the number of the entries of its symbol. -/
  counter : ∀ symbol, (store.streamOf symbol).counter = (store.delivery.entriesOf symbol).length

variable [Sha256]

/-- Two transitions of a signal, up to the counter of its symbol, have two identities. -/
def DistinctTransitions (store : AlertStore O) : Prop :=
  ∀ row ∈ store.delivery.outbox, ∀ o key, row.payload.observation = some o → signalKey o = some key →
    ∀ m n, 1 ≤ m → m < n → n ≤ (store.streamOf (StageObservation.symbol o)).counter →
      entryIdentity key m ≠ entryIdentity key n

/-! ## The invariant -/

/-- The lifecycle, with what keeps it going: an entry is a numbered transition of the signal of its observation, and
the withdrawal of an entry is mailed unless the entry stays unseen. -/
structure Tracked (store : AlertStore O) : Prop where
  sound : Sound store
  active : ∀ symbol eventId, (store.streamOf symbol).activeEventId = some eventId →
    (∃ row ∈ store.delivery.entriesOf symbol, row.eventId = eventId) ∧ store.delivery.withdrawalsOf eventId = []
  entry : ∀ symbol, ∀ row ∈ store.delivery.entriesOf symbol, (store.streamOf symbol).activeEventId = some row.eventId ∨
    (row.suppressedReason.isSome ∧ (store.delivery.withdrawalsOf row.eventId).length = 1)
  withdrawal : ∀ row ∈ store.delivery.outbox, row.payload.kind = .signalInvalidated →
    ∃ entry ∈ store.delivery.outbox, entry.payload.kind = .entryReview ∧ row.payload.relatedEventId = some entry.eventId
  counter : ∀ symbol, (store.streamOf symbol).counter = (store.delivery.entriesOf symbol).length
  transition : ∀ row ∈ store.delivery.outbox, row.payload.kind = .entryReview → ∃ o key m,
    row.payload.observation = some o ∧ signalKey o = some key ∧ row.payload.identity = entryIdentity key m ∧ 1 ≤ m ∧
      m ≤ (store.streamOf (StageObservation.symbol o)).counter
  unseen : ∀ entry ∈ store.delivery.outbox, entry.payload.kind = .entryReview →
    ∀ row ∈ store.delivery.withdrawalsOf entry.eventId, row.suppressedReason.isSome →
      entry.suppressedReason.isSome ∧ entry.state ≠ .confirmed ∧ entry.state ≠ .unknown

lemma Tracked.lifecycle {store : AlertStore O} (h : Tracked store) : Lifecycle store where
  active := h.active
  key symbol := SignalStream.isNone_of_check (h.sound.checked symbol)
  entry row hrow hkind := by
    obtain ⟨o, key, m, ho, -⟩ := h.transition row hrow hkind
    have hentry : row ∈ store.delivery.entriesOf (StageObservation.symbol o) :=
      Database.mem_entriesOf.mpr ⟨hrow, hkind, o, ho, rfl⟩
    refine ⟨_, hentry, (h.entry _ row hentry).imp_left fun hactive => ⟨hactive, (h.active _ _ hactive).2⟩⟩
  one symbol row hrow row' hrow' hnone hnone' := by
    have hactive : ∀ r ∈ store.delivery.entriesOf symbol, store.delivery.withdrawalsOf r.eventId = [] →
        (store.streamOf symbol).activeEventId = some r.eventId := by
      intro r hr hnone
      rcases h.entry symbol r hr with hactive | ⟨-, hone⟩
      · exact hactive
      · rw [hnone] at hone
        cases hone
    have hid := (hactive row hrow hnone).symm.trans (hactive row' hrow' hnone')
    exact h.sound.keyed.eq_of_key (Database.mem_entriesOf.mp hrow).1 (Database.mem_entriesOf.mp hrow').1
      (Option.some.inj hid)
  withdrawal := h.withdrawal
  counter := h.counter

lemma Tracked.empty : Tracked (AlertStore.empty : AlertStore O) where
  sound := .empty
  active _ _ h := by cases h
  entry _ row h := by cases h
  withdrawal row h := by cases h
  counter _ := rfl
  transition row h := by cases h
  unseen entry h := by cases h

variable {records : List (ObservationCycle O)} {store store' : AlertStore O}

/-- Rows that moved on, under streams with the same signals. -/
lemma Tracked.moved (h : Tracked store) (hsound : Sound store') (hdb : Delivers store.delivery store'.delivery)
    (hsame : ∀ symbol, (store.streamOf symbol).SameSignal (store'.streamOf symbol)) : Tracked store' := by
  obtain ⟨g, hg, hout⟩ := hdb
  have hpayload : ∀ r ∈ store.delivery.outbox, (g r).payload = r.payload := fun r hr => (hg r hr).payload
  have hwithdrawals : ∀ eventId,
      store'.delivery.withdrawalsOf eventId = (store.delivery.withdrawalsOf eventId).map g :=
    fun eventId => Database.withdrawalsOf_moved hpayload hout
  have hentries : ∀ symbol, store'.delivery.entriesOf symbol = (store.delivery.entriesOf symbol).map g :=
    fun symbol => Database.entriesOf_moved hpayload hout
  refine ⟨hsound, fun symbol eventId hactive => ?_, fun symbol row hrow => ?_, fun row hrow hkind => ?_, fun symbol => ?_,
    fun row hrow hkind => ?_, fun entry hentry hkind row hrow hs => ?_⟩
  · obtain ⟨⟨row, hrow, rfl⟩, hnone⟩ := h.active symbol eventId ((hsame symbol).2.1 ▸ hactive)
    refine ⟨⟨g row, hentries symbol ▸ List.mem_map_of_mem hrow, ?_⟩, by rw [hwithdrawals, hnone, List.map_nil]⟩
    exact (hg row (Database.mem_entriesOf.mp hrow).1).eventId
  · rw [hentries] at hrow
    obtain ⟨r, hr, rfl⟩ := List.mem_map.mp hrow
    have hle := hg r (Database.mem_entriesOf.mp hr).1
    rw [(hsame symbol).2.1, hle.eventId, hwithdrawals, List.length_map]
    refine (h.entry symbol r hr).imp_right fun ⟨hs, hone⟩ => ⟨?_, hone⟩
    rw [hle.suppressed hs]
    exact hs
  · rw [hout] at hrow
    obtain ⟨r, hr, rfl⟩ := List.mem_map.mp hrow
    rw [hpayload r hr] at hkind ⊢
    obtain ⟨entry, hentry, hekind, hrelated⟩ := h.withdrawal r hr hkind
    refine ⟨g entry, hout ▸ List.mem_map_of_mem hentry, (hpayload entry hentry).symm ▸ hekind, ?_⟩
    rw [(hg entry hentry).eventId]
    exact hrelated
  · rw [(hsame symbol).1, hentries, List.length_map]
    exact h.counter symbol
  · rw [hout] at hrow
    obtain ⟨r, hr, rfl⟩ := List.mem_map.mp hrow
    rw [hpayload r hr] at hkind ⊢
    obtain ⟨o, key, m, ho, hkey, hidentity, hm, hle⟩ := h.transition r hr hkind
    exact ⟨o, key, m, ho, hkey, hidentity, hm, (hsame _).1 ▸ hle⟩
  · rw [hout] at hentry
    obtain ⟨e, he, rfl⟩ := List.mem_map.mp hentry
    have hle := hg e he
    rw [hle.eventId, hwithdrawals] at hrow
    obtain ⟨r, hr, rfl⟩ := List.mem_map.mp hrow
    obtain ⟨hmem, hinvalidated, -⟩ := Database.mem_withdrawalsOf.mp hr
    rw [(hg r hmem).kept (by rw [hinvalidated]; decide)] at hs
    rw [hpayload e he] at hkind
    obtain ⟨hes, hconfirmed, hunknown⟩ := h.unseen e he hkind r hr hs
    rw [hle.suppressed hes, hle.settled hes hunknown]
    exact ⟨hes, hconfirmed, hunknown⟩

/-- Deliveries keep the lifecycle. -/
lemma Tracked.delivers {db : Database O} (h : Tracked store) (hdb : Delivers store.delivery db) :
    Tracked { store with delivery := db } :=
  h.moved (h.sound.delivers hdb) hdb fun _ => .refl _

/-! ## Changes -/

section added

variable {db : Database O} {row : OutboxRow O}

/-- A row about the service is none of the lists. -/
lemma Tracked.service (h : Tracked store) (hsound : Sound { store with delivery := db })
    (hkind : row.payload.kind = .serviceFault ∨ row.payload.kind = .serviceRecovered)
    (hout : db.outbox = store.delivery.outbox ++ [row]) : Tracked { store with delivery := db } := by
  have hentries : ∀ symbol, db.entriesOf symbol = store.delivery.entriesOf symbol := fun symbol => by
    rw [Database.entriesOf_added hout]
    rcases hkind with hkind | hkind <;> simp [OutboxRow.isEntryOf, hkind]
  have hwithdrawals : ∀ eventId, db.withdrawalsOf eventId = store.delivery.withdrawalsOf eventId := fun eventId => by
    rw [Database.withdrawalsOf_added hout]
    rcases hkind with hkind | hkind <;> simp [OutboxRow.isWithdrawalOf, hkind]
  have hold : ∀ r ∈ db.outbox, r.payload.kind = .entryReview ∨ r.payload.kind = .signalInvalidated →
      r ∈ store.delivery.outbox := by
    intro r hr hrkind
    rw [hout] at hr
    rcases List.mem_append.mp hr with hr | hr
    · exact hr
    · obtain rfl := List.mem_singleton.mp hr
      rcases hkind with hkind | hkind <;> simp [hkind] at hrkind
  refine ⟨hsound, fun symbol eventId hactive => ?_, fun symbol r hr => ?_, fun r hr hrkind => ?_, fun symbol => ?_,
    fun r hr hrkind => ?_, fun e he hekind r hr => ?_⟩
  · rw [hentries, hwithdrawals]
    exact h.active symbol eventId hactive
  · rw [hwithdrawals]
    exact h.entry symbol r (hentries symbol ▸ hr)
  · obtain ⟨e, he, hekind, hrelated⟩ := h.withdrawal r (hold r hr (.inr hrkind)) hrkind
    exact ⟨e, hout ▸ List.mem_append_left _ he, hekind, hrelated⟩
  · rw [hentries]
    exact h.counter symbol
  · exact h.transition r (hold r hr (.inl hrkind)) hrkind
  · exact h.unseen e (hold e he (.inl hekind)) hekind r (hwithdrawals _ ▸ hr)

variable {symbol : String} {stream : SignalStream} {entry : OutboxRow O}

/-- The active entry, suppressed already, is withdrawn: a new row names it. -/
lemma Tracked.withdrawn (h : Tracked store) (hout : db.outbox = store.delivery.outbox ++ [row])
    (hsound : Sound ({ store with delivery := db }.putStream symbol stream)) (hentry : entry ∈ store.delivery.outbox)
    (hactive : (store.streamOf symbol).activeEventId = some entry.eventId)
    (hsuppressed : entry.suppressedReason.isSome) (hcounter : stream.counter = (store.streamOf symbol).counter)
    (hnone : stream.activeEventId = none) (hkind : row.payload.kind = .signalInvalidated)
    (hrelated : row.payload.relatedEventId = some entry.eventId) (hrow : row.suppressedReason = unseenReason entry.state) :
    Tracked ({ store with delivery := db }.putStream symbol stream) := by
  obtain ⟨⟨active, hmem, hid⟩, hfresh⟩ := h.active symbol entry.eventId hactive
  obtain rfl := h.sound.keyed.eq_of_key (Database.mem_entriesOf.mp hmem).1 hentry hid
  have hentries : ∀ symbol, db.entriesOf symbol = store.delivery.entriesOf symbol := fun symbol => by
    rw [Database.entriesOf_added hout]
    simp [OutboxRow.isEntryOf, hkind]
  have hwithdrawals : ∀ eventId, eventId ≠ active.eventId →
      db.withdrawalsOf eventId = store.delivery.withdrawalsOf eventId := fun eventId hne => by
    rw [Database.withdrawalsOf_added hout]
    simp [OutboxRow.isWithdrawalOf, hrelated, Ne.symm hne]
  have hone : db.withdrawalsOf active.eventId = [row] := by
    rw [Database.withdrawalsOf_added hout, hfresh]
    simp [OutboxRow.isWithdrawalOf, hkind, hrelated]
  have hold : ∀ r ∈ db.outbox, r.payload.kind = .entryReview → r ∈ store.delivery.outbox := by
    intro r hr hrkind
    rw [hout] at hr
    rcases List.mem_append.mp hr with hr | hr
    · exact hr
    · obtain rfl := List.mem_singleton.mp hr
      rw [hkind] at hrkind
      cases hrkind
  have hother : ∀ symbol' r, r ∈ store.delivery.entriesOf symbol' → r.eventId = active.eventId → symbol' = symbol := by
    intro symbol' r hr hrid
    obtain rfl := h.sound.keyed.eq_of_key (Database.mem_entriesOf.mp hr).1 hentry hrid
    obtain ⟨-, -, o, ho, rfl⟩ := Database.mem_entriesOf.mp hr
    obtain ⟨-, -, o', ho', rfl⟩ := Database.mem_entriesOf.mp hmem
    rw [Option.some.inj (ho.symm.trans ho')]
  refine ⟨hsound, fun symbol' eventId hactive' => ?_, fun symbol' r hr => ?_, fun r hr hrkind => ?_, fun symbol' => ?_,
    fun r hr hrkind => ?_, fun e he hekind r hr hs => ?_⟩
  · rw [AlertStore.streamOf_putStream] at hactive'
    split at hactive'
    · rw [hnone] at hactive'
      cases hactive'
    · rename_i hne
      obtain ⟨⟨r, hr, rfl⟩, hfresh'⟩ := h.active symbol' eventId hactive'
      refine ⟨⟨r, hentries symbol' ▸ hr, rfl⟩, ?_⟩
      exact (hwithdrawals _ fun hrid => hne (hother symbol' r hr hrid)).trans hfresh'
  · have hr' : r ∈ store.delivery.entriesOf symbol' := hentries symbol' ▸ hr
    by_cases hrid : r.eventId = active.eventId
    · obtain rfl := h.sound.keyed.eq_of_key (Database.mem_entriesOf.mp hr').1 hentry hrid
      exact .inr ⟨hsuppressed, congrArg List.length hone⟩
    · rw [AlertStore.streamOf_putStream]
      refine (h.entry symbol' r hr').imp (fun hactive' => ?_) fun ⟨hs, hlength⟩ => ⟨hs, ?_⟩
      · split
        · rename_i hsymbol
          subst hsymbol
          exact absurd (Option.some.inj (hactive'.symm.trans hactive)) hrid
        · exact hactive'
      · exact (congrArg List.length (hwithdrawals _ hrid)).trans hlength
  · change r ∈ db.outbox at hr
    change ∃ e ∈ db.outbox, _
    rw [hout] at hr ⊢
    rcases List.mem_append.mp hr with hr | hr
    · obtain ⟨e, he, hekind, herelated⟩ := h.withdrawal r hr hrkind
      exact ⟨e, List.mem_append_left _ he, hekind, herelated⟩
    · obtain rfl := List.mem_singleton.mp hr
      exact ⟨active, List.mem_append_left _ hentry, (Database.mem_entriesOf.mp hmem).2.1, hrelated⟩
  · rw [AlertStore.streamOf_putStream]
    refine Eq.trans ?_ ((h.counter symbol').trans (congrArg List.length (hentries symbol').symm))
    split
    · rename_i hsymbol
      rw [hsymbol, hcounter]
    · rfl
  · obtain ⟨o, key, m, ho, hkey, hidentity, hm, hle⟩ := h.transition r (hold r hr hrkind) hrkind
    refine ⟨o, key, m, ho, hkey, hidentity, hm, hle.trans ?_⟩
    exact AlertStore.counter_putStream { store with delivery := db } _ hcounter.ge
  · have he' := hold e he hekind
    by_cases heid : e.eventId = active.eventId
    · obtain rfl := h.sound.keyed.eq_of_key he' hentry heid
      have hr' : r ∈ db.withdrawalsOf e.eventId := hr
      rw [hone] at hr'
      obtain rfl := List.mem_singleton.mp hr'
      rw [hrow, unseenReason] at hs
      split at hs
      · cases hs
      · rename_i hseen
        exact ⟨hsuppressed, not_or.mp hseen⟩
    · exact h.unseen e he' hekind r (hwithdrawals _ heid ▸ hr) hs

/-- A signal starts an entry: a new row, the next transition of a stream that has no active entry. -/
lemma Tracked.started {observation : O} {key : HexDigest} (h : Tracked store)
    (hsound : Sound ({ store with delivery := db }.putStream (StageObservation.symbol observation) stream))
    (hnone : (store.streamOf (StageObservation.symbol observation)).activeEventId = none)
    (hcounter : stream.counter = (store.streamOf (StageObservation.symbol observation)).counter + 1)
    (hactive : stream.activeEventId = some row.eventId) (hkind : row.payload.kind = .entryReview)
    (hobservation : row.payload.observation = some observation) (hkey : signalKey observation = some key)
    (hidentity : row.payload.identity = entryIdentity key stream.counter)
    (hnew : ∀ r ∈ store.delivery.outbox, r.eventId ≠ row.eventId)
    (hout : db.outbox = store.delivery.outbox ++ [row]) :
    Tracked ({ store with delivery := db }.putStream (StageObservation.symbol observation) stream) := by
  have hown : db.entriesOf (StageObservation.symbol observation) =
      store.delivery.entriesOf (StageObservation.symbol observation) ++ [row] := by
    rw [Database.entriesOf_added hout]
    simp [OutboxRow.isEntryOf, hkind, hobservation]
  have hother : ∀ symbol, symbol ≠ StageObservation.symbol observation →
      db.entriesOf symbol = store.delivery.entriesOf symbol := fun symbol hne => by
    rw [Database.entriesOf_added hout]
    simp [OutboxRow.isEntryOf, hobservation, Ne.symm hne]
  have hwithdrawals : ∀ eventId, db.withdrawalsOf eventId = store.delivery.withdrawalsOf eventId := fun eventId => by
    rw [Database.withdrawalsOf_added hout]
    simp [OutboxRow.isWithdrawalOf, hkind]
  have hfresh : db.withdrawalsOf row.eventId = [] := by
    rw [hwithdrawals, List.eq_nil_iff_forall_not_mem]
    intro r hr
    obtain ⟨hmem, hrkind, hrelated⟩ := Database.mem_withdrawalsOf.mp hr
    obtain ⟨e, he, -, hrelated'⟩ := h.withdrawal r hmem hrkind
    exact hnew e he (Option.some.inj (hrelated'.symm.trans hrelated))
  refine ⟨hsound, fun symbol eventId hactive' => ?_, fun symbol r hr => ?_, fun r hr hrkind => ?_, fun symbol => ?_,
    fun r hr hrkind => ?_, fun e he hekind r hr hs => ?_⟩
  · rw [AlertStore.streamOf_putStream] at hactive'
    split at hactive'
    · rename_i hsymbol
      obtain rfl := Option.some.inj (hactive.symm.trans hactive')
      refine ⟨⟨row, ?_, rfl⟩, hfresh⟩
      subst hsymbol
      exact hown ▸ List.mem_append_right _ (List.mem_singleton.mpr rfl)
    · rename_i hne
      obtain ⟨⟨r, hr, rfl⟩, hnone'⟩ := h.active symbol eventId hactive'
      exact ⟨⟨r, hother symbol hne ▸ hr, rfl⟩, (hwithdrawals _).trans hnone'⟩
  · change r ∈ db.entriesOf symbol at hr
    rw [AlertStore.streamOf_putStream]
    change _ ∨ r.suppressedReason.isSome ∧ (db.withdrawalsOf r.eventId).length = 1
    rw [hwithdrawals]
    by_cases hsymbol : symbol = StageObservation.symbol observation
    · subst hsymbol
      rw [if_pos rfl]
      rw [hown] at hr
      rcases List.mem_append.mp hr with hr | hr
      · rcases h.entry _ r hr with hactive' | hdone
        · rw [hnone] at hactive'
          cases hactive'
        · exact .inr hdone
      · obtain rfl := List.mem_singleton.mp hr
        exact .inl hactive
    · rw [if_neg hsymbol]
      exact h.entry symbol r (hother symbol hsymbol ▸ hr)
  · change r ∈ db.outbox at hr
    change ∃ e ∈ db.outbox, _
    rw [hout] at hr ⊢
    rcases List.mem_append.mp hr with hr | hr
    · obtain ⟨e, he, hekind, herelated⟩ := h.withdrawal r hr hrkind
      exact ⟨e, List.mem_append_left _ he, hekind, herelated⟩
    · obtain rfl := List.mem_singleton.mp hr
      rw [hkind] at hrkind
      cases hrkind
  · rw [AlertStore.streamOf_putStream]
    change _ = (db.entriesOf symbol).length
    split
    · rename_i hsymbol
      rw [hsymbol, hown, List.length_append, ← h.counter, hcounter]
      rfl
    · rename_i hne
      rw [hother symbol hne]
      exact h.counter symbol
  · change r ∈ db.outbox at hr
    rw [hout] at hr
    rcases List.mem_append.mp hr with hr | hr
    · obtain ⟨o, k, m, ho, hk, hid, hm, hle⟩ := h.transition r hr hrkind
      refine ⟨o, k, m, ho, hk, hid, hm, hle.trans ?_⟩
      refine AlertStore.counter_putStream { store with delivery := db } _ ?_
      exact hcounter ▸ Nat.le_succ _
    · obtain rfl := List.mem_singleton.mp hr
      refine ⟨observation, key, stream.counter, hobservation, hkey, hidentity, by omega, ?_⟩
      rw [AlertStore.streamOf_putStream, if_pos rfl]
  · change e ∈ db.outbox at he
    change r ∈ db.withdrawalsOf e.eventId at hr
    rw [hout] at he
    rcases List.mem_append.mp he with he | he
    · exact h.unseen e he hekind r (hwithdrawals _ ▸ hr) hs
    · obtain rfl := List.mem_singleton.mp he
      rw [hfresh] at hr
      cases hr

end added

lemma DistinctTransitions.of_extends (h : DistinctTransitions store') (hext : Extends store store') :
    DistinctTransitions store := by
  intro row hrow o key ho hkey m n hm hmn hn
  obtain ⟨row', hrow', hle⟩ := hext.rows row hrow
  exact h row' hrow' o key (hle.payload ▸ ho) hkey m n hm hmn (hn.trans (hext.counter _))

/-- The event of a new transition is not there yet. -/
lemma Tracked.not_found {observation : O} {key : HexDigest} {occurredAtMs reviewMs : ℕ} {row : OutboxRow O}
    (h : Tracked store) (hkey : signalKey observation = some key) (hrow : row ∈ store.delivery.outbox)
    (hmem : row ∈ store'.delivery.outbox) (hdistinct : DistinctTransitions store')
    (hcounter : (store'.streamOf (StageObservation.symbol observation)).counter =
      (store.streamOf (StageObservation.symbol observation)).counter + 1)
    (hpayload : row.payload = entryEvent key ((store.streamOf (StageObservation.symbol observation)).counter + 1)
      occurredAtMs reviewMs observation) : False := by
  have ho : row.payload.observation = some observation := by rw [hpayload]; rfl
  obtain ⟨o, k, m, ho', hk, hidentity, hm, hle⟩ := h.transition row hrow (by rw [hpayload]; rfl)
  obtain rfl := Option.some.inj (ho'.symm.trans ho)
  obtain rfl := Option.some.inj (hk.symm.trans hkey)
  refine hdistinct row hmem o k ho hk m _ hm (Nat.lt_succ_of_le hle) hcounter.ge ?_
  rw [← hidentity, hpayload]
  rfl

/-- **A change keeps the lifecycle**, when the transitions are distinct. -/
lemma Change.tracked (h : Change records store store') (htracked : Tracked store)
    (hdistinct : DistinctTransitions store') : Tracked store' := by
  have hsound := h.sound htracked.sound
  cases h with
  | note hdelivery hstreams _ _ =>
      refine htracked.moved hsound (.of_outbox_eq (by rw [hdelivery])) fun symbol => ?_
      rw [AlertStore.streamOf, AlertStore.streamOf, hstreams]
      exact .refl _
  | @stream symbol stream hcheck hsame =>
      refine htracked.moved hsound (.refl _) fun symbol' => ?_
      rw [AlertStore.streamOf_putStream]
      split
      · rename_i hsymbol
        exact hsymbol ▸ hsame
      · exact .refl _
  | expire hrow hentry hout => exact htracked.delivers (.of_updateRow htracked.sound.keyed hrow (rowLe_suppress hentry) hout)
  | @service event suppressed db hkind hstores =>
      generalize hdb : db.outbox = outbox at hstores
      cases hstores with
      | found _ _ _ => exact htracked.delivers (.of_outbox_eq hdb)
      | added hfresh => exact htracked.service hsound hkind hdb
  | @withdraw symbol stream row event stored db reason hrow hactive hcheck hcounter hnone hkind hrelated hstores hout =>
      generalize hstored : stored.outbox = outbox at hstores
      cases hstores with
      | @found found hmem hid hpayload =>
          have hfound : found ∈ store.delivery.withdrawalsOf row.eventId :=
            Database.mem_withdrawalsOf.mpr ⟨hmem, hpayload ▸ hkind, hpayload ▸ hrelated⟩
          rw [(htracked.active symbol row.eventId hactive).2] at hfound
          cases hfound
      | @added nowMs hfresh =>
          -- The order of the two statements does not matter: the entry is suppressed first here.
          have hentry := htracked.sound.entry_of_active hactive hrow
          have hsuppressed : Tracked { store with delivery := store.delivery.updateRow row.eventId (·.suppress reason) } :=
            htracked.delivers (.of_updateRow htracked.sound.keyed hrow (rowLe_suppress hentry) rfl)
          have hmem : row.suppress reason ∈ (store.delivery.updateRow row.eventId (·.suppress reason)).outbox :=
            Table.mem_update.mpr ⟨row, hrow, if_pos (decide_eq_true rfl)⟩
          have hadded : db.outbox = (store.delivery.updateRow row.eventId (·.suppress reason)).outbox ++
              [Database.newRow event event nowMs (unseenReason row.state)] := by
            have hid : (Database.newRow event event nowMs (unseenReason row.state)).eventId ≠ row.eventId :=
              Ne.symm (hfresh row hrow)
            simp only [hout, Database.updateRow, Table.update, hstored, List.map_append, List.map_singleton,
              decide_eq_true_eq, if_neg hid]
          exact (hsuppressed.withdrawn hadded hsound hmem hactive rfl hcounter hnone hkind hrelated rfl :)
  | @start stream observation key occurredAtMs reviewMs db suppressed hnone hkey hcheck hcounter hactive hsignal
      hstores =>
      generalize hdb : db.outbox = outbox at hstores
      cases hstores with
      | @found found hmem hid hpayload =>
          rw [hcounter] at hpayload
          refine (htracked.not_found hkey hmem ?_ hdistinct ?_ hpayload).elim
          · exact hdb ▸ hmem
          · rw [AlertStore.streamOf_putStream, if_pos rfl, hcounter]
      | added hfresh => exact htracked.started hsound hnone hcounter hactive rfl rfl hkey rfl hfresh hdb

lemma Changes.tracked (h : Changes records store store') (htracked : Tracked store)
    (hdistinct : DistinctTransitions store') : Tracked store' := by
  induction h with
  | refl => exact htracked
  | tail hchanges hchange ih =>
      have hext := hchange.extends (Changes.sound hchanges htracked.sound)
      exact hchange.tracked (ih (hdistinct.of_extends hext)) hdistinct

end MuStrategy.Notifications
