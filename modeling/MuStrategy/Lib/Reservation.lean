import Mathlib.Data.List.Nodup
import Mathlib.Data.List.Perm.Subperm
import Mathlib.Logic.Function.Basic
import MuStrategy.Lib.System

/-!
# At-most-once effects through numbered attempts

A side effect that cannot be rolled back is guarded by a ledger: before the effect a process
commits a reservation, which marks the slot of a key as `reserved` and counts the attempt; then it
takes the write lock, checks that its reservation still stands, acts, and settles the slot with
what it learned. A process may stop at any point: its lock is freed, what it committed and what it
did stay.

* `Ledger`, `Step`, `ledger` — slots, stages of the processes, the lock and the effects so far.
* `Inv` — the invariant: an attempt number is owned by at most one process, and no process owns an
  attempt that has been acted on. The first rests on who may give a number back: only its owner.
* `Reachable.acts_nodup`, `Reachable.acts_le` — no attempt is acted on twice, and no key more often
  than the limit.
* `Run.acts_of_closed` — a closed slot sees no further effect.
* `Run.settled_between` — between two effects on one key, the earlier one is settled: by the
  process that acted, with a phase other than `reserved`, or by an explicit resolution.
* `Run.ended_between` — while a reservation stands, nobody acts on another attempt of its key: first it
  is settled, or its owner gives it back.
-/

namespace MuStrategy.Lib.Reservation

/-- What is known of a key. -/
inductive Phase where
  /-- No attempt is open. -/
  | free
  /-- An attempt was reserved and its outcome is not known. -/
  | reserved
  /-- The effect took place. -/
  | closed
  deriving DecidableEq

/-- A key and an attempt number. -/
abbrev Attempt (κ : Type*) := κ × ℕ

/-- Where a process is. -/
inductive Stage (κ : Type*) where
  | away
  /-- It committed the reservation of an attempt. -/
  | holding (a : Attempt κ)
  /-- It holds the lock and found its reservation standing. -/
  | acting (a : Attempt κ)
  /-- It acted and has not settled. -/
  | acted (a : Attempt κ)

variable {ι κ : Type*}

/-- The shared state: the phase and attempt count of each known key, the processes, the lock, and
the effects in the outside world. -/
structure Ledger (ι κ : Type*) where
  slot : κ → Option (Phase × ℕ)
  stage : ι → Stage κ
  lock : Option ι
  acts : List (Attempt κ)

/-- What happens next. -/
inductive Action (ι κ : Type*) where
  | add (k : κ)
  | reserve (p : ι) (k : κ)
  | release (p : ι) (a : Attempt κ)
  | start (p : ι)
  | act (p : ι) (a : Attempt κ)
  | settle (p : ι) (a : Attempt κ) (phase : Phase)
  | leave (p : ι)
  | resolve (k : κ) (phase : Phase)

/-- A process stops: its lock is freed. -/
def unlock [DecidableEq ι] (lock : Option ι) (p : ι) : Option ι := if lock = some p then none else lock

section step

variable [DecidableEq ι] [DecidableEq κ]

/-- One step of the ledger, with at most `limit` attempts for each key. -/
inductive Step (limit : ℕ) (s : Ledger ι κ) : Action ι κ → Ledger ι κ → Prop where
  | add {k : κ} : s.lock = none → s.slot k = none →
      Step limit s (.add k) { s with slot := Function.update s.slot k (some (.free, 0)) }
  | reserve {p : ι} {k : κ} {n : ℕ} : s.lock = none → s.slot k = some (.free, n) → n < limit →
      Step limit s (.reserve p k)
        { s with
          slot := Function.update s.slot k (some (.reserved, n + 1))
          stage := Function.update s.stage p (.holding (k, n + 1)) }
  | release {p : ι} {k : κ} {n : ℕ} : s.lock = none → s.stage p = .holding (k, n + 1) →
      s.slot k = some (.reserved, n + 1) →
      Step limit s (.release p (k, n + 1))
        { s with
          slot := Function.update s.slot k (some (.free, n))
          stage := Function.update s.stage p .away }
  | start {p : ι} {a : Attempt κ} : s.lock = none → s.stage p = .holding a →
      s.slot a.1 = some (.reserved, a.2) →
      Step limit s (.start p)
        { s with stage := Function.update s.stage p (.acting a), lock := some p }
  | act {p : ι} {a : Attempt κ} : s.stage p = .acting a →
      Step limit s (.act p a)
        { s with stage := Function.update s.stage p (.acted a), acts := s.acts ++ [a] }
  | settle {p : ι} {a : Attempt κ} {n : ℕ} (phase : Phase) : s.stage p = .acted a →
      s.slot a.1 = some (.reserved, n) →
      Step limit s (.settle p a phase)
        { s with
          slot := Function.update s.slot a.1 (some (phase, n))
          stage := Function.update s.stage p .away
          lock := none }
  | leave (p : ι) :
      Step limit s (.leave p)
        { s with stage := Function.update s.stage p .away, lock := unlock s.lock p }
  | resolve {k : κ} {n : ℕ} (phase : Phase) : s.lock = none → s.slot k = some (.reserved, n) →
      Step limit s (.resolve k phase)
        { s with slot := Function.update s.slot k (some (phase, n)) }

/-- The ledger as a transition system: no key is known, every process is away, nothing is done. -/
def ledger (ι κ : Type*) [DecidableEq ι] [DecidableEq κ] (limit : ℕ) :
    System (Ledger ι κ) (Action ι κ) where
  init s := s = ⟨fun _ => none, fun _ => .away, none, []⟩
  step := Step limit

end step

/-! ## Attempts that were started, and attempts a process may still act on -/

/-- The attempt number has been counted. -/
def Started (slot : κ → Option (Phase × ℕ)) (a : Attempt κ) : Prop :=
  ∃ phase n, slot a.1 = some (phase, n) ∧ 0 < a.2 ∧ a.2 ≤ n

/-- The process may still act on the attempt. -/
def Owns (stage : ι → Stage κ) (p : ι) (a : Attempt κ) : Prop :=
  stage p = .holding a ∨ stage p = .acting a

/-- The process is between the check of its reservation and the settlement. -/
def Critical (stage : ι → Stage κ) (p : ι) (a : Attempt κ) : Prop :=
  stage p = .acting a ∨ stage p = .acted a

section update

variable {slot : κ → Option (Phase × ℕ)} {stage : ι → Stage κ} {a : Attempt κ}

/-- A started attempt stays started unless the count falls below its number. -/
lemma Started.update [DecidableEq κ] (h : Started slot a) {k : κ} {phase : Phase} {n : ℕ}
    (hn : a.1 = k → a.2 ≤ n) : Started (Function.update slot k (some (phase, n))) a := by
  obtain ⟨phase', n', hslot, hpos, hle⟩ := h
  by_cases hk : a.1 = k
  · exact ⟨phase, n, by rw [hk, Function.update_self], hpos, hn hk⟩
  · exact ⟨phase', n', by rw [Function.update_of_ne hk, hslot], hpos, hle⟩

/-- A started attempt stays started when its key keeps its count. -/
lemma Started.keep [DecidableEq κ] (h : Started slot a) {k : κ} {phase phase' : Phase} {n : ℕ}
    (hk : slot k = some (phase, n)) : Started (Function.update slot k (some (phase', n))) a := by
  refine h.update fun hak => ?_
  obtain ⟨_, n', hslot, -, hle⟩ := h
  rw [hak, hk, Option.some.injEq, Prod.mk.injEq] at hslot
  omega

variable [DecidableEq ι] {p q : ι} {st : Stage κ}

lemma owns_update :
    Owns (Function.update stage p st) q a ↔
      (q = p ∧ (st = .holding a ∨ st = .acting a)) ∨ (q ≠ p ∧ Owns stage q a) := by
  unfold Owns
  by_cases h : q = p
  · subst h
    simp [Function.update_self]
  · simp [h]

lemma critical_update :
    Critical (Function.update stage p st) q a ↔
      (q = p ∧ (st = .acting a ∨ st = .acted a)) ∨ (q ≠ p ∧ Critical stage q a) := by
  unfold Critical
  by_cases h : q = p
  · subst h
    simp [Function.update_self]
  · simp [h]

/-- A process that stops owns nothing; the others own what they owned. -/
lemma owns_update_away : Owns (Function.update stage p .away) q a ↔ q ≠ p ∧ Owns stage q a := by
  simp [owns_update]

lemma critical_update_away :
    Critical (Function.update stage p .away) q a ↔ q ≠ p ∧ Critical stage q a := by
  simp [critical_update]

end update

/-! ## The invariant -/

/-- What holds of the ledger at any time. -/
structure Inv (limit : ℕ) (s : Ledger ι κ) : Prop where
  /-- An owned attempt was counted. -/
  owned : ∀ p a, Owns s.stage p a → Started s.slot a
  /-- An attempt has one owner. -/
  unique : ∀ p q a, Owns s.stage p a → Owns s.stage q a → p = q
  /-- Acting needs the lock, and the reservation stands while the process acts. -/
  critical : ∀ p a, Critical s.stage p a → s.lock = some p ∧ s.slot a.1 = some (.reserved, a.2)
  /-- An attempt that was acted on was counted. -/
  acted : ∀ a ∈ s.acts, Started s.slot a
  /-- Nobody owns an attempt that was acted on. -/
  disowned : ∀ a ∈ s.acts, ∀ p, ¬ Owns s.stage p a
  /-- No attempt was acted on twice. -/
  once : s.acts.Nodup
  /-- The count of a key stays within the limit. -/
  bounded : ∀ k phase n, s.slot k = some (phase, n) → n ≤ limit

variable {limit : ℕ} {s t : Ledger ι κ}

/-- While nobody holds the lock, nobody acts. -/
lemma Inv.not_critical (h : Inv limit s) (hlock : s.lock = none) (p : ι) (a : Attempt κ) :
    ¬ Critical s.stage p a := by
  intro hc
  have hp := (h.critical p a hc).1
  rw [hlock] at hp
  cases hp

/-- The next attempt of a key is new: nobody owns it and nobody acted on it. -/
lemma not_started_succ {k : κ} {phase : Phase} {n : ℕ} (hk : s.slot k = some (phase, n)) :
    ¬ Started s.slot (k, n + 1) := by
  rintro ⟨phase', n', hslot, -, hle⟩
  rw [hk, Option.some.injEq, Prod.mk.injEq] at hslot
  omega

section steps

variable [DecidableEq ι] [DecidableEq κ]

/-- A bound on all counts survives an update within the bound. -/
lemma bounded_update {slot : κ → Option (Phase × ℕ)}
    (h : ∀ k phase n, slot k = some (phase, n) → n ≤ limit) {k : κ} {phase : Phase} {n : ℕ}
    (hn : n ≤ limit) : ∀ k' phase' n',
      Function.update slot k (some (phase, n)) k' = some (phase', n') → n' ≤ limit := by
  intro k' phase' n' hk'
  by_cases hk : k' = k
  · rw [hk, Function.update_self, Option.some.injEq, Prod.mk.injEq] at hk'
    omega
  · rw [Function.update_of_ne hk] at hk'
    exact h k' phase' n' hk'

omit [DecidableEq ι] in
lemma Inv.add (h : Inv limit s) {k : κ} (hlock : s.lock = none) (hk : s.slot k = none) :
    Inv limit { s with slot := Function.update s.slot k (some (.free, 0)) } := by
  have hkeep : ∀ a, Started s.slot a → Started (Function.update s.slot k (some (.free, 0))) a := by
    intro a ha
    refine ha.update fun hak => ?_
    obtain ⟨_, _, hslot, -, -⟩ := ha
    rw [hak, hk] at hslot
    cases hslot
  exact {
    owned := fun p a hp => hkeep a (h.owned p a hp)
    unique := h.unique
    critical := fun p a hc => absurd hc (h.not_critical hlock p a)
    acted := fun a ha => hkeep a (h.acted a ha)
    disowned := h.disowned
    once := h.once
    bounded := bounded_update h.bounded (Nat.zero_le _) }

lemma Inv.reserve (h : Inv limit s) {p : ι} {k : κ} {n : ℕ} (hlock : s.lock = none)
    (hk : s.slot k = some (.free, n)) (hn : n < limit) :
    Inv limit { s with
      slot := Function.update s.slot k (some (.reserved, n + 1))
      stage := Function.update s.stage p (.holding (k, n + 1)) } := by
  have hnew := not_started_succ hk
  have hkeep : ∀ a, Started s.slot a →
      Started (Function.update s.slot k (some (.reserved, n + 1))) a := by
    intro a ha
    refine ha.update fun hak => ?_
    obtain ⟨_, n', hslot, -, hle⟩ := ha
    rw [hak, hk, Option.some.injEq, Prod.mk.injEq] at hslot
    omega
  have howns : ∀ q a, Owns (Function.update s.stage p (.holding (k, n + 1))) q a →
      (q = p ∧ a = (k, n + 1)) ∨ (q ≠ p ∧ Owns s.stage q a) := by
    intro q a hq
    rcases owns_update.mp hq with ⟨rfl, ha | ha⟩ | hq
    · exact .inl ⟨rfl, (Stage.holding.inj ha).symm⟩
    · cases ha
    · exact .inr hq
  refine {
    owned := fun q a hq => ?_
    unique := fun q r a hq hr => ?_
    critical := fun q a hc => ?_
    acted := fun a ha => hkeep a (h.acted a ha)
    disowned := fun a ha q hq => ?_
    once := h.once
    bounded := bounded_update h.bounded hn }
  · rcases howns q a hq with ⟨-, rfl⟩ | ⟨-, hq⟩
    · exact ⟨.reserved, n + 1, Function.update_self .., Nat.succ_pos n, Nat.le_refl _⟩
    · exact hkeep a (h.owned q a hq)
  · rcases howns q a hq with ⟨hqp, hqa⟩ | ⟨-, hq'⟩ <;> rcases howns r a hr with ⟨hrp, hra⟩ | ⟨-, hr'⟩
    · rw [hqp, hrp]
    · rw [hqa] at hr'
      exact absurd (h.owned r _ hr') hnew
    · rw [hra] at hq'
      exact absurd (h.owned q _ hq') hnew
    · exact h.unique q r a hq' hr'
  · rcases critical_update.mp hc with ⟨-, ha | ha⟩ | ⟨-, hc⟩
    · cases ha
    · cases ha
    · exact absurd hc (h.not_critical hlock q a)
  · rcases howns q a hq with ⟨-, rfl⟩ | ⟨-, hq⟩
    · exact hnew (h.acted _ ha)
    · exact h.disowned a ha q hq

/-- Only the owner of an attempt gives its number back, and nobody acted on an owned attempt: so
the number can be counted again. -/
lemma Inv.release (h : Inv limit s) {p : ι} {k : κ} {n : ℕ} (hlock : s.lock = none)
    (hp : s.stage p = .holding (k, n + 1)) (hk : s.slot k = some (.reserved, n + 1)) :
    Inv limit { s with
      slot := Function.update s.slot k (some (.free, n))
      stage := Function.update s.stage p .away } := by
  have hkeep : ∀ a, a ≠ (k, n + 1) → Started s.slot a →
      Started (Function.update s.slot k (some (.free, n))) a := by
    rintro ⟨k', m⟩ hne ha
    refine ha.update fun hak => ?_
    obtain ⟨_, n', hslot, -, hle⟩ := ha
    simp only at hak hslot hle ⊢
    subst hak
    rw [hk, Option.some.injEq, Prod.mk.injEq] at hslot
    have : m ≠ n + 1 := fun hm => hne (by rw [hm])
    omega
  refine {
    owned := fun q a hq => ?_
    unique := fun q r a hq hr => ?_
    critical := fun q a hc => ?_
    acted := fun a ha => ?_
    disowned := fun a ha q hq => ?_
    once := h.once
    bounded := bounded_update h.bounded (Nat.le_of_succ_le (h.bounded _ _ _ hk)) }
  · obtain ⟨hne, hq⟩ := owns_update_away.mp hq
    refine hkeep a ?_ (h.owned q a hq)
    rintro rfl
    exact hne (h.unique q p _ hq (.inl hp))
  · exact h.unique q r a (owns_update_away.mp hq).2 (owns_update_away.mp hr).2
  · exact absurd (critical_update_away.mp hc).2 (h.not_critical hlock q a)
  · refine hkeep a ?_ (h.acted a ha)
    rintro rfl
    exact h.disowned _ ha p (.inl hp)
  · exact h.disowned a ha q (owns_update_away.mp hq).2

omit [DecidableEq κ] in
lemma Inv.start (h : Inv limit s) {p : ι} {a : Attempt κ} (hlock : s.lock = none)
    (hp : s.stage p = .holding a) (ha : s.slot a.1 = some (.reserved, a.2)) :
    Inv limit { s with stage := Function.update s.stage p (.acting a), lock := some p } := by
  have howns : ∀ q b, Owns (Function.update s.stage p (.acting a)) q b → Owns s.stage q b := by
    intro q b hq
    rcases owns_update.mp hq with ⟨rfl, hb | hb⟩ | ⟨-, hq⟩
    · cases hb
    · obtain rfl := Stage.acting.inj hb
      exact .inl hp
    · exact hq
  refine {
    owned := fun q b hq => h.owned q b (howns q b hq)
    unique := fun q r b hq hr => h.unique q r b (howns q b hq) (howns r b hr)
    critical := fun q b hc => ?_
    acted := h.acted
    disowned := fun b hb q hq => h.disowned b hb q (howns q b hq)
    once := h.once
    bounded := h.bounded }
  rcases critical_update.mp hc with ⟨rfl, hb | hb⟩ | ⟨-, hc⟩
  · obtain rfl := Stage.acting.inj hb
    exact ⟨rfl, ha⟩
  · cases hb
  · exact absurd hc (h.not_critical hlock q b)

omit [DecidableEq κ] in
lemma Inv.act (h : Inv limit s) {p : ι} {a : Attempt κ} (hp : s.stage p = .acting a) :
    Inv limit { s with stage := Function.update s.stage p (.acted a), acts := s.acts ++ [a] } := by
  have hmine : Owns s.stage p a := .inr hp
  have howns : ∀ q b, Owns (Function.update s.stage p (.acted a)) q b → q ≠ p ∧ Owns s.stage q b := by
    intro q b hq
    simpa [owns_update] using hq
  have hfresh : a ∉ s.acts := fun ha => h.disowned a ha p hmine
  refine {
    owned := fun q b hq => h.owned q b (howns q b hq).2
    unique := fun q r b hq hr => h.unique q r b (howns q b hq).2 (howns r b hr).2
    critical := fun q b hc => ?_
    acted := fun b hb => ?_
    disowned := fun b hb q hq => ?_
    once := ?_
    bounded := h.bounded }
  · rcases critical_update.mp hc with ⟨rfl, hb | hb⟩ | ⟨-, hc⟩
    · cases hb
    · obtain rfl := Stage.acted.inj hb
      exact h.critical q a (.inl hp)
    · exact h.critical q b hc
  · rcases List.mem_append.mp hb with hb | hb
    · exact h.acted b hb
    · obtain rfl := List.mem_singleton.mp hb
      exact h.owned p b hmine
  · obtain ⟨hne, hq'⟩ := howns q b hq
    rcases List.mem_append.mp hb with hb | hb
    · exact h.disowned b hb q hq'
    · obtain rfl := List.mem_singleton.mp hb
      exact hne (h.unique q p b hq' hmine)
  · exact List.nodup_append.mpr ⟨h.once, List.nodup_singleton a, fun b hb c hc => by
      obtain rfl := List.mem_singleton.mp hc
      rintro rfl
      exact hfresh hb⟩

omit [DecidableEq ι] in
/-- A new phase at the same count, with no process left in its critical section. -/
lemma Inv.rephase (h : Inv limit s) {k : κ} {phase phase' : Phase} {n : ℕ}
    (hk : s.slot k = some (phase, n)) (hfree : ∀ p a, ¬ Critical s.stage p a) :
    Inv limit { s with slot := Function.update s.slot k (some (phase', n)) } where
  owned p a hp := (h.owned p a hp).keep hk
  unique := h.unique
  critical p a hc := absurd hc (hfree p a)
  acted a ha := (h.acted a ha).keep hk
  disowned := h.disowned
  once := h.once
  bounded := bounded_update h.bounded (h.bounded _ _ _ hk)

omit [DecidableEq κ] in
/-- A process that stops gives up what it owned and frees its lock. -/
lemma Inv.leave (h : Inv limit s) (p : ι) :
    Inv limit { s with stage := Function.update s.stage p .away, lock := unlock s.lock p } where
  owned q a hq := h.owned q a (owns_update_away.mp hq).2
  unique q r a hq hr := h.unique q r a (owns_update_away.mp hq).2 (owns_update_away.mp hr).2
  critical q a hc := by
    obtain ⟨hne, hc⟩ := critical_update_away.mp hc
    obtain ⟨hlock, hslot⟩ := h.critical q a hc
    refine ⟨?_, hslot⟩
    simp only [unlock, hlock, Option.some.injEq, if_neg hne]
  acted := h.acted
  disowned a ha q hq := h.disowned a ha q (owns_update_away.mp hq).2
  once := h.once
  bounded := h.bounded

omit [DecidableEq κ] in
/-- Nobody but the settling process is in its critical section. -/
lemma Inv.not_critical_away (h : Inv limit s) {p : ι} {a : Attempt κ} (hp : Critical s.stage p a)
    (q : ι) (b : Attempt κ) : ¬ Critical (Function.update s.stage p .away) q b := by
  intro hc
  obtain ⟨hne, hc⟩ := critical_update_away.mp hc
  have hlock := (h.critical p a hp).1
  rw [(h.critical q b hc).1] at hlock
  exact hne (Option.some.inj hlock)

lemma Inv.settle (h : Inv limit s) {p : ι} {a : Attempt κ} {n : ℕ} {phase : Phase}
    (hp : s.stage p = .acted a) (ha : s.slot a.1 = some (.reserved, n)) :
    Inv limit { s with
      slot := Function.update s.slot a.1 (some (phase, n))
      stage := Function.update s.stage p .away
      lock := none } := by
  have hlock : s.lock = some p := (h.critical p a (.inr hp)).1
  have hleft := h.leave p
  rw [hlock, unlock, if_pos rfl] at hleft
  exact hleft.rephase ha (h.not_critical_away (.inr hp))

/-- **Step lemma**: every step keeps the invariant. -/
theorem Step.inv {a : Action ι κ} (hs : Step limit s a t) (h : Inv limit s) : Inv limit t := by
  cases hs with
  | add hlock hk => exact h.add hlock hk
  | reserve hlock hk hn => exact h.reserve hlock hk hn
  | release hlock hp hk => exact h.release hlock hp hk
  | start hlock hp ha => exact h.start hlock hp ha
  | act hp => exact h.act hp
  | settle phase hp ha => exact h.settle hp ha
  | leave p => exact h.leave p
  | resolve phase hlock hk => exact h.rephase hk (h.not_critical hlock)

theorem inv_init : ∀ s, (ledger ι κ limit).init s → Inv limit s := by
  rintro s rfl
  constructor <;> simp [Owns, Critical]

theorem Reachable.inv (h : (ledger ι κ limit).Reachable s) : Inv limit s :=
  h.invariant inv_init fun _ _ _ hs hstep => Step.inv hstep hs

/-! ## Results -/

/-- **No attempt is acted on twice.** -/
theorem Reachable.acts_nodup (h : (ledger ι κ limit).Reachable s) : s.acts.Nodup :=
  (Reachable.inv h).once

/-- **No key is acted on more often than the limit**: its attempts are different numbers in
`1..limit`. -/
theorem Reachable.acts_le (h : (ledger ι κ limit).Reachable s) (k : κ) :
    (s.acts.filter fun a => a.1 = k).length ≤ limit := by
  have hinv := Reachable.inv h
  have hkey : ∀ a ∈ s.acts.filter (fun a => a.1 = k), a.1 = k := by
    intro a ha
    simpa using (List.mem_filter.mp ha).2
  have hnodup : ((s.acts.filter fun a => a.1 = k).map Prod.snd).Nodup := by
    refine List.Nodup.map_on ?_ (hinv.once.filter _)
    intro a ha b hb hab
    exact Prod.ext ((hkey a ha).trans (hkey b hb).symm) hab
  have hsub : (s.acts.filter fun a => a.1 = k).map Prod.snd ⊆ List.range' 1 limit := by
    intro n hn
    obtain ⟨a, ha, rfl⟩ := List.mem_map.mp hn
    obtain ⟨phase, n', hslot, hpos, hle⟩ := hinv.acted a (List.mem_of_mem_filter ha)
    have := hinv.bounded _ _ _ hslot
    rw [List.mem_range'_1]
    omega
  have hlen := (List.subperm_of_subset hnodup hsub).length_le
  simpa using hlen

/-- A closed slot stays closed, and no step acts on it. -/
lemma Step.of_closed {a : Action ι κ} (hs : Step limit s a t) (h : Inv limit s) {k : κ} {n : ℕ}
    (hk : s.slot k = some (.closed, n)) :
    t.slot k = some (.closed, n) ∧
      t.acts.filter (fun a => a.1 = k) = s.acts.filter fun a => a.1 = k := by
  have hne : ∀ k' phase m, s.slot k' = some (phase, m) → phase ≠ .closed → k ≠ k' := by
    rintro k' phase m hk' hphase rfl
    rw [hk, Option.some.injEq, Prod.mk.injEq] at hk'
    exact hphase hk'.1.symm
  cases hs with
  | @add k' _ hk' =>
      refine ⟨(Function.update_of_ne ?_ _ _).trans hk, rfl⟩
      rintro rfl
      rw [hk] at hk'
      cases hk'
  | reserve _ hk' _ =>
      exact ⟨(Function.update_of_ne (hne _ _ _ hk' (by simp)) _ _).trans hk, rfl⟩
  | release _ _ hk' =>
      exact ⟨(Function.update_of_ne (hne _ _ _ hk' (by simp)) _ _).trans hk, rfl⟩
  | start => exact ⟨hk, rfl⟩
  | @act p a hp =>
      have hslot := (h.critical p a (.inl hp)).2
      have hak : a.1 ≠ k := (hne _ _ _ hslot (by simp)).symm
      refine ⟨hk, ?_⟩
      rw [List.filter_append, List.filter_singleton]
      simp [hak]
  | settle _ _ ha =>
      exact ⟨(Function.update_of_ne (hne _ _ _ ha (by simp)) _ _).trans hk, rfl⟩
  | leave => exact ⟨hk, rfl⟩
  | resolve _ _ hk' =>
      exact ⟨(Function.update_of_ne (hne _ _ _ hk' (by simp)) _ _).trans hk, rfl⟩

/-- **A closed slot sees no further effect.** -/
theorem Run.acts_of_closed {tr : List (Action ι κ × Ledger ι κ)}
    (h : (ledger ι κ limit).Reachable s) (hr : (ledger ι κ limit).Run s tr t) {k : κ} {n : ℕ}
    (hk : s.slot k = some (.closed, n)) :
    t.acts.filter (fun a => a.1 = k) = s.acts.filter fun a => a.1 = k := by
  have hinv := Reachable.inv h
  clear h
  induction hr with
  | nil => rfl
  | cons hstep _ ih =>
      obtain ⟨hk', hacts⟩ := Step.of_closed hstep hinv hk
      rw [ih hk' (Step.inv hstep hinv), hacts]

/-- The attempt was acted on and its outcome is not known. -/
def Unsettled (s : Ledger ι κ) (a : Attempt κ) : Prop :=
  a ∈ s.acts ∧ s.slot a.1 = some (.reserved, a.2)

/-- The action settles the attempt: the process that acted on it learned the outcome, or someone
resolved its key. -/
@[simp] def Action.Settles (a : Attempt κ) : Action ι κ → Prop
  | .settle _ b phase => b = a ∧ phase ≠ .reserved
  | .resolve k _ => k = a.1
  | _ => False

/-- The action ends the attempt: it settles it, or its owner gives it back before it acts. -/
@[simp] def Action.Ends (a : Attempt κ) (action : Action ι κ) : Prop :=
  action.Settles a ∨ ∃ p, action = .release p a

/-- A reservation stands until an action ends it. -/
lemma Step.standing {b : Action ι κ} (hs : Step limit s b t) (h : Inv limit s) {a : Attempt κ}
    (hslot : s.slot a.1 = some (.reserved, a.2)) (hb : ¬ b.Ends a) :
    t.slot a.1 = some (.reserved, a.2) := by
  have hne : ∀ k' n, s.slot k' = some (.free, n) → a.1 ≠ k' := by
    rintro k' n hk' rfl
    rw [hslot] at hk'
    cases hk'
  cases hs with
  | @add k' _ hk' =>
      refine (Function.update_of_ne ?_ _ _).trans hslot
      rintro rfl
      rw [hslot] at hk'
      cases hk'
  | reserve _ hk' _ => exact (Function.update_of_ne (hne _ _ hk') _ _).trans hslot
  | @release p k n _ hp hk' =>
      refine (Function.update_of_ne ?_ _ _).trans hslot
      intro hak
      have hn : a.2 = n + 1 := by
        rw [hak, hk', Option.some.injEq, Prod.mk.injEq] at hslot
        exact hslot.2.symm
      exact hb (.inr ⟨p, by rw [← hak, ← hn]⟩)
  | start => exact hslot
  | act => exact hslot
  | @settle p a' n phase hp ha' =>
      have hcrit := (h.critical p a' (.inr hp)).2
      by_cases hak : a.1 = a'.1
      · -- The slot counts one number, so this is the same attempt.
        obtain rfl : a' = a := by
          rw [hak, hcrit, Option.some.injEq, Prod.mk.injEq] at hslot
          exact Prod.ext hak.symm hslot.2
        have hphase : phase = .reserved := by
          by_contra hphase
          exact hb (.inl ⟨rfl, hphase⟩)
        rw [hphase, ← hslot, ha']
        exact Function.update_self ..
      · exact (Function.update_of_ne hak _ _).trans hslot
  | leave => exact hslot
  | @resolve k n phase _ hk' =>
      refine (Function.update_of_ne ?_ _ _).trans hslot
      rintro rfl
      exact hb (.inl rfl)

/-- Nobody gives back an attempt that was acted on. -/
lemma Step.not_release {p : ι} {a : Attempt κ} (h : Inv limit s) (ha : a ∈ s.acts) :
    ¬ Step limit s (.release p a) t := by
  intro hs
  cases hs with
  | release _ hp _ => exact h.disowned _ ha p (.inl hp)

/-- What has been done stays done. -/
lemma Step.acts_mono {b : Action ι κ} (hs : Step limit s b t) {a : Attempt κ} (ha : a ∈ s.acts) :
    a ∈ t.acts := by
  cases hs with
  | act => exact List.mem_append_left _ ha
  | _ => exact ha

lemma Run.standing {tr : List (Action ι κ × Ledger ι κ)} (hr : (ledger ι κ limit).Run s tr t)
    (h : Inv limit s) {a : Attempt κ} (ha : s.slot a.1 = some (.reserved, a.2))
    (hb : ∀ x ∈ tr, ¬ x.1.Ends a) : t.slot a.1 = some (.reserved, a.2) := by
  induction hr with
  | nil => exact ha
  | cons hstep _ ih =>
      obtain ⟨hb, hbs⟩ := List.forall_mem_cons.mp hb
      exact ih (Step.inv hstep h) (Step.standing hstep h ha hb) hbs

/-- An unsettled attempt stays unsettled until an action settles it: no automatic step of any
process does. -/
lemma Run.unsettled {tr : List (Action ι κ × Ledger ι κ)} (hr : (ledger ι κ limit).Run s tr t)
    (h : Inv limit s) {a : Attempt κ} (ha : Unsettled s a) (hb : ∀ x ∈ tr, ¬ x.1.Settles a) :
    Unsettled t a := by
  induction hr with
  | nil => exact ha
  | @cons s u t b tr hstep _ ih =>
      obtain ⟨hb, hbs⟩ := List.forall_mem_cons.mp hb
      refine ih (Step.inv hstep h) ⟨Step.acts_mono hstep ha.1, ?_⟩ hbs
      refine Step.standing hstep h ha.2 ?_
      rintro (hset | ⟨p, rfl⟩)
      · exact hb hset
      · exact Step.not_release h ha.1 hstep

omit [DecidableEq ι] [DecidableEq κ] in
/-- While a reservation stands, a process that acts on its key acts on that attempt. -/
lemma Inv.eq_of_acting (h : Inv limit s) {a b : Attempt κ} {p : ι}
    (ha : s.slot a.1 = some (.reserved, a.2)) (hab : b.1 = a.1) (hp : s.stage p = .acting b) :
    b = a := by
  have hslot := (h.critical p b (.inl hp)).2
  rw [hab, ha, Option.some.injEq, Prod.mk.injEq] at hslot
  exact Prod.ext hab hslot.2.symm

/-- **While a reservation stands, nobody acts on another attempt of its key.** -/
theorem Run.ended_between {u v : Ledger ι κ} {q : ι} {a b : Attempt κ}
    {tr : List (Action ι κ × Ledger ι κ)} (h : (ledger ι κ limit).Reachable s)
    (ha : s.slot a.1 = some (.reserved, a.2)) (hr : (ledger ι κ limit).Run s tr u)
    (hact : (ledger ι κ limit).step u (.act q b) v) (hab : b.1 = a.1) (hne : b ≠ a) :
    ∃ x ∈ tr, x.1.Ends a := by
  by_contra hnone
  have hend := Run.standing hr (Reachable.inv h) ha fun x hx hends => hnone ⟨x, hx, hends⟩
  cases hact with
  | act hq => exact hne ((Reachable.inv (h.run hr)).eq_of_acting hend hab hq)

/-- **Between two effects on one key the earlier attempt is settled.** -/
theorem Run.settled_between {u v : Ledger ι κ} {p q : ι} {a b : Attempt κ}
    {tr : List (Action ι κ × Ledger ι κ)} (h : (ledger ι κ limit).Reachable s)
    (hact : (ledger ι κ limit).step s (.act p a) t) (hr : (ledger ι κ limit).Run t tr u)
    (hact' : (ledger ι κ limit).step u (.act q b) v) (hab : b.1 = a.1) :
    ∃ x ∈ tr, x.1.Settles a := by
  by_contra hnone
  have hun : Unsettled t a := by
    cases hact with
    | act hp => exact ⟨by simp, ((Reachable.inv h).critical p a (.inl hp)).2⟩
  have hend := Run.unsettled hr (Reachable.inv (h.step hact)) hun
    fun x hx hset => hnone ⟨x, hx, hset⟩
  have hinv := Reachable.inv ((h.step hact).run hr)
  cases hact' with
  | act hq =>
      obtain rfl := hinv.eq_of_acting hend.2 hab hq
      exact hinv.disowned b hend.1 q (.inr hq)

end steps

end MuStrategy.Lib.Reservation
