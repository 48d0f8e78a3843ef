import MuStrategy.Service.SingleWorker

/-!
# The events of the signal service

The file keeps the last hundred events. Whoever reads them by a cursor gets every event once, or is told that it is too
late; and as long as the symbols stay the same, the events tell the problems of the last cycle.

* `ServiceState.eventsSince` — reading by a cursor.
* `events_since` — between two published states, it returns exactly the events that were published between them.
* `openProblems`, `events_tell_problems` — the problems that the events tell.
-/

namespace MuStrategy.Service

open Lib
open Notifications (HealthEventKind StageObservation)

variable {ι O : Type}

/-! ## Reading by a cursor -/

/-- The number before the first kept event. -/
def ServiceState.oldest (s : ServiceState O) : ℤ :=
  match s.events with
  | [] => s.eventSequence
  | event :: _ => event.sequence - 1

/-- Source: `service_health.py` `ServiceState.events_since`. -/
def ServiceState.eventsSince (s : ServiceState O) (sequence : ℤ) : Except HealthError (List HealthEvent) := do
  require (0 ≤ sequence) (.state "invalid integer")
  require (s.oldest ≤ sequence && sequence ≤ s.eventSequence)
    (.state "event cursor outside retained range; reconcile current health explicitly")
  pure (s.events.filter fun event => sequence < event.sequence)

/-- The events after a number of a journal of which the last ones are kept. -/
def since (journal : List HealthEvent) (n : ℕ) : Except HealthError (List HealthEvent) :=
  if journal.length - eventLimit ≤ n ∧ n ≤ journal.length then .ok (journal.drop n)
  else .error (.state "event cursor outside retained range; reconcile current health explicitly")

lemma Keeps.oldest {journal : List HealthEvent} {s : ServiceState O} (h : Keeps journal s) :
    s.oldest = (journal.length - eventLimit : ℕ) := by
  have hnumbers : s.events.map HealthEvent.sequence =
      List.range' (journal.length - eventLimit + 1) (retained eventLimit journal).length := by
    rw [h.events]
    exact h.numbered.map_retained
  rw [← h.events] at hnumbers
  unfold ServiceState.oldest
  cases hevents : s.events with
  | nil =>
      have hzero := h.events_nil.mp hevents
      have hlength := h.sequence
      dsimp only
      omega
  | cons event events =>
      rw [hevents, List.map_cons, List.length_cons, List.range'_succ] at hnumbers
      have hfirst := (List.cons.inj hnumbers).1
      dsimp only
      omega

lemma Keeps.eventsSince {journal : List HealthEvent} {s : ServiceState O} (h : Keeps journal s) (n : ℕ) :
    s.eventsSince n = since journal n := by
  have hfilter : (s.events.filter fun event => (n : ℤ) < event.sequence) = s.events.filter fun event => n < event.sequence :=
    List.filter_congr fun event _ => by simp
  unfold ServiceState.eventsSince since
  rw [h.oldest, h.sequence, hfilter, h.events]
  by_cases hrange : journal.length - eventLimit ≤ n ∧ n ≤ journal.length
  · have hcast : (((journal.length - eventLimit : ℕ) : ℤ) ≤ n && (n : ℤ) ≤ journal.length) = true := by
      simp only [Bool.and_eq_true, decide_eq_true_eq]
      omega
    rw [if_pos hrange, h.numbered.filter_retained hrange.1, hcast, decide_eq_true (Int.natCast_nonneg n)]
    rfl
  · have hcast : (((journal.length - eventLimit : ℕ) : ℤ) ≤ n && (n : ℤ) ≤ journal.length) = false := by
      rw [Bool.eq_false_iff, ne_eq, Bool.and_eq_true, decide_eq_true_eq, decide_eq_true_eq]
      omega
    rw [if_neg hrange, hcast, decide_eq_true (Int.natCast_nonneg n)]
    rfl

section runs

variable [DecidableEq ι] [DecidableEq O] [FloatText PyFloat] [HealthCodec O] {dataDir : String} {s t : Supervision ι O}

/-- **The journal only grows.** -/
lemma journal_grows {tr : List (SupervisionLabel ι × Supervision ι O)} (hrun : (supervision ι O dataDir).Run s tr t) :
    s.journal <+: t.journal := by
  refine hrun.rel (I := fun _ => True) (R := fun s t => s.journal <+: t.journal) (fun _ => List.prefix_rfl)
    (fun _ _ _ => List.IsPrefix.trans) (fun _ _ _ _ _ => trivial) (fun s a t _ hstep => ?_) trivial
  rcases supervisionStep?_cases hstep with ⟨write, outcome, -, -, rfl⟩ | hadvances | hobserves
  · rcases perform_cases dataDir s write outcome with ⟨holder, ht, -, -⟩ | ht
    · rw [ht]
      exact List.prefix_append _ _
    · rw [ht]
  · cases hadvances <;> exact List.prefix_rfl
  · cases hobserves <;> exact List.prefix_rfl

/-- **A reader with a cursor gets every event once.** Of a state that was published later, it gets exactly the events that
were published since the state whose number is its cursor, or an error if these are more than the file keeps. -/
theorem events_since {tr : List (SupervisionLabel ι × Supervision ι O)} (hs : (supervision ι O dataDir).Reachable s)
    (hrun : (supervision ι O dataDir).Run s tr t) {f g : ServiceState O} (hf : s.file = some f) (hg : t.file = some g) :
    ∃ new, t.journal = s.journal ++ new ∧
      g.eventsSince f.eventSequence = if new.length ≤ eventLimit then .ok new
        else .error (.state "event cursor outside retained range; reconcile current health explicitly") := by
  obtain ⟨new, hnew⟩ := journal_grows hrun
  have hkeepsF := (SupervisionInv.of_reachable hs).file f hf
  have hkeepsG := (SupervisionInv.of_reachable (hs.run hrun)).file g hg
  refine ⟨new, hnew.symm, ?_⟩
  rw [hkeepsG.eventsSince, hkeepsF.sequence, ← hnew, since, List.drop_left, List.length_append]
  refine if_congr ?_ rfl rfl
  omega

end runs

/-! ## The problems that the events tell -/

/-- The problems after the events: those of the last fault or recovery. -/
def openProblems (journal : List HealthEvent) : List String :=
  journal.foldl (fun problems event => if event.kind = .fault ∨ event.kind = .recovered then event.problems else problems) []

lemma openProblems_append (journal : List HealthEvent) (event : HealthEvent) :
    openProblems (journal ++ [event]) =
      if event.kind = .fault ∨ event.kind = .recovered then event.problems else openProblems journal := by
  rw [openProblems, List.foldl_append]
  rfl

/-- An event of another kind leaves the problems as they are. -/
lemma openProblems_append_of_ne {journal : List HealthEvent} {event : HealthEvent} (hfault : event.kind ≠ .fault)
    (hrecovered : event.kind ≠ .recovered) : openProblems (journal ++ [event]) = openProblems journal := by
  rw [openProblems_append, if_neg (by simp [hfault, hrecovered])]

/-- The events of a cycle tell its problems, if the events before it tell those of the cycle before. -/
lemma openProblems_cycleEvents [StageObservation O] {journal : List HealthEvent} {previous : Option (CycleHealth O)}
    (h : problemsOf previous = openProblems journal) (cycle : CycleHealth O) (eventMs : ℤ) :
    openProblems (journal ++ Keeps.cycleEvents journal previous cycle eventMs) = cycle.problems := by
  unfold Keeps.cycleEvents
  split
  · rw [openProblems_append]
    refine if_pos ?_
    dsimp only [Keeps.next]
    split
    · exact .inl rfl
    · exact .inr rfl
  · rename_i hsame
    rw [List.append_nil, ← h, not_not.mp hsame]

/-- What a state tells of its last cycle. -/
structure Tells [StageObservation O] (symbols : List String) (s : Supervision ι O) (state : ServiceState O) : Prop where
  problems : problemsOf state.lastCycle = openProblems (s.publish state).journal
  symbols : state.symbols = symbols

/-- What the file and the run tell. -/
structure TellsInv [StageObservation O] (symbols : List String) (s : Supervision ι O) : Prop where
  file : ∀ f, s.file = some f → Tells symbols s f
  holder : ∀ config stage state, s.holder = some (config, stage) → stage.state? = some state →
    config.symbols = symbols ∧ Tells symbols s state

/-- A start is one with these symbols. -/
def SameSymbols (symbols : List String) : SupervisionLabel ι → Prop
  | .start config _ _ _ _ => config.symbols = symbols
  | _ => True

section tells

variable [FloatText PyFloat] [HealthCodec O] {dataDir : String} {symbols : List String} {s t : Supervision ι O}
  {a : SupervisionLabel ι}

omit [FloatText PyFloat] [HealthCodec O] in
/-- Nothing of a published state is left to publish. -/
lemma journal_publish_self {f : ServiceState O} (h : Keeps s.journal f) : (s.publish f).journal = s.journal := by
  have hkeeps : Keeps (s.journal ++ []) f := by rwa [List.append_nil]
  rw [journal_publish hkeeps (Nat.zero_le _), List.append_nil]

/-- A state with the same last cycle and the same events tells the same. -/
lemma Tells.of_eq {state next : ServiceState O} (h : Tells symbols s state) (hcycle : next.lastCycle = state.lastCycle)
    (hevents : next.events = state.events) (hsymbols : next.symbols = state.symbols) : Tells symbols s next where
  problems := by
    rw [hcycle, h.problems]
    unfold Supervision.publish
    rw [hevents]
  symbols := hsymbols.trans h.symbols

/-- What is written tells the problems of its last cycle. -/
lemma tells_of_writes (hinv : SupervisionInv s) (htells : TellsInv symbols s) {write : Write O} {outcome : WriteOutcome}
    (h : Writes s a write outcome) (hsame : SameSymbols symbols a) : Tells symbols s write.state := by
  cases h with
  | @start config runId nowMs eventMs outcome state hholder hinterrupted hstate =>
      subst hstate
      have hconfig : config.symbols = symbols := hsame
      have hkeeps : Keeps _ (startState config s.file runId nowMs eventMs) := .start hinv.file hinv.empty
      refine ⟨?_, hconfig⟩
      rw [journal_publish hkeeps (by simp [eventLimit]), openProblems_append_of_ne
        (by split <;> exact fun h => by cases h) (by split <;> exact fun h => by cases h)]
      cases hfile : s.file with
      | none =>
          rw [hinv.empty hfile]
          rfl
      | some f =>
          have hf := htells.file f hfile
          have hkept : (some f : Option (ServiceState O)).filter (fun p => p.symbols = config.symbols) = some f := by
            rw [Option.filter_some, if_pos (decide_eq_true (hf.symbols.trans hconfig.symm))]
          have hproblems := hf.problems
          rw [journal_publish_self (hinv.file f hfile)] at hproblems
          rw [← hproblems]
          change problemsOf (((some f).filter fun p => p.symbols = config.symbols).bind ServiceState.lastCycle) = _
          rw [hkept, Option.bind_some]
  | beginCycle hholder hnext => exact hnext ▸ (htells.holder _ _ _ hholder rfl).2.of_eq rfl rfl rfl
  | beginScan hholder hnext => exact hnext ▸ (htells.holder _ _ _ hholder rfl).2.of_eq rfl rfl rfl
  | publishIdle hholder htick hnext => exact hnext ▸ (htells.holder _ _ _ hholder rfl).2.of_eq rfl rfl rfl
  | @stop config state nowMs eventMs outcome hholder =>
      obtain ⟨pending, hlength, hkeeps⟩ := (hinv.holder _ _ _ hholder rfl).keeps
      have hbefore := (htells.holder _ _ _ hholder rfl).2
      have hstopped := hkeeps.stop nowMs eventMs
      rw [List.append_assoc] at hstopped
      refine ⟨hbefore.problems.trans ?_, hbefore.symbols⟩
      rw [journal_publish hkeeps (by simp [eventLimit]; omega), journal_publish hstopped (by simp [eventLimit]; omega),
        ← List.append_assoc, openProblems_append_of_ne (fun h => by cases h) (fun h => by cases h)]
  | @recover state nowMs outcome hholder hfile hinterrupted horphans =>
      have hbefore := htells.file state hfile
      have hkeeps := hinv.file state hfile
      refine ⟨hbefore.problems.trans ?_, hbefore.symbols⟩
      rw [journal_publish_self hkeeps, journal_publish (hkeeps.recover nowMs) (by simp [eventLimit]),
        openProblems_append_of_ne (fun h => by cases h) (fun h => by cases h)]

/-- What a run tells does not change with its stage. -/
lemma TellsInv.moved (htells : TellsInv symbols s) {config : ServiceConfig} {stage stage' : Stage O} {state : ServiceState O}
    (hholder : s.holder = some (config, stage)) (hstate : stage'.state? = some state) (hstage : stage.state? = some state) :
    TellsInv symbols { s with holder := some (config, stage') } := by
  obtain ⟨hconfig, hsame⟩ := htells.holder _ _ _ hholder hstage
  refine ⟨fun f hf => ⟨(htells.file f hf).problems, (htells.file f hf).symbols⟩, fun config' other state' hsome hother => ?_⟩
  cases hsome
  obtain rfl := Option.some.inj (hstate.symm.trans hother)
  exact ⟨hconfig, hsame.problems, hsame.symbols⟩

lemma TellsInv.ended (htells : TellsInv symbols s) (orphans : ℕ) :
    TellsInv symbols { s with holder := none, orphans := orphans } :=
  ⟨fun f hf => ⟨(htells.file f hf).problems, (htells.file f hf).symbols⟩, fun _ _ _ h => by cases h⟩

lemma TellsInv.perform (hinv : SupervisionInv s) (htells : TellsInv symbols s) {write : Write O} {outcome : WriteOutcome}
    (h : Writes s a write outcome) (hsame : SameSymbols symbols a) : TellsInv symbols (s.perform dataDir write outcome) := by
  have hwrite := tells_of_writes hinv htells h hsame
  have hinv' := hinv.perform dataDir h
  have hconfig : ∀ config stage, write.done = some (config, stage) ∨ write.raised = some (config, stage) →
      config.symbols = symbols := by
    intro config stage hstage
    cases h with
    | start hholder hinterrupted hstate =>
        rcases hstage with hstage | hstage <;> cases hstage
        exact hsame
    | beginCycle hholder hnext =>
        rcases hstage with hstage | hstage <;> cases hstage <;> exact (htells.holder _ _ _ hholder rfl).1
    | beginScan hholder hnext =>
        rcases hstage with hstage | hstage <;> cases hstage <;> exact (htells.holder _ _ _ hholder rfl).1
    | publishIdle hholder htick hnext =>
        rcases hstage with hstage | hstage <;> cases hstage <;> exact (htells.holder _ _ _ hholder rfl).1
    | stop hholder =>
        rcases hstage with hstage | hstage <;> cases hstage <;> exact (htells.holder _ _ _ hholder rfl).1
    | recover hholder hfile hinterrupted horphans => rcases hstage with hstage | hstage <;> cases hstage
  rcases perform_cases dataDir s write outcome with ⟨holder, ht, hholder, -⟩ | ht
  · rw [ht] at hinv' ⊢
    have hself := journal_publish_self (hinv'.file write.state rfl)
    have hpublished : Tells symbols { s.publish write.state with holder := holder } write.state :=
      ⟨hwrite.problems.trans (congrArg openProblems hself.symm), hwrite.symbols⟩
    refine ⟨fun f hf => ?_, fun config stage state hsome hstate => ?_⟩
    · obtain rfl := Option.some.inj hf
      exact hpublished
    · have hstage : write.done = some (config, stage) ∨ write.raised = some (config, stage) :=
        hholder.imp (fun h => h.symm.trans hsome) (fun h => h.symm.trans hsome)
      obtain ⟨rfl, -⟩ := stage_of_writes hinv h hstage hstate
      exact ⟨hconfig config stage hstage, hpublished⟩
  · rw [ht]
    refine ⟨fun f hf => ⟨(htells.file f hf).problems, (htells.file f hf).symbols⟩, fun config stage state hsome hstate => ?_⟩
    obtain ⟨rfl, -⟩ := stage_of_writes hinv h (.inr hsome) hstate
    exact ⟨hconfig config stage (.inr hsome), hwrite.problems, hwrite.symbols⟩

lemma TellsInv.advance (hinv : SupervisionInv s) (htells : TellsInv symbols s) (h : Advances s a t) : TellsInv symbols t := by
  cases h with
  | enter hholder => exact htells.moved hholder rfl rfl
  | abandon hholder => exact htells.ended _
  | spawn hholder => exact htells.moved hholder rfl rfl
  | refreshEnds hholder => exact htells.moved hholder rfl rfl
  | @scanEnds config state tick startedMs completedMs eventMs refresh outcome cycle hholder hcycle =>
      obtain ⟨hconfig, hsame⟩ := htells.holder _ _ _ hholder rfl
      have hkeeps := hinv.file state ((hinv.holder _ _ _ hholder rfl).published rfl)
      have hproblems := hsame.problems
      rw [journal_publish_self hkeeps] at hproblems
      have hfinished := hkeeps.finish cycle eventMs
      have hlast : (finishCycle state cycle eventMs).lastCycle = some cycle ∧
          (finishCycle state cycle eventMs).symbols = state.symbols := by
        unfold finishCycle
        dsimp only
        split <;> exact ⟨rfl, rfl⟩
      refine ⟨fun f hf => ⟨(htells.file f hf).problems, (htells.file f hf).symbols⟩, fun config' stage state' hsome hstate => ?_⟩
      cases hsome
      cases hstate
      refine ⟨hconfig, ?_, hlast.2.trans hsame.symbols⟩
      change problemsOf (finishCycle state cycle eventMs).lastCycle =
        openProblems (s.publish (finishCycle state cycle eventMs)).journal
      have hfew : (Keeps.cycleEvents s.journal state.lastCycle cycle eventMs).length ≤ eventLimit :=
        (Keeps.length_cycleEvents _ _ _).trans (by decide)
      rw [journal_publish hfinished hfew, openProblems_cycleEvents hproblems, hlast.1, problemsOf]
  | @leave config stage state hholder hstate =>
      have hstage : stage.state? = some state := by
        cases stage <;> first | exact hstate | cases hstate
      exact htells.moved hholder rfl hstage
  | close hholder => exact htells.ended _
  | crash => exact htells.ended _
  | orphanEnds hne =>
      exact ⟨fun f hf => ⟨(htells.file f hf).problems, (htells.file f hf).symbols⟩, fun config stage state hsome hstate =>
        have h := htells.holder config stage state hsome hstate
        ⟨h.1, h.2.problems, h.2.symbols⟩⟩

lemma TellsInv.observe [DecidableEq ι] [DecidableEq O] (htells : TellsInv symbols s) (h : Observes s a t) :
    TellsInv symbols t := by
  have hkept : ∀ (readers : ι → Reader O) (fence : Option ι), TellsInv symbols { s with readers := readers, fence := fence } := by
    refine fun readers fence => ⟨fun f hf => ⟨(htells.file f hf).problems, (htells.file f hf).symbols⟩,
      fun config stage state hsome hstate => ?_⟩
    have h := htells.holder config stage state hsome hstate
    exact ⟨h.1, h.2.problems, h.2.symbols⟩
  cases h with
  | readFirst => exact hkept _ _
  | testLock hreader => exact hkept _ _
  | readAgain hreader => exact hkept _ _
  | takeFence hfence => exact hkept _ _
  | releaseFence hfence => exact hkept _ _

/-- **The events tell the problems of the last cycle**, whatever crashes and however writes end, as long as every start is
one with the same symbols. -/
theorem events_tell_problems [DecidableEq ι] [DecidableEq O]
    (h : ((supervision ι O dataDir).restrict fun _ a => SameSymbols symbols a).Reachable s) :
    ∀ f, s.file = some f → problemsOf f.lastCycle = openProblems s.journal := by
  have htells : TellsInv symbols s := by
    refine h.restrict_invariant ?_ fun s a t hreach htells hstep hsame => ?_
    · rintro s rfl
      exact ⟨fun _ h => (by cases h), fun _ _ _ h => (by cases h)⟩
    · have hinv := SupervisionInv.of_reachable hreach
      rcases supervisionStep?_cases hstep with ⟨write, outcome, hwrites, -, rfl⟩ | hadvances | hobserves
      · exact htells.perform hinv hwrites hsame
      · exact htells.advance hinv hadvances
      · exact htells.observe hobserves
  intro f hf
  rw [(htells.file f hf).problems, journal_publish_self ((SupervisionInv.of_reachable h.of_restrict).file f hf)]

end tells

/-! ## A small run -/

section concrete

open Notifications (DemoScan demoSha256)
open Notifications.ObservationFile (demoFloatText)

attribute [local instance] demoSha256 demoFloatText demoHealth

/-- The last state of the run. -/
def lastState : ServiceState DemoScan := stopState firstState 1 1

lemma lastState_accepted : (HealthStore.render "data" lastState).isOk = true := by decide +kernel

/-- The run is about to end. -/
def stoppingState : Supervision Unit DemoScan := { loopingState with holder := some (demoConfig, .stopping firstState) }

/-- The run has published its last state. -/
def stoppedState : Supervision Unit DemoScan :=
  { stoppingState.publish lastState with holder := some (demoConfig, .closing) }

lemma stop_step : supervisionStep? "data" stoppingState (.stop 1 1 .written) = some stoppedState := by
  have hwrite : stoppingState.writeOf? (.stop 1 1 .written) =
      some ((⟨lastState, some (demoConfig, .closing), some (demoConfig, .closing)⟩ : Write DemoScan), .written) := rfl
  exact step_of_written hwrite rfl lastState_accepted

/-- The runs of services for one symbol. -/
def demoRuns : System (Supervision Unit DemoScan) (SupervisionLabel Unit) :=
  (supervision Unit DemoScan "data").restrict fun _ a => SameSymbols ["BTC"] a

lemma startedState_sameSymbols : demoRuns.Reachable startedState := .step (.init rfl) ⟨start_step, rfl⟩

lemma exists_stop_run : ∃ tr, demoRuns.Run startedState tr stoppedState := by
  have henter : demoRuns.step startedState (.enter 0) loopingState := ⟨rfl, trivial⟩
  have hleave : demoRuns.step loopingState .leave stoppingState := ⟨rfl, trivial⟩
  have hstop : demoRuns.step stoppingState (.stop 1 1 .written) stoppedState :=
    ⟨stop_step, trivial⟩
  exact ⟨_, .cons henter (.cons hleave (.single hstop))⟩

/-- Whoever has read the first event gets the event of the end. -/
theorem events_since_demo : ∃ new, stoppedState.journal = startedState.journal ++ new ∧
    lastState.eventsSince firstState.eventSequence = if new.length ≤ eventLimit then .ok new
      else .error (.state "event cursor outside retained range; reconcile current health explicitly") :=
  exists_stop_run.elim fun _ hrun => events_since startedState_reachable hrun.of_restrict rfl rfl

/-- The events of the run tell no problem, and there is none. -/
theorem events_tell_problems_demo : problemsOf lastState.lastCycle = openProblems stoppedState.journal :=
  exists_stop_run.elim fun _ hrun => events_tell_problems (startedState_sameSymbols.run hrun) lastState rfl

end concrete

end MuStrategy.Service
