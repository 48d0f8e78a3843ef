import MuStrategy.Service.Supervision

/-!
# One worker at a time

Whatever crashes, and however writes end: two children of the service never run at once, because a run publishes the phase
of a child before it starts it, and a new run refuses to start after such a phase.

* `SupervisionInv` — what the file, the journal and the run have to do with each other; `SupervisionInv.of_reachable`.
* `single_worker` — two children never run at once.
-/

namespace MuStrategy.Service

open Lib
open Notifications (Phase StageObservation)

variable {ι O : Type} {s t : Supervision ι O} {a : SupervisionLabel ι}

/-! ## The invariant -/

/-- What a run and the file have to do with each other. -/
structure Holds (s : Supervision ι O) (stage : Stage O) (state : ServiceState O) : Prop where
  /-- The file is of this run. -/
  file : ∃ f, s.file = some f ∧ f.runId = state.runId
  /-- The events of the run are those of the journal, and at most one that is not published. -/
  keeps : ∃ pending, pending.length ≤ 1 ∧ Keeps (s.journal ++ pending) state
  running : stage.running? = some state → state.running = true
  published : stage.published? = some state → s.file = some state
  phase : ∀ progress, stage.progress? = some progress → state.phase = progress.phase

/-- What the file, the journal, the run and the children have to do with each other. -/
structure SupervisionInv (s : Supervision ι O) : Prop where
  file : ∀ f, s.file = some f → Keeps s.journal f
  empty : s.file = none → s.journal = []
  holder : ∀ config stage state, s.holder = some (config, stage) → stage.state? = some state → Holds s stage state
  /-- A child that was left behind is the only one, and the file tells of it. -/
  orphans : s.orphans ≠ 0 → s.orphans = 1 ∧ s.holder = none ∧ s.interrupted = true

/-- The journal gets the events that were not published. -/
lemma journal_publish {state : ServiceState O} {pending : List HealthEvent} (h : Keeps (s.journal ++ pending) state)
    (hlength : pending.length ≤ eventLimit) : (s.publish state).journal = s.journal ++ pending := by
  have hkept : (s.journal ++ pending).length - eventLimit ≤ s.journal.length := by
    rw [List.length_append]
    omega
  change s.journal ++ (state.events.filter fun event => s.journal.length < event.sequence) = _
  rw [h.events, h.numbered.filter_retained hkept, List.drop_left]

/-- What is written keeps the journal, and at most two events that are not published. -/
lemma keeps_of_writes (hinv : SupervisionInv s) {write : Write O} {outcome : WriteOutcome} (h : Writes s a write outcome) :
    ∃ pending, pending.length ≤ 2 ∧ Keeps (s.journal ++ pending) write.state := by
  have hsame : ∀ {config : ServiceConfig} {stage : Stage O} {state next : ServiceState O},
      s.holder = some (config, stage) → stage.state? = some state → next.events = state.events →
      next.eventSequence = state.eventSequence → ∃ pending, pending.length ≤ 2 ∧ Keeps (s.journal ++ pending) next := by
    intro config stage state next hholder hstate hevents hsequence
    obtain ⟨pending, hlength, hkeeps⟩ := (hinv.holder _ _ _ hholder hstate).keeps
    exact ⟨pending, by omega, hkeeps.of_eq hevents hsequence⟩
  cases h with
  | start hholder hinterrupted hstate => exact hstate ▸ ⟨_, by simp, .start hinv.file hinv.empty⟩
  | beginCycle hholder hnext => exact hnext ▸ hsame hholder rfl rfl rfl
  | beginScan hholder hnext => exact hnext ▸ hsame hholder rfl rfl rfl
  | publishIdle hholder htick hnext => exact hnext ▸ hsame hholder rfl rfl rfl
  | stop hholder =>
      obtain ⟨pending, hlength, hkeeps⟩ := (hinv.holder _ _ _ hholder rfl).keeps
      have hstopped := hkeeps.stop
      simp only [List.append_assoc] at hstopped
      refine ⟨_, ?_, hstopped _ _⟩
      rw [List.length_append, List.length_singleton]
      omega
  | recover hholder hfile hinterrupted horphans => exact ⟨_, by simp, (hinv.file _ hfile).recover _⟩

/-- No child was left behind when a state is written. -/
lemma orphans_of_writes (hinv : SupervisionInv s) {write : Write O} {outcome : WriteOutcome} (h : Writes s a write outcome) :
    s.orphans = 0 := by
  by_contra hne
  obtain ⟨-, hnone, hinterrupted⟩ := hinv.orphans hne
  cases h with
  | start hholder hidle hstate => rw [hinterrupted] at hidle; cases hidle
  | beginCycle hholder hnext => rw [hnone] at hholder; cases hholder
  | beginScan hholder hnext => rw [hnone] at hholder; cases hholder
  | publishIdle hholder htick hnext => rw [hnone] at hholder; cases hholder
  | stop hholder => rw [hnone] at hholder; cases hholder
  | recover hholder hfile hidle horphans => exact hne horphans

/-- What a run has to do with the file after a step that wrote its state. -/
lemma Holds.of_published {stage : Stage O} {state : ServiceState O} (hfile : t.file = some state)
    (hkeeps : Keeps t.journal state) (hrunning : stage.running? = some state → state.running = true)
    (hphase : ∀ progress, stage.progress? = some progress → state.phase = progress.phase) : Holds t stage state where
  file := ⟨state, hfile, rfl⟩
  keeps := ⟨[], by simp, by rwa [List.append_nil]⟩
  running := hrunning
  published _ := hfile
  phase := hphase

/-- Where a process is after a write: its state is the one that it wrote. -/
lemma stage_of_writes (hinv : SupervisionInv s) {write : Write O} {outcome : WriteOutcome} (h : Writes s a write outcome)
    {config : ServiceConfig} {stage : Stage O} {state : ServiceState O}
    (hstage : write.done = some (config, stage) ∨ write.raised = some (config, stage)) (hstate : stage.state? = some state) :
    state = write.state ∧ (stage.running? = some state → state.running = true) ∧
      ∀ progress, stage.progress? = some progress → state.phase = progress.phase := by
  have hstopping : ∀ {next : ServiceState O}, (Stage.stopping next).running? = some next → next.running = true :=
    fun h => by cases h
  have hquiet : ∀ {next : ServiceState O} {p : Prop} (progress : Progress),
      (Stage.stopping next).progress? = some progress → p := fun _ h => by cases h
  cases h with
  | start hholder hinterrupted hnext =>
      rcases hstage with hstage | hstage <;> cases hstage
      cases hstate
      subst hnext
      exact ⟨rfl, fun _ => rfl, fun _ h => by cases h⟩
  | @beginCycle _ before next _ _ _ _ hholder hnext =>
      have hrunning := (hinv.holder _ _ _ hholder rfl).running rfl
      rcases hstage with hstage | hstage <;> cases hstage <;> cases hstate
      · refine ⟨rfl, fun _ => hnext ▸ hrunning, fun progress h => ?_⟩
        cases h
        exact hnext ▸ rfl
      · exact ⟨rfl, hstopping, fun progress h => hquiet progress h⟩
  | beginScan hholder hnext =>
      have hrunning := (hinv.holder _ _ _ hholder rfl).running rfl
      rcases hstage with hstage | hstage <;> cases hstage <;> cases hstate
      · refine ⟨rfl, fun _ => hnext ▸ hrunning, fun progress h => ?_⟩
        cases h
        exact hnext ▸ rfl
      · exact ⟨rfl, hstopping, fun progress h => hquiet progress h⟩
  | publishIdle hholder htick hnext =>
      have hrunning := (hinv.holder _ _ _ hholder rfl).running rfl
      rcases hstage with hstage | hstage <;> cases hstage <;> cases hstate
      · exact ⟨rfl, fun _ => hnext ▸ hrunning, fun _ h => by cases h⟩
      · exact ⟨rfl, hstopping, fun progress h => hquiet progress h⟩
  | stop hholder =>
      rcases hstage with hstage | hstage <;> cases hstage <;> cases hstate
  | recover hholder hfile hinterrupted horphans =>
      rcases hstage with hstage | hstage <;> cases hstage

/-- A write that raises in the loop leads to `finally`, with the state that it did not write. -/
lemma stopping_of_raised {write : Write O} {outcome : WriteOutcome} (h : Writes s a write outcome) {config : ServiceConfig}
    {stage : Stage O} {state : ServiceState O} (hstage : write.raised = some (config, stage))
    (hstate : stage.state? = some state) :
    stage = .stopping state ∧ ∃ before stage', s.holder = some (config, stage') ∧ stage'.state? = some before ∧
      state.runId = before.runId ∧ state.events = before.events ∧ state.eventSequence = before.eventSequence := by
  cases h with
  | start hholder hinterrupted hnext => cases hstage
  | beginCycle hholder hnext =>
      cases hstage
      cases hstate
      exact ⟨rfl, _, _, hholder, rfl, hnext ▸ ⟨rfl, rfl, rfl⟩⟩
  | beginScan hholder hnext =>
      cases hstage
      cases hstate
      exact ⟨rfl, _, _, hholder, rfl, hnext ▸ ⟨rfl, rfl, rfl⟩⟩
  | publishIdle hholder htick hnext =>
      cases hstage
      cases hstate
      exact ⟨rfl, _, _, hholder, rfl, hnext ▸ ⟨rfl, rfl, rfl⟩⟩
  | stop hholder =>
      cases hstage
      cases hstate
  | recover hholder hfile hinterrupted horphans => cases hstage

/-- A run that is about to write its last state holds what it held before. -/
lemma Holds.stopping {stage : Stage O} {state next : ServiceState O} (h : Holds s stage state) (hfile : t.file = s.file)
    (hjournal : t.journal = s.journal) (hrun : next.runId = state.runId) (hevents : next.events = state.events)
    (hsequence : next.eventSequence = state.eventSequence) : Holds t (.stopping next) next where
  file := by
    obtain ⟨f, hf, hsame⟩ := h.file
    exact ⟨f, hfile.trans hf, hsame.trans hrun.symm⟩
  keeps := by
    obtain ⟨pending, hlength, hkeeps⟩ := h.keeps
    exact ⟨pending, hlength, hjournal ▸ hkeeps.of_eq hevents hsequence⟩
  running h := by cases h
  published h := by cases h
  phase _ h := by cases h

section steps

variable [FloatText PyFloat] [HealthCodec O] {dataDir : String}

lemma SupervisionInv.perform (dataDir : String) (hinv : SupervisionInv s) {write : Write O} {outcome : WriteOutcome}
    (h : Writes s a write outcome) : SupervisionInv (s.perform dataDir write outcome) := by
  have horphans := orphans_of_writes hinv h
  rcases perform_cases dataDir s write outcome with ⟨holder, ht, hholder, -⟩ | ht
  · obtain ⟨pending, hlength, hkeeps⟩ := keeps_of_writes hinv h
    have hjournal := journal_publish hkeeps (hlength.trans (by decide))
    rw [ht]
    have hpublished : Keeps (s.publish write.state).journal write.state := hjournal ▸ hkeeps
    refine ⟨fun f hf => ?_, fun hnone => ?_, fun config stage state hsome hstate => ?_, fun hne => absurd horphans hne⟩
    · obtain rfl := Option.some.inj hf
      exact hpublished
    · cases hnone
    · have hstage : write.done = some (config, stage) ∨ write.raised = some (config, stage) :=
        hholder.imp (fun h => h.symm.trans hsome) (fun h => h.symm.trans hsome)
      obtain ⟨rfl, hrunning, hphase⟩ := stage_of_writes hinv h hstage hstate
      exact .of_published rfl hpublished hrunning hphase
  · rw [ht]
    refine ⟨hinv.file, hinv.empty, fun config stage state hsome hstate => ?_, fun hne => absurd horphans hne⟩
    obtain ⟨rfl, before, stage', hs, hbefore, hrun, hevents, hsequence⟩ := stopping_of_raised h hsome hstate
    exact (hinv.holder _ _ _ hs hbefore).stopping rfl rfl hrun hevents hsequence

omit [FloatText PyFloat] [HealthCodec O] in
/-- A run that changes nothing but its stage. -/
lemma SupervisionInv.moved (hinv : SupervisionInv s) {config : ServiceConfig} {stage stage' : Stage O}
    {state : ServiceState O} (hholder : s.holder = some (config, stage)) (hstate : stage'.state? = some state)
    (hholds : Holds { s with holder := some (config, stage') } stage' state) :
    SupervisionInv { s with holder := some (config, stage') } := by
  refine ⟨hinv.file, hinv.empty, fun config' other state' hsome hother => ?_, fun hne => ?_⟩
  · cases hsome
    obtain rfl := Option.some.inj (hstate.symm.trans hother)
    exact hholds
  · have hnone := (hinv.orphans hne).2.1
    rw [hholder] at hnone
    cases hnone

omit [FloatText PyFloat] [HealthCodec O] in
/-- After a run. -/
lemma SupervisionInv.ended (hinv : SupervisionInv s) {held : Holder O} (hholder : s.holder = some held) :
    SupervisionInv { s with holder := none } := by
  refine ⟨hinv.file, hinv.empty, fun _ _ _ h => (by cases h), fun hne => ?_⟩
  have hnone := (hinv.orphans hne).2.1
  rw [hholder] at hnone
  cases hnone

omit [FloatText PyFloat] [HealthCodec O] in
/-- A run whose child is alive has published that it runs one. -/
lemma SupervisionInv.working (hinv : SupervisionInv s) (hworking : s.holder.any (fun h => h.2.isWorking) = true) :
    s.interrupted = true := by
  obtain ⟨⟨config, stage⟩, hholder, hstage⟩ := (Option.any_eq_true _ _).mp hworking
  cases stage with
  | working state tick progress =>
      have hholds := hinv.holder _ _ _ hholder rfl
      have hphase : state.phase ≠ .idle := by
        rw [hholds.phase progress rfl, Progress.phase]
        split <;> exact fun h => by cases h
      rw [Supervision.interrupted, hholds.published rfl, Option.any_some, ServiceState.interrupted, hholds.running rfl,
        Bool.true_and, decide_eq_true_eq]
      exact hphase
  | _ => cases hstage

lemma SupervisionInv.advance (hinv : SupervisionInv s) (h : Advances s a t) : SupervisionInv t := by
  cases h with
  | enter hholder =>
      have h := hinv.holder _ _ _ hholder rfl
      exact hinv.moved hholder rfl ⟨h.file, h.keeps, fun _ => h.running rfl, fun _ => h.published rfl, fun _ h => by cases h⟩
  | abandon hholder => exact hinv.ended hholder
  | spawn hholder =>
      have h := hinv.holder _ _ _ hholder rfl
      exact hinv.moved hholder rfl ⟨h.file, h.keeps, fun _ => h.running rfl, fun _ => h.published rfl, h.phase⟩
  | refreshEnds hholder =>
      have h := hinv.holder _ _ _ hholder rfl
      exact hinv.moved hholder rfl ⟨h.file, h.keeps, fun _ => h.running rfl, fun _ => h.published rfl, fun _ h => by cases h⟩
  | @scanEnds config state tick startedMs completedMs eventMs refresh outcome cycle hholder hcycle =>
      have h := hinv.holder _ _ _ hholder rfl
      have hpublished := hinv.file _ (h.published rfl)
      have hfile : (finishCycle state cycle eventMs).runId = state.runId ∧
          (finishCycle state cycle eventMs).running = state.running := by
        unfold finishCycle
        dsimp only
        split <;> exact ⟨rfl, rfl⟩
      refine hinv.moved hholder rfl ⟨⟨state, h.published rfl, hfile.1.symm⟩, ⟨_, Keeps.length_cycleEvents _ _ _,
        hpublished.finish cycle eventMs⟩, fun _ => hfile.2.trans (h.running rfl), fun h => (by cases h), fun _ h => (by cases h)⟩
  | @leave config stage state hholder hstate =>
      have hstage : stage.state? = some state := by
        cases stage <;> first | exact hstate | cases hstate
      have h := hinv.holder _ _ _ hholder hstage
      exact hinv.moved hholder rfl (h.stopping rfl rfl rfl rfl rfl)
  | close hholder => exact hinv.ended hholder
  | crash =>
      refine ⟨hinv.file, hinv.empty, fun _ _ _ h => (by cases h), fun hne => ?_⟩
      by_cases hleft : s.orphans = 0
      · have hworking : s.holder.any (fun h => h.2.isWorking) = true := by
          by_contra hidle
          exact hne (by dsimp only [Supervision.workers]; rw [if_neg hidle, hleft])
        refine ⟨?_, rfl, hinv.working hworking⟩
        dsimp only [Supervision.workers]
        rw [if_pos hworking, hleft]
      · obtain ⟨hone, hnone, hinterrupted⟩ := hinv.orphans hleft
        refine ⟨?_, rfl, hinterrupted⟩
        dsimp only [Supervision.workers]
        rw [hnone, hone]
        rfl
  | orphanEnds hne =>
      obtain ⟨hone, hnone, -⟩ := hinv.orphans hne
      refine ⟨hinv.file, hinv.empty, fun config stage state hsome _ => ?_, fun hpositive => ?_⟩
      · exact absurd (hsome.symm.trans hnone) fun h => by cases h
      · exact absurd hpositive (by dsimp only; omega)

variable [DecidableEq ι] [DecidableEq O]

omit [FloatText PyFloat] [HealthCodec O] in
lemma SupervisionInv.observe (hinv : SupervisionInv s) (h : Observes s a t) : SupervisionInv t := by
  have hkept : ∀ (readers : ι → Reader O) (fence : Option ι), SupervisionInv { s with readers := readers, fence := fence } := by
    refine fun readers fence => ⟨hinv.file, hinv.empty, fun config stage state hsome hstate => ?_, hinv.orphans⟩
    have h := hinv.holder config stage state hsome hstate
    exact ⟨h.file, h.keeps, h.running, h.published, h.phase⟩
  cases h with
  | readFirst => exact hkept _ _
  | testLock hreader => exact hkept _ _
  | readAgain hreader => exact hkept _ _
  | takeFence hfence => exact hkept _ _
  | releaseFence hfence => exact hkept _ _

/-- **The invariant holds in every reachable state.** -/
theorem SupervisionInv.of_reachable (h : (supervision ι O dataDir).Reachable s) : SupervisionInv s := by
  refine h.invariant ?_ fun s a t hinv hstep => ?_
  · rintro s rfl
    exact ⟨fun _ h => (by cases h), fun _ => rfl, fun _ _ _ h => (by cases h), fun h => absurd rfl h⟩
  · rcases supervisionStep?_cases hstep with ⟨write, outcome, hwrites, -, rfl⟩ | hadvances | hobserves
    · exact hinv.perform dataDir hwrites
    · exact hinv.advance hadvances
    · exact hinv.observe hobserves

/-- **Two children of the service never run at once**, in any interleaving of runs, crashes and confirmed recoveries. While
one runs, the file says so; and while one runs whose service crashed, no service starts. -/
theorem single_worker (h : (supervision ι O dataDir).Reachable s) :
    s.workers ≤ 1 ∧ (0 < s.workers → s.interrupted = true) ∧
      (0 < s.orphans → ∀ config runId nowMs eventMs outcome,
        supervisionStep? dataDir s (.start config runId nowMs eventMs outcome) = none) := by
  have hinv := SupervisionInv.of_reachable h
  by_cases hleft : s.orphans = 0
  · refine ⟨?_, fun hpositive => hinv.working ?_, fun hpositive => absurd hleft hpositive.ne'⟩
    · rw [Supervision.workers, hleft]
      split <;> omega
    · by_contra hidle
      rw [Supervision.workers, hleft, if_neg hidle] at hpositive
      exact absurd hpositive (lt_irrefl 0)
  · obtain ⟨hone, hnone, hinterrupted⟩ := hinv.orphans hleft
    refine ⟨?_, fun _ => hinterrupted, fun _ config runId nowMs eventMs outcome => ?_⟩
    · rw [Supervision.workers, hone, hnone]
      exact le_rfl
    · simp only [supervisionStep?, Supervision.writeOf?, hnone, hinterrupted, if_true]
      rfl

end steps

/-! ## A small run -/

section concrete

open Notifications (DemoScan demoSha256)
open Notifications.ObservationFile (demoFloatText demoCodec)

attribute [local instance] demoSha256 demoFloatText

/-- How the scans of the small run are written and read. -/
@[reducible] def demoHealth : HealthCodec DemoScan where
  toObservationCodec := demoCodec
  ofDict_apply order scan := by
    obtain ⟨ready, atMs⟩ := scan
    have hdict : (Json.obj [("ready", .bool ready), ("at_ms", .int atMs)] : JsonValue).IsDict :=
      ⟨_, rfl, show ["ready", "at_ms"].Nodup by decide⟩
    change (((order.apply (Json.obj _)).get? "at_ms").bind Json.int?).bind (fun atMs =>
      some (DemoScan.mk (decide ((order.apply (Json.obj _)).get? "ready" = some (.bool true))) atMs)) = _
    rw [order.get?_apply hdict, order.get?_apply hdict]
    have hvalues : (Json.obj [("ready", .bool ready), ("at_ms", .int atMs)] : JsonValue).get? "at_ms" = some (.int atMs) ∧
        (Json.obj [("ready", .bool ready), ("at_ms", .int atMs)] : JsonValue).get? "ready" = some (.bool ready) :=
      ⟨rfl, rfl⟩
    rw [hvalues.1, hvalues.2, Option.map_some, Option.map_some, order.apply_int, order.apply_bool]
    rfl
  ofDict_stable {value scan} h := by
    obtain ⟨ready, atMs⟩ := scan
    cases ready <;> rfl

attribute [local instance] demoHealth

lemma demoSymbols_ne : ["BTC"] ≠ [] := List.cons_ne_nil _ _

lemma demoSymbols_nodup : ["BTC"].Nodup := List.nodup_singleton _

/-- A service for one symbol, which does all it does in a second. -/
def demoConfig : ServiceConfig where
  dataDir := "data"
  symbols := ["BTC"]
  intervalSeconds := 1
  refreshTimeoutSeconds := 1
  scanTimeoutSeconds := 1
  symbols_ne := demoSymbols_ne
  symbols_nodup := demoSymbols_nodup
  interval_pos := Int.zero_lt_one
  refreshTimeout_pos := Int.zero_lt_one
  scanTimeout_pos := Int.zero_lt_one

/-- A write that is accepted and succeeds. -/
lemma step_of_written {s : Supervision Unit DemoScan} {a : SupervisionLabel Unit} {write : Write DemoScan}
    (hwrite : s.writeOf? a = some (write, .written)) (hfree : s.fence = none)
    (hrender : (HealthStore.render "data" write.state).isOk = true) :
    supervisionStep? "data" s a = some { s.publish write.state with holder := write.done } := by
  have hreplaces : Supervision.replaces "data" write .written = true := by
    rw [Supervision.replaces, hrender]
    rfl
  rw [supervisionStep?, hwrite]
  dsimp only
  rw [hfree, if_neg (fun h => by cases h.1), Supervision.perform, if_pos hreplaces, if_pos rfl]

/-- The first state of a run. -/
def firstState : ServiceState DemoScan := startState demoConfig none "run" 0 0

/-- The state while its first child runs. -/
def refreshState : ServiceState DemoScan := phaseState firstState .refresh 1 1

lemma firstState_accepted : (HealthStore.render "data" firstState).isOk = true := by decide +kernel

lemma refreshState_accepted : (HealthStore.render "data" refreshState).isOk = true := by decide +kernel

/-- A run has started. -/
def startedState : Supervision Unit DemoScan :=
  { Supervision.initial.publish firstState with holder := some (demoConfig, .booted firstState) }

lemma start_step : supervisionStep? "data" .initial (.start demoConfig "run" 0 0 .written) = some startedState := by
  have hwrite : Supervision.initial.writeOf? (.start demoConfig "run" 0 0 .written : SupervisionLabel Unit) =
      some ((⟨firstState, some (demoConfig, .booted firstState), none⟩ : Write DemoScan), .written) := rfl
  exact step_of_written hwrite rfl firstState_accepted

lemma startedState_reachable : (supervision Unit DemoScan "data").Reachable startedState := .step (.init rfl) start_step

/-- It loops. -/
def loopingState : Supervision Unit DemoScan := { startedState with holder := some (demoConfig, .looping firstState 0) }

/-- Its child is about to start. -/
def phasedState : Supervision Unit DemoScan :=
  { loopingState.publish refreshState with holder := some (demoConfig, .phased refreshState 0 ⟨1, none⟩) }

/-- Its child runs. -/
def workingState : Supervision Unit DemoScan :=
  { phasedState with holder := some (demoConfig, .working refreshState 0 ⟨1, none⟩) }

lemma begin_step : supervisionStep? "data" loopingState (.beginCycle 1 1 .written) = some phasedState := by
  have hwrite : loopingState.writeOf? (.beginCycle 1 1 .written) =
      some ((⟨refreshState, some (demoConfig, .phased refreshState 0 ⟨1, none⟩), some (demoConfig, .stopping refreshState)⟩ :
        Write DemoScan), .written) := rfl
  exact step_of_written hwrite rfl refreshState_accepted

/-- The service crashes while the child runs. -/
def crashedState : Supervision Unit DemoScan := { phasedState with holder := none, orphans := 1 }

lemma crashedState_reachable : (supervision Unit DemoScan "data").Reachable crashedState := by
  have hlooping : (supervision Unit DemoScan "data").Reachable loopingState := startedState_reachable.step (a := .enter 0) rfl
  have hphased : (supervision Unit DemoScan "data").Reachable phasedState :=
    hlooping.step begin_step
  have hworking : (supervision Unit DemoScan "data").Reachable workingState := hphased.step (a := .spawn) rfl
  exact hworking.step (a := .crash) rfl

/-- The child is left behind, and no service starts beside it. -/
theorem single_worker_demo : crashedState.workers = 1 ∧ crashedState.workers ≤ 1 ∧ crashedState.interrupted = true ∧
    ∀ config runId nowMs eventMs outcome,
      supervisionStep? "data" crashedState (.start config runId nowMs eventMs outcome) = none := by
  obtain ⟨hworkers, hinterrupted, hstart⟩ := single_worker crashedState_reachable
  exact ⟨rfl, hworkers, hinterrupted Nat.one_pos, hstart Nat.one_pos⟩

end concrete

end MuStrategy.Service
