import Mathlib.Data.Rat.Floor
import MuStrategy.Lib.Retention
import MuStrategy.Service.Workers

/-!
# What a run of the signal service publishes

The states between which a run moves, as functions of what the clock and the children say. A state keeps the last events
of a journal that only grows.

* `startState`, `phaseState`, `finishCycle`, `idleState`, `stopState`, `recoverState` — the next states.
* `Keeps` — a state keeps the end of a journal.
* `ServiceState.Sound` — the rest of what an accepted state fulfils; `valid_of_sound`.
* `advanceTick_spec` — the ticks of a run.
-/

namespace MuStrategy.Service

open Lib
open Notifications (StepStatus Phase HealthEventKind StageObservation)

/-! ## What reminders read -/

section reminders

variable {O : Type}

/-- What reminders and the health view read of a cycle. -/
def CycleHealth.toReminders (c : CycleHealth O) : Notifications.CycleHealth O where
  serviceRunId := c.serviceRunId
  startedAtMs := c.startedAtMs.toNat
  refresh := ⟨c.refresh.status, c.refresh.runId⟩
  scan := ⟨c.scan.status, c.scan.cycle, c.scan.persistence⟩

/-- What reminders read of an event. -/
def HealthEvent.toReminders (event : HealthEvent) : Notifications.HealthEvent :=
  ⟨event.sequence, event.atMs.toNat, event.kind, event.problems⟩

/-- What reminders and the health view read of a state. -/
def ServiceState.toReminders (s : ServiceState O) : Notifications.ServiceState O where
  symbols := s.symbols
  runId := s.runId
  running := s.running
  phase := s.phase
  updatedAtMs := s.updatedAtMs.toNat
  deadlineMs := s.deadlineMs.toNat
  lastCycle := s.lastCycle.map CycleHealth.toReminders
  events := s.events.map HealthEvent.toReminders
  eventSequence := s.eventSequence

/-- Source: `service_health.py` `CycleHealth.problems`. -/
def CycleHealth.problems [StageObservation O] (c : CycleHealth O) : List String := c.toReminders.problems

/-- `previous.problems() if previous else ()`. -/
def problemsOf [StageObservation O] (cycle : Option (CycleHealth O)) : List String :=
  match cycle with
  | none => []
  | some c => c.problems

/-- A problem is a text. -/
lemma isText_problems [StageObservation O] (c : CycleHealth O) : ∀ problem ∈ c.problems, isText problem = true := by
  have hstatus : ∀ status : StepStatus, isText ("refresh." ++ status.value) = true ∧
      isText ("scan." ++ status.value) = true ∧ isText ("persistence." ++ status.value) = true := by
    intro status
    cases status <;> decide
  have hif : ∀ {p : Prop} [Decidable p] {s : String}, isText s = true →
      ∀ problem ∈ (if p then [s] else []), isText problem = true := by
    intro p _ s hs problem hproblem
    split at hproblem
    · rwa [List.mem_singleton.mp hproblem]
    · cases hproblem
  unfold CycleHealth.problems Notifications.CycleHealth.problems
  simp only [List.forall_mem_append]
  exact ⟨⟨⟨⟨⟨hif (hstatus _).1, hif (hstatus _).2.1⟩, hif (by decide)⟩, hif (by decide)⟩, hif (by decide)⟩,
    hif (hstatus _).2.2⟩

end reminders

/-! ## The configuration and the ticks -/

/-- A configuration that passed its checks, with resolved symbols. Source: `signal_service.py` `ServiceConfig`. -/
structure ServiceConfig where
  dataDir : String
  symbols : List String
  intervalSeconds : ℤ
  refreshTimeoutSeconds : ℤ
  scanTimeoutSeconds : ℤ
  symbols_ne : symbols ≠ []
  symbols_nodup : symbols.Nodup
  interval_pos : 0 < intervalSeconds
  refreshTimeout_pos : 0 < refreshTimeoutSeconds
  scanTimeout_pos : 0 < scanTimeoutSeconds

/-- Source: `signal_service.py` `DEADLINE_GRACE_MS`. -/
def deadlineGraceMs : ℤ := 30000

/-- The tick after a cycle. Source: `signal_service.py` `SignalService.run`, `next_tick`.
Fidelity: monotonic time is exact. -/
def advanceTick (interval : ℤ) (nextTick currentTick : ℚ) : ℚ :=
  let nextTick := nextTick + interval
  if nextTick ≤ currentTick then nextTick + (⌊(currentTick - nextTick) / interval⌋ + 1) * interval else nextTick

/-- The wait for a tick, in milliseconds. -/
def waitMs (nextTick currentTick : ℚ) : ℤ := ⌊max 0 (nextTick - currentTick) * 1000⌋

lemma waitMs_nonneg (nextTick currentTick : ℚ) : 0 ≤ waitMs nextTick currentTick :=
  Int.floor_nonneg.mpr (mul_nonneg (le_max_left _ _) (by norm_num))

/-- **The next tick** is in the future, a whole number of intervals later, and no further ahead than it has to be. -/
theorem advanceTick_spec {interval : ℤ} (hinterval : 0 < interval) (nextTick currentTick : ℚ) :
    currentTick < advanceTick interval nextTick currentTick ∧
      (∃ k : ℤ, 1 ≤ k ∧ advanceTick interval nextTick currentTick = nextTick + k * interval) ∧
      (nextTick + interval ≤ currentTick → advanceTick interval nextTick currentTick ≤ currentTick + interval) := by
  have hpos : (0 : ℚ) < interval := by exact_mod_cast hinterval
  unfold advanceTick
  dsimp only
  split
  · rename_i hlate
    obtain ⟨k, hk⟩ : ∃ k, k = ⌊(currentTick - (nextTick + interval)) / interval⌋ := ⟨_, rfl⟩
    have hquotient : 0 ≤ (currentTick - (nextTick + interval)) / interval := div_nonneg (by linarith) hpos.le
    have hk0 : 0 ≤ k := hk ▸ Int.floor_nonneg.mpr hquotient
    have hlower : (k : ℚ) * interval ≤ currentTick - (nextTick + interval) := by
      rw [← le_div_iff₀ hpos, hk]
      exact Int.floor_le _
    have hupper : currentTick - (nextTick + interval) < (k + 1) * interval := by
      rw [← div_lt_iff₀ hpos, hk]
      exact Int.lt_floor_add_one _
    rw [← hk]
    refine ⟨by linarith, ⟨k + 2, by omega, ?_⟩, fun _ => by linarith⟩
    push_cast
    ring
  · rename_i hearly
    refine ⟨not_le.mp hearly, ⟨1, le_rfl, ?_⟩, fun hlate => absurd hlate hearly⟩
    push_cast
    ring

variable {O : Type}

/-! ## States -/

/-- Source: `signal_service.py` `SignalService._event`. -/
def ServiceState.appendEvent (s : ServiceState O) (kind : HealthEventKind) (problems : List String) (atMs : ℤ) :
    ServiceState O :=
  { s with
    events := retained eventLimit (s.events ++ [⟨s.eventSequence + 1, atMs, kind, problems⟩])
    eventSequence := s.eventSequence + 1 }

/-- The state of a new run. Source: `signal_service.py` `SignalService.run`, up to its first `write`. -/
def startState (config : ServiceConfig) (previous : Option (ServiceState O)) (runId : String) (nowMs eventMs : ℤ) :
    ServiceState O :=
  let same := previous.filter fun p => p.symbols = config.symbols
  let state : ServiceState O :=
    { dataDir := config.dataDir
      symbols := config.symbols
      runId := runId
      running := true
      phase := .idle
      startedAtMs := nowMs
      updatedAtMs := nowMs
      deadlineMs := nowMs + deadlineGraceMs
      lastCycle := same.bind ServiceState.lastCycle
      consecutiveFailures := (same.map ServiceState.consecutiveFailures).getD 0
      events := (previous.map ServiceState.events).getD []
      eventSequence := (previous.map ServiceState.eventSequence).getD 0 }
  state.appendEvent (if previous.isSome then .restarted else .started) [] eventMs

/-- The state while a child runs. Source: `signal_service.py` `SignalService._phase`. -/
def phaseState (s : ServiceState O) (phase : Phase) (timeoutSeconds nowMs : ℤ) : ServiceState O :=
  { s with
    phase := phase
    updatedAtMs := nowMs
    deadlineMs := nowMs + timeoutSeconds * 1000 + deadlineGraceMs }

/-- The cycle that two children made. Source: `signal_service.py` `SignalService._cycle`, its variable `cycle`. -/
def cycleOf (s : ServiceState O) (startedMs completedMs : ℤ) (refresh : RefreshHealth) (scan : ScanHealth O) :
    CycleHealth O where
  number := (s.lastCycle.map fun previous => previous.number + 1).getD 1
  serviceRunId := s.runId
  startedAtMs := startedMs
  completedAtMs := completedMs
  refresh := refresh
  scan := scan

/-- The state after a cycle. Source: `signal_service.py` `SignalService._cycle`, from its `cycle` on. -/
def finishCycle [StageObservation O] (s : ServiceState O) (cycle : CycleHealth O) (eventMs : ℤ) : ServiceState O :=
  let problems := cycle.problems
  let next : ServiceState O :=
    { s with
      lastCycle := some cycle
      updatedAtMs := cycle.completedAtMs
      deadlineMs := max s.deadlineMs cycle.completedAtMs
      consecutiveFailures := if problems ≠ [] then s.consecutiveFailures + 1 else 0 }
  if problems ≠ problemsOf s.lastCycle then next.appendEvent (if problems ≠ [] then .fault else .recovered) problems eventMs
  else next

/-- The state between two cycles. Source: `signal_service.py` `SignalService.run`, the end of its loop. -/
def idleState (s : ServiceState O) (nowMs waitMs : ℤ) : ServiceState O :=
  { s with phase := .idle, updatedAtMs := nowMs, deadlineMs := nowMs + waitMs + deadlineGraceMs }

/-- The state of a run that ended. Source: `signal_service.py` `SignalService.run`, its `finally`. -/
def stopState (s : ServiceState O) (nowMs eventMs : ℤ) : ServiceState O :=
  ({ s with running := false, phase := .idle, updatedAtMs := nowMs, deadlineMs := nowMs } : ServiceState O).appendEvent
    .stopped [] eventMs

/-- A state that says that a child was running. -/
def ServiceState.interrupted (s : ServiceState O) : Bool := s.running && s.phase ≠ .idle

/-- The state after a recovery. Source: `signal_service.py` `recover_interrupted`. -/
def recoverState (s : ServiceState O) (nowMs : ℤ) : ServiceState O :=
  let updated := max nowMs s.updatedAtMs
  ({ s with running := false, phase := .idle, updatedAtMs := updated, deadlineMs := updated } : ServiceState O).appendEvent
    .interruptionAcknowledged ["runtime.interrupted"] nowMs

/-! ## The journal -/

/-- A state keeps the end of a journal: its events are the last ones of it, and they are numbered. -/
structure Keeps (journal : List HealthEvent) (s : ServiceState O) : Prop where
  events : s.events = retained eventLimit journal
  sequence : s.eventSequence = journal.length
  numbered : Numbered HealthEvent.sequence journal

namespace Keeps

variable {journal : List HealthEvent} {s t : ServiceState O}

/-- The next event of a journal. -/
def next (journal : List HealthEvent) (kind : HealthEventKind) (problems : List String) (atMs : ℤ) : HealthEvent :=
  ⟨journal.length + 1, atMs, kind, problems⟩

lemma of_eq (h : Keeps journal s) (hevents : t.events = s.events) (hsequence : t.eventSequence = s.eventSequence) :
    Keeps journal t := ⟨hevents.trans h.events, hsequence.trans h.sequence, h.numbered⟩

/-- **An event that is appended to a state is appended to its journal.** -/
lemma appendEvent (h : Keeps journal s) (kind : HealthEventKind) (problems : List String) (atMs : ℤ) :
    Keeps (journal ++ [next journal kind problems atMs]) (s.appendEvent kind problems atMs) where
  events := by
    change retained eventLimit (s.events ++ [(⟨s.eventSequence + 1, atMs, kind, problems⟩ : HealthEvent)]) = _
    rw [h.events, h.sequence, retained_append]
    rfl
  sequence := by
    rw [List.length_append]
    exact congrArg (· + 1) h.sequence
  numbered := numbered_append.mpr ⟨h.numbered, rfl⟩

lemma length_events (h : Keeps journal s) : s.events.length = min eventLimit journal.length := by
  rw [h.events, length_retained]

/-- The events have the numbers that are expected of them. -/
lemma sequences (h : Keeps journal s) : (s.events.map fun event => (event.sequence : ℤ)) = s.expectedSequences := by
  have hnumbers : s.events.map HealthEvent.sequence =
      List.range' (journal.length - eventLimit + 1) (retained eventLimit journal).length := by
    rw [h.events]
    exact h.numbered.map_retained
  have hcast : (s.events.map fun event => (event.sequence : ℤ)) = (s.events.map HealthEvent.sequence).map Nat.cast := by
    rw [List.map_map]
    rfl
  rw [hcast, hnumbers, ServiceState.expectedSequences, h.sequence, h.length_events, length_retained]
  refine List.ext_getElem (by simp) fun i hi hi' => ?_
  simp only [List.getElem_map, List.getElem_range', List.getElem_range]
  omega

lemma events_nil (h : Keeps journal s) : s.events = [] ↔ s.eventSequence = 0 := by
  have hlength := h.length_events
  rw [← List.length_eq_zero_iff, hlength, h.sequence]
  unfold eventLimit
  omega

/-- The state of a new run keeps the journal, and the event of its start. -/
lemma start {config : ServiceConfig} {previous : Option (ServiceState O)} {runId : String} {nowMs eventMs : ℤ}
    (hprevious : ∀ p, previous = some p → Keeps journal p) (hnone : previous = none → journal = []) :
    Keeps (journal ++ [next journal (if previous.isSome then .restarted else .started) [] eventMs])
      (startState config previous runId nowMs eventMs) := by
  refine Keeps.appendEvent ?_ _ _ _
  cases previous with
  | none =>
      rw [hnone rfl]
      exact ⟨rfl, rfl, .nil⟩
  | some p => exact (hprevious p rfl).of_eq rfl rfl

/-- The state of a run that ended keeps the journal, and the event of its end. -/
lemma stop (h : Keeps journal s) (nowMs eventMs : ℤ) :
    Keeps (journal ++ [next journal .stopped [] eventMs]) (stopState s nowMs eventMs) := by
  refine Keeps.appendEvent ?_ _ _ _
  exact h.of_eq rfl rfl

/-- The state after a recovery keeps the journal, and the event of the recovery. -/
lemma recover (h : Keeps journal s) (nowMs : ℤ) :
    Keeps (journal ++ [next journal .interruptionAcknowledged ["runtime.interrupted"] nowMs]) (recoverState s nowMs) := by
  refine Keeps.appendEvent ?_ _ _ _
  exact h.of_eq rfl rfl

/-- The events of a cycle: one if its problems are others than those of the cycle before. -/
def cycleEvents [StageObservation O] (journal : List HealthEvent) (previous : Option (CycleHealth O)) (cycle : CycleHealth O)
    (eventMs : ℤ) : List HealthEvent :=
  if cycle.problems ≠ problemsOf previous then
    [next journal (if cycle.problems ≠ [] then .fault else .recovered) cycle.problems eventMs]
  else []

/-- The state after a cycle keeps the journal, and the events of the cycle. -/
lemma finish [StageObservation O] (h : Keeps journal s) (cycle : CycleHealth O) (eventMs : ℤ) :
    Keeps (journal ++ cycleEvents journal s.lastCycle cycle eventMs) (finishCycle s cycle eventMs) := by
  unfold finishCycle cycleEvents
  dsimp only
  split
  · refine Keeps.appendEvent ?_ _ _ _
    exact h.of_eq rfl rfl
  · rw [List.append_nil]
    exact h.of_eq rfl rfl

lemma length_cycleEvents [StageObservation O] (previous : Option (CycleHealth O)) (cycle : CycleHealth O) (eventMs : ℤ) :
    (cycleEvents journal previous cycle eventMs).length ≤ 1 := by
  unfold cycleEvents
  split <;> simp

end Keeps

/-! ## States that can be written -/

variable [FloatText PyFloat] [HealthCodec O]

/-- What an accepted state fulfils, its events apart. -/
structure ServiceState.Sound (s : ServiceState O) : Prop where
  dataDir : isText s.dataDir = true
  symbols : ∀ symbol ∈ s.symbols, isText symbol = true
  runId : isText s.runId = true
  started : 0 ≤ s.startedAtMs
  lastCycle : ∀ c ∈ s.lastCycle, c.Valid
  symbols_ne : s.symbols ≠ []
  symbols_nodup : s.symbols.Nodup
  started_le : s.startedAtMs ≤ s.updatedAtMs
  updated_le : s.updatedAtMs ≤ s.deadlineMs
  idle : s.running = false → s.phase = .idle
  cycle_le : ∀ c ∈ s.lastCycle, c.serviceRunId = s.runId → s.startedAtMs ≤ c.startedAtMs ∧ c.completedAtMs ≤ s.updatedAtMs
  covers : ∀ c ∈ s.lastCycle, ∀ cycle ∈ c.scan.cycle, (cycle.observations.map StageObservation.symbol).Perm s.symbols

namespace ServiceState

variable {journal : List HealthEvent} {s : ServiceState O}

/-- **A sound state that keeps a journal of valid events is accepted.** -/
theorem Sound.valid (h : s.Sound) (hkeeps : Keeps journal s) (hevents : ∀ event ∈ journal, event.Valid) : s.Valid := by
  have hlength := hkeeps.length_events
  refine ⟨h.dataDir, h.symbols, h.runId, h.started, h.lastCycle, fun event hevent => ?_, check_eq_ok.mpr ?_⟩
  · rw [hkeeps.events] at hevent
    exact hevents event (List.mem_of_mem_drop hevent)
  · exact ⟨h.symbols_ne, h.symbols_nodup, h.started_le, h.updated_le, h.idle, by omega, hkeeps.sequences,
      hkeeps.events_nil, h.cycle_le, h.covers⟩

lemma Valid.sound (h : s.Valid) : s.Sound :=
  have hc := check_eq_ok.mp h.check
  ⟨h.dataDir, h.symbols, h.runId, h.started, h.lastCycle, hc.symbols_ne, hc.symbols_nodup, hc.started_le, hc.updated_le,
    hc.idle, hc.cycle_le, hc.covers⟩

lemma Sound.appendEvent (h : s.Sound) (kind : HealthEventKind) (problems : List String) (atMs : ℤ) :
    (s.appendEvent kind problems atMs).Sound :=
  ⟨h.dataDir, h.symbols, h.runId, h.started, h.lastCycle, h.symbols_ne, h.symbols_nodup, h.started_le, h.updated_le, h.idle,
    h.cycle_le, h.covers⟩

/-- A later time and a later deadline keep a state sound. -/
lemma Sound.later (h : s.Sound) {phase : Phase} {nowMs deadlineMs : ℤ} (hnow : s.updatedAtMs ≤ nowMs)
    (hdeadline : nowMs ≤ deadlineMs) (hphase : s.running = false → phase = .idle) :
    ({ s with phase := phase, updatedAtMs := nowMs, deadlineMs := deadlineMs } : ServiceState O).Sound where
  dataDir := h.dataDir
  symbols := h.symbols
  runId := h.runId
  started := h.started
  lastCycle := h.lastCycle
  symbols_ne := h.symbols_ne
  symbols_nodup := h.symbols_nodup
  started_le := h.started_le.trans hnow
  updated_le := hdeadline
  idle := hphase
  cycle_le c hc hrun := ⟨(h.cycle_le c hc hrun).1, (h.cycle_le c hc hrun).2.trans hnow⟩
  covers := h.covers

/-- A run that ends keeps its state sound. -/
lemma Sound.ended (h : s.Sound) {nowMs : ℤ} (hnow : s.updatedAtMs ≤ nowMs) :
    ({ s with running := false, phase := .idle, updatedAtMs := nowMs, deadlineMs := nowMs } : ServiceState O).Sound :=
  have hlater := h.later hnow le_rfl fun _ => (rfl : Phase.idle = .idle)
  ⟨hlater.dataDir, hlater.symbols, hlater.runId, hlater.started, hlater.lastCycle, hlater.symbols_ne, hlater.symbols_nodup,
    hlater.started_le, hlater.updated_le, fun _ => rfl, hlater.cycle_le, hlater.covers⟩

lemma Sound.phase (h : s.Sound) (hrunning : s.running = true) {phase : Phase} {timeoutSeconds nowMs : ℤ}
    (htimeout : 0 < timeoutSeconds) (hnow : s.updatedAtMs ≤ nowMs) : (phaseState s phase timeoutSeconds nowMs).Sound := by
  refine h.later hnow ?_ fun hstopped => by rw [hrunning] at hstopped; cases hstopped
  unfold deadlineGraceMs
  omega

lemma Sound.waiting (h : s.Sound) {nowMs waitMs : ℤ} (hwait : 0 ≤ waitMs) (hnow : s.updatedAtMs ≤ nowMs) :
    (idleState s nowMs waitMs).Sound := by
  refine h.later hnow ?_ fun _ => rfl
  unfold deadlineGraceMs
  omega

lemma Sound.stop (h : s.Sound) {nowMs : ℤ} (eventMs : ℤ) (hnow : s.updatedAtMs ≤ nowMs) : (stopState s nowMs eventMs).Sound :=
  (h.ended hnow).appendEvent _ _ _

lemma Sound.recover (h : s.Sound) (nowMs : ℤ) : (recoverState s nowMs).Sound :=
  (h.ended (le_max_right nowMs s.updatedAtMs)).appendEvent _ _ _

/-- The state of a new run is sound, if its identity is new. -/
lemma sound_start {config : ServiceConfig} {previous : Option (ServiceState O)} {runId : String} {nowMs : ℤ} (eventMs : ℤ)
    (hprevious : ∀ p ∈ previous, p.Sound) (hdir : isText config.dataDir = true)
    (hsymbols : ∀ symbol ∈ config.symbols, isText symbol = true) (hrun : isText runId = true) (hnow : 0 ≤ nowMs)
    (hnew : ∀ p ∈ previous, ∀ c ∈ p.lastCycle, c.serviceRunId ≠ runId) :
    (startState config previous runId nowMs eventMs).Sound := by
  have hcycle : ∀ c ∈ (previous.filter fun p => p.symbols = config.symbols).bind ServiceState.lastCycle,
      ∃ p ∈ previous, p.symbols = config.symbols ∧ c ∈ p.lastCycle := by
    intro c hc
    obtain ⟨p, hp, hc⟩ := Option.bind_eq_some_iff.mp hc
    obtain ⟨hp, hsame⟩ := Option.filter_eq_some_iff.mp hp
    exact ⟨p, hp, of_decide_eq_true hsame, hc⟩
  refine Sound.appendEvent ⟨hdir, hsymbols, hrun, hnow, fun c hc => ?_, config.symbols_ne, config.symbols_nodup, le_rfl, ?_,
    (fun h => by cases h), fun c hc hsame => ?_, fun c hc => ?_⟩ _ _ _
  · obtain ⟨p, hp, -, hc⟩ := hcycle c hc
    exact (hprevious p hp).lastCycle c hc
  · dsimp only [deadlineGraceMs]
    omega
  · obtain ⟨p, hp, -, hc⟩ := hcycle c hc
    exact absurd hsame (hnew p hp c hc)
  · obtain ⟨p, hp, hsymbols, hc⟩ := hcycle c hc
    exact hsymbols ▸ (hprevious p hp).covers c hc

/-- The state after a cycle is sound, if the clock did not go back in the cycle. -/
lemma Sound.finish (h : s.Sound) {startedMs completedMs eventMs : ℤ} {refresh : RefreshHealth} {scan : ScanHealth O}
    (hstarted : s.startedAtMs ≤ startedMs) (hordered : startedMs ≤ completedMs)
    (hcompleted : s.updatedAtMs ≤ completedMs) (hrefresh : refresh.Valid) (hscan : scan.Valid)
    (hcovers : ∀ cycle ∈ scan.cycle, (cycle.observations.map StageObservation.symbol).Perm s.symbols) :
    (finishCycle s (cycleOf s startedMs completedMs refresh scan) eventMs).Sound := by
  obtain ⟨cycle, hcycle⟩ : ∃ cycle, cycle = cycleOf s startedMs completedMs refresh scan := ⟨_, rfl⟩
  have hnumber : 1 ≤ cycle.number := by
    rw [hcycle]
    cases hlast : s.lastCycle with
    | none => exact le_of_eq (by rw [cycleOf, hlast]; rfl)
    | some previous =>
        have hprevious := (h.lastCycle previous hlast).number
        rw [cycleOf, hlast]
        change 1 ≤ previous.number + 1
        omega
  have hvalid : cycle.Valid := by
    subst hcycle
    exact ⟨hnumber, h.runId, h.started.trans hstarted, hordered, hrefresh, hscan⟩
  have hmiddle : ∀ failures : ℕ, ({ s with
      lastCycle := some cycle
      updatedAtMs := cycle.completedAtMs
      deadlineMs := max s.deadlineMs cycle.completedAtMs
      consecutiveFailures := failures } : ServiceState O).Sound := by
    intro failures
    refine ⟨h.dataDir, h.symbols, h.runId, h.started, fun c hc => ?_, h.symbols_ne, h.symbols_nodup, ?_, le_max_right _ _,
      h.idle, fun c hc _ => ?_, fun c hc => ?_⟩
    · obtain rfl := Option.some.inj hc
      exact hvalid
    · subst hcycle
      exact h.started_le.trans hcompleted
    · obtain rfl := Option.some.inj hc
      subst hcycle
      exact ⟨hstarted, le_rfl⟩
    · obtain rfl := Option.some.inj hc
      subst hcycle
      exact hcovers
  rw [← hcycle]
  unfold finishCycle
  dsimp only
  split
  · exact (hmiddle _).appendEvent _ _ _
  · exact hmiddle _

end ServiceState

end MuStrategy.Service
