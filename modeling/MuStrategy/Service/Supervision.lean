import MuStrategy.Lib.System
import MuStrategy.Service.Transitions

/-!
# The signal service and its readers

Runs of the service, recoveries and readers share the health file and two locks. A run holds `service.lock` from its
start to its end, and `supervisor.lock` while it loops; a crash releases both and leaves its child behind. Readers take
no part in this: they read the file, test `supervisor.lock`, and read the file again.

* `Stage`, `Reader`, `Supervision` — where a run and a reader are, and what they share.
* `SupervisionLabel` — what can happen next.
* `Write`, `writeOf?` — the state that a step writes, and how it goes on.
* `supervisionStep?`, `supervision` — the steps; `supervisionStep?_cases` — what a step does.
-/

namespace MuStrategy.Service

open Lib
open Notifications (Phase StageObservation)

/-! ## States -/

/-- How the replacement of the file ends. -/
inductive WriteOutcome where
  | written
  /-- It raises before the file is replaced. -/
  | failed
  /-- It raises after the file was replaced: the directory could not be synchronized. -/
  | replaced
  deriving DecidableEq

/-- A cycle in progress: when it started, and its refresh once that is over. -/
structure Progress where
  startedMs : ℤ
  refresh : Option RefreshHealth

/-- The phase of the next child. -/
def Progress.phase (progress : Progress) : Phase := if progress.refresh.isNone then .refresh else .scan

section types

variable (ι O : Type)

/-- Where a run is. Its state is `self.state`. -/
inductive Stage where
  /-- The first state is published; the run waits for `supervisor.lock`. -/
  | booted (state : ServiceState O)
  /-- Between two cycles. -/
  | looping (state : ServiceState O) (nextTick : ℚ)
  /-- The phase is published, and its child is about to start. -/
  | phased (state : ServiceState O) (nextTick : ℚ) (progress : Progress)
  /-- The child runs. -/
  | working (state : ServiceState O) (nextTick : ℚ) (progress : Progress)
  /-- The refresh is over. -/
  | refreshed (state : ServiceState O) (nextTick : ℚ) (startedMs : ℤ) (refresh : RefreshHealth)
  /-- The cycle is over, and not yet published. -/
  | cycled (state : ServiceState O) (nextTick : ℚ)
  /-- `finally`. -/
  | stopping (state : ServiceState O)
  /-- `supervisor.lock` is released. -/
  | closing

/-- The process that holds `service.lock`. -/
abbrev Holder := ServiceConfig × Stage O

/-- Where a reader is. A lock test finds the run that holds the lock; the reader sees only whether there is one.
Source: `service_health.py` `HealthStore.snapshot`. -/
inductive Reader where
  | idle
  /-- It is about to test the lock: its local variable `before`, and how often it may still test. -/
  | first (before : Option (ServiceState O)) (attempts : ℕ)
  | tested (before : Option (ServiceState O)) (attempts : ℕ) (live : Option String)
  | done (state : Option (ServiceState O)) (live : Option String)
  /-- `HealthSnapshotUnstableError`. -/
  | unstable
  deriving DecidableEq

/-- What the processes share, and where they are. -/
structure Supervision where
  /-- What reading the file gives. -/
  file : Option (ServiceState O)
  holder : Option (Holder O)
  /-- The children whose run crashed. -/
  orphans : ℕ
  readers : ι → Reader O
  /-- The reader that holds the lock of the observation log, which every write of the file takes. -/
  fence : Option ι
  /-- All events that were ever published; no process reads it. -/
  journal : List HealthEvent

/-- What happens next. The readings of the clocks, what a child does and how a write ends are part of the label. -/
inductive SupervisionLabel where
  /-- A run starts: it takes `service.lock`, reads the file and writes its first state. -/
  | start (config : ServiceConfig) (runId : String) (nowMs eventMs : ℤ) (outcome : WriteOutcome)
  /-- It takes `supervisor.lock`. -/
  | enter (tick : ℚ)
  /-- It cannot. -/
  | abandon
  | beginCycle (startedMs nowMs : ℤ) (outcome : WriteOutcome)
  | spawn
  | refreshEnds (outcome : ProcessOutcome)
  | beginScan (nowMs : ℤ) (outcome : WriteOutcome)
  | scanEnds (outcome : ProcessOutcome) (completedMs eventMs : ℤ)
  | publishIdle (currentTick : ℚ) (nowMs : ℤ) (outcome : WriteOutcome)
  /-- The loop ends or raises; a child is killed and waited for. -/
  | leave
  | stop (nowMs eventMs : ℤ) (outcome : WriteOutcome)
  /-- The run releases `service.lock`. -/
  | close
  | crash
  /-- A child whose run crashed ends. -/
  | orphanEnds
  /-- `recover_interrupted`, whose caller has confirmed that no child is left. -/
  | recover (nowMs : ℤ) (outcome : WriteOutcome)
  | readFirst (p : ι)
  | testLock (p : ι)
  | readAgain (p : ι)
  | takeFence (p : ι)
  | releaseFence (p : ι)

end types

variable {ι O : Type}

namespace Stage

/-- The state of a run. -/
def state? : Stage O → Option (ServiceState O)
  | .booted state => some state
  | .looping state _ => some state
  | .phased state _ _ => some state
  | .working state _ _ => some state
  | .refreshed state _ _ _ => some state
  | .cycled state _ => some state
  | .stopping state => some state
  | .closing => none

/-- The identity of a run that holds `supervisor.lock`. -/
def live? : Stage O → Option String
  | .booted _ => none
  | stage => stage.state?.map ServiceState.runId

/-- The state of a run that has not come to its end. -/
def running? : Stage O → Option (ServiceState O)
  | .stopping _ => none
  | stage => stage.state?

/-- The state of a run in its loop. -/
def looping? : Stage O → Option (ServiceState O)
  | .booted _ => none
  | .stopping _ => none
  | stage => stage.state?

/-- The state of a run that has published it. -/
def published? : Stage O → Option (ServiceState O)
  | .cycled _ _ => none
  | .stopping _ => none
  | stage => stage.state?

/-- The cycle whose phase a run has published. -/
def progress? : Stage O → Option Progress
  | .phased _ _ progress => some progress
  | .working _ _ progress => some progress
  | _ => none

/-- The child of a run is alive. -/
def isWorking : Stage O → Bool
  | .working _ _ _ => true
  | _ => false

end Stage

namespace Supervision

variable (s : Supervision ι O)

/-- No service has ever run. -/
def initial : Supervision ι O := ⟨none, none, 0, fun _ => .idle, none, []⟩

/-- The run that holds `supervisor.lock`. -/
def live : Option String := s.holder.bind fun h => h.2.live?

/-- How many children are alive. -/
def workers : ℕ := s.orphans + if s.holder.any (fun h => h.2.isWorking) then 1 else 0

/-- The file is replaced. -/
def publish (state : ServiceState O) : Supervision ι O :=
  { s with
    file := some state
    journal := s.journal ++ state.events.filter fun event => s.journal.length < event.sequence }

end Supervision

/-! ## Writes -/

/-- A write of the file, and where the process is after it. -/
structure Write (O : Type) where
  state : ServiceState O
  /-- After it returned. -/
  done : Option (Holder O)
  /-- After it raised. -/
  raised : Option (Holder O)

namespace Supervision

section writes

variable [StageObservation O] (s : Supervision ι O)

/-- The last state says that a child was running. -/
def interrupted : Bool := s.file.any ServiceState.interrupted

/-- The write of a label. Source: `signal_service.py` `SignalService.run`, `_phase`; `recover_interrupted`. -/
def writeOf? : SupervisionLabel ι → Option (Write O × WriteOutcome)
  | .start config runId nowMs eventMs outcome =>
      match s.holder with
      | none =>
          if s.interrupted then none
          else
            let state := startState config s.file runId nowMs eventMs
            some (⟨state, some (config, .booted state), none⟩, outcome)
      | some _ => none
  | .beginCycle startedMs nowMs outcome =>
      match s.holder with
      | some (config, .looping state tick) =>
          let next := phaseState state .refresh config.refreshTimeoutSeconds nowMs
          some (⟨next, some (config, .phased next tick ⟨startedMs, none⟩), some (config, .stopping next)⟩, outcome)
      | _ => none
  | .beginScan nowMs outcome =>
      match s.holder with
      | some (config, .refreshed state tick startedMs refresh) =>
          let next := phaseState state .scan config.scanTimeoutSeconds nowMs
          some (⟨next, some (config, .phased next tick ⟨startedMs, some refresh⟩), some (config, .stopping next)⟩, outcome)
      | _ => none
  | .publishIdle currentTick nowMs outcome =>
      match s.holder with
      | some (config, .cycled state tick) =>
          let nextTick := advanceTick config.intervalSeconds tick currentTick
          let next := idleState state nowMs (waitMs nextTick currentTick)
          some (⟨next, some (config, .looping next nextTick), some (config, .stopping next)⟩, outcome)
      | _ => none
  | .stop nowMs eventMs outcome =>
      match s.holder with
      | some (config, .stopping state) =>
          some (⟨stopState state nowMs eventMs, some (config, .closing), some (config, .closing)⟩, outcome)
      | _ => none
  | .recover nowMs outcome =>
      match s.holder, s.file with
      | none, some state =>
          if state.interrupted ∧ s.orphans = 0 then some (⟨recoverState state nowMs, none, none⟩, outcome) else none
      | _, _ => none
  | _ => none

end writes

/-! ## Steps -/

variable [FloatText PyFloat] [HealthCodec O] (dataDir : String) (s : Supervision ι O)

/-- A write replaces the file: its state is accepted, and nothing fails before. -/
def replaces (write : Write O) (outcome : WriteOutcome) : Bool :=
  (HealthStore.render dataDir write.state).isOk && outcome ≠ .failed

/-- `store.write(state)`. -/
def perform (write : Write O) (outcome : WriteOutcome) : Supervision ι O :=
  if replaces dataDir write outcome then
    { s.publish write.state with holder := if outcome = .written then write.done else write.raised }
  else { s with holder := write.raised }

/-- The steps of the process that holds `service.lock` that write nothing. -/
def advance? : SupervisionLabel ι → Option (Supervision ι O)
  | .enter tick =>
      match s.holder with
      | some (config, .booted state) => some { s with holder := some (config, .looping state tick) }
      | _ => none
  | .abandon =>
      match s.holder with
      | some (_, .booted _) => some { s with holder := none }
      | _ => none
  | .spawn =>
      match s.holder with
      | some (config, .phased state tick progress) => some { s with holder := some (config, .working state tick progress) }
      | _ => none
  | .refreshEnds outcome =>
      match s.holder with
      | some (config, .working state tick ⟨startedMs, none⟩) =>
          some { s with holder := some (config, .refreshed state tick startedMs (refreshOf outcome)) }
      | _ => none
  | .scanEnds outcome completedMs eventMs =>
      match s.holder with
      | some (config, .working state tick ⟨startedMs, some refresh⟩) =>
          let cycle := cycleOf state startedMs completedMs refresh (scanOf config.symbols outcome)
          some { s with holder := some (config, .cycled (finishCycle state cycle eventMs) tick) }
      | _ => none
  | .leave =>
      match s.holder with
      | some (config, stage) => stage.looping?.map fun state => { s with holder := some (config, .stopping state) }
      | none => none
  | .close =>
      match s.holder with
      | some (_, .closing) => some { s with holder := none }
      | _ => none
  | .crash => some { s with holder := none, orphans := s.workers }
  | .orphanEnds => if s.orphans = 0 then none else some { s with orphans := s.orphans - 1 }
  | _ => none

end Supervision

/-- The next stage of a reader that reads the file again. -/
def Reader.again [DecidableEq O] (before file : Option (ServiceState O)) (attempts : ℕ) (live : Option String) : Reader O :=
  if before = file then .done file live else if attempts ≤ 1 then .unstable else .first file (attempts - 1)

namespace Supervision

variable [DecidableEq ι] [DecidableEq O] (s : Supervision ι O)

/-- The steps of the readers. Source: `service_health.py` `HealthStore.snapshot`, `is_running`. -/
def readerStep? : SupervisionLabel ι → Option (Supervision ι O)
  | .readFirst p =>
      match s.readers p with
      | .first _ _ => none
      | .tested _ _ _ => none
      | _ => some { s with readers := Function.update s.readers p (.first s.file 3) }
  | .testLock p =>
      match s.readers p with
      | .first before attempts => some { s with readers := Function.update s.readers p (.tested before attempts s.live) }
      | _ => none
  | .readAgain p =>
      match s.readers p with
      | .tested before attempts live =>
          some { s with readers := Function.update s.readers p (.again before s.file attempts live) }
      | _ => none
  | .takeFence p =>
      match s.fence, s.readers p with
      | some _, _ => none
      | none, .first _ _ => none
      | none, .tested _ _ _ => none
      | none, _ => some { s with fence := some p, readers := Function.update s.readers p .idle }
  | .releaseFence p =>
      if s.fence = some p then some { s with fence := none, readers := Function.update s.readers p .idle } else none
  | _ => none

end Supervision

/-- What a label does; `none`: it is not enabled. The file is not replaced while the lock of the observation log is held. A
start that finds `service.lock` held or an interrupted phase, and a recovery that finds no such phase, raise and change
nothing. -/
def supervisionStep? [DecidableEq ι] [DecidableEq O] [FloatText PyFloat] [HealthCodec O] (dataDir : String)
    (s : Supervision ι O) (a : SupervisionLabel ι) : Option (Supervision ι O) :=
  match s.writeOf? a with
  | some (write, outcome) =>
      if s.fence.isSome ∧ Supervision.replaces dataDir write outcome then none else some (s.perform dataDir write outcome)
  | none => (s.advance? a).or (s.readerStep? a)

/-- The service and its readers. -/
def supervision (ι O : Type) [DecidableEq ι] [DecidableEq O] [FloatText PyFloat] [HealthCodec O] (dataDir : String) :
    System (Supervision ι O) (SupervisionLabel ι) :=
  .ofPartial .initial (supervisionStep? dataDir)

/-! ## What a step does -/

section cases

variable {s t : Supervision ι O} {a : SupervisionLabel ι} {dataDir : String}

/-- What a step writes. -/
inductive Writes (s : Supervision ι O) : SupervisionLabel ι → Write O → WriteOutcome → Prop where
  | start {config : ServiceConfig} {runId : String} {nowMs eventMs : ℤ} {outcome : WriteOutcome} {state : ServiceState O} :
      s.holder = none → s.interrupted = false → state = startState config s.file runId nowMs eventMs →
      Writes s (.start config runId nowMs eventMs outcome) ⟨state, some (config, .booted state), none⟩ outcome
  | beginCycle {config : ServiceConfig} {state next : ServiceState O} {tick : ℚ} {startedMs nowMs : ℤ}
      {outcome : WriteOutcome} : s.holder = some (config, .looping state tick) →
      next = phaseState state .refresh config.refreshTimeoutSeconds nowMs →
      Writes s (.beginCycle startedMs nowMs outcome)
        ⟨next, some (config, .phased next tick ⟨startedMs, none⟩), some (config, .stopping next)⟩ outcome
  | beginScan {config : ServiceConfig} {state next : ServiceState O} {tick : ℚ} {startedMs nowMs : ℤ}
      {refresh : RefreshHealth} {outcome : WriteOutcome} : s.holder = some (config, .refreshed state tick startedMs refresh) →
      next = phaseState state .scan config.scanTimeoutSeconds nowMs →
      Writes s (.beginScan nowMs outcome)
        ⟨next, some (config, .phased next tick ⟨startedMs, some refresh⟩), some (config, .stopping next)⟩ outcome
  | publishIdle {config : ServiceConfig} {state next : ServiceState O} {tick nextTick currentTick : ℚ} {nowMs : ℤ}
      {outcome : WriteOutcome} : s.holder = some (config, .cycled state tick) →
      nextTick = advanceTick config.intervalSeconds tick currentTick →
      next = idleState state nowMs (waitMs nextTick currentTick) →
      Writes s (.publishIdle currentTick nowMs outcome)
        ⟨next, some (config, .looping next nextTick), some (config, .stopping next)⟩ outcome
  | stop {config : ServiceConfig} {state : ServiceState O} {nowMs eventMs : ℤ} {outcome : WriteOutcome} :
      s.holder = some (config, .stopping state) →
      Writes s (.stop nowMs eventMs outcome)
        ⟨stopState state nowMs eventMs, some (config, .closing), some (config, .closing)⟩ outcome
  | recover {state : ServiceState O} {nowMs : ℤ} {outcome : WriteOutcome} : s.holder = none → s.file = some state →
      state.interrupted = true → s.orphans = 0 → Writes s (.recover nowMs outcome) ⟨recoverState state nowMs, none, none⟩ outcome

lemma writes_of_writeOf? {write : Write O} {outcome : WriteOutcome} (h : s.writeOf? a = some (write, outcome)) :
    Writes s a write outcome := by
  unfold Supervision.writeOf? at h
  split at h
  · split at h
    · rename_i hholder
      split at h
      · cases h
      · rename_i hinterrupted
        cases h
        exact .start hholder (Bool.eq_false_iff.mpr hinterrupted) rfl
    · cases h
  · split at h
    · rename_i hholder
      cases h
      exact .beginCycle hholder rfl
    · cases h
  · split at h
    · rename_i hholder
      cases h
      exact .beginScan hholder rfl
    · cases h
  · split at h
    · rename_i hholder
      cases h
      exact .publishIdle hholder rfl rfl
    · cases h
  · split at h
    · rename_i hholder
      cases h
      exact .stop hholder
    · cases h
  · split at h
    · rename_i hholder hfile
      split at h
      · rename_i hconfirmed
        cases h
        exact .recover hholder hfile hconfirmed.1 hconfirmed.2
      · cases h
    · cases h
  · cases h

variable [FloatText PyFloat] [HealthCodec O]

/-- A write replaces the file by an accepted state, or leaves it. -/
lemma perform_cases (dataDir : String) (s : Supervision ι O) (write : Write O) (outcome : WriteOutcome) :
    (∃ holder, s.perform dataDir write outcome = { s.publish write.state with holder := holder } ∧
        (holder = write.done ∨ holder = write.raised) ∧ Supervision.replaces dataDir write outcome = true) ∨
      s.perform dataDir write outcome = { s with holder := write.raised } := by
  unfold Supervision.perform
  split
  · rename_i hreplaces
    refine .inl ⟨_, rfl, ?_, hreplaces⟩
    split
    · exact .inl rfl
    · exact .inr rfl
  · exact .inr rfl

/-- How a run moves without a write. -/
inductive Advances (s : Supervision ι O) : SupervisionLabel ι → Supervision ι O → Prop where
  | enter {config : ServiceConfig} {state : ServiceState O} {tick : ℚ} : s.holder = some (config, .booted state) →
      Advances s (.enter tick) { s with holder := some (config, .looping state tick) }
  | abandon {config : ServiceConfig} {state : ServiceState O} : s.holder = some (config, .booted state) →
      Advances s .abandon { s with holder := none }
  | spawn {config : ServiceConfig} {state : ServiceState O} {tick : ℚ} {progress : Progress} :
      s.holder = some (config, .phased state tick progress) →
      Advances s .spawn { s with holder := some (config, .working state tick progress) }
  | refreshEnds {config : ServiceConfig} {state : ServiceState O} {tick : ℚ} {startedMs : ℤ} {outcome : ProcessOutcome} :
      s.holder = some (config, .working state tick ⟨startedMs, none⟩) →
      Advances s (.refreshEnds outcome)
        { s with holder := some (config, .refreshed state tick startedMs (refreshOf outcome)) }
  | scanEnds {config : ServiceConfig} {state : ServiceState O} {tick : ℚ} {startedMs completedMs eventMs : ℤ}
      {refresh : RefreshHealth} {outcome : ProcessOutcome} {cycle : CycleHealth O} :
      s.holder = some (config, .working state tick ⟨startedMs, some refresh⟩) →
      cycle = cycleOf state startedMs completedMs refresh (scanOf config.symbols outcome) →
      Advances s (.scanEnds outcome completedMs eventMs)
        { s with holder := some (config, .cycled (finishCycle state cycle eventMs) tick) }
  | leave {config : ServiceConfig} {stage : Stage O} {state : ServiceState O} : s.holder = some (config, stage) →
      stage.looping? = some state → Advances s .leave { s with holder := some (config, .stopping state) }
  | close {config : ServiceConfig} : s.holder = some (config, .closing) → Advances s .close { s with holder := none }
  | crash : Advances s .crash { s with holder := none, orphans := s.workers }
  | orphanEnds : s.orphans ≠ 0 → Advances s .orphanEnds { s with orphans := s.orphans - 1 }

lemma advances_of_advance? (h : s.advance? a = some t) : Advances s a t := by
  unfold Supervision.advance? at h
  split at h
  · split at h
    · rename_i hholder
      cases h
      exact .enter hholder
    · cases h
  · split at h
    · rename_i hholder
      cases h
      exact .abandon hholder
    · cases h
  · split at h
    · rename_i hholder
      cases h
      exact .spawn hholder
    · cases h
  · split at h
    · rename_i hholder
      cases h
      exact .refreshEnds hholder
    · cases h
  · split at h
    · rename_i hholder
      cases h
      exact .scanEnds hholder rfl
    · cases h
  · split at h
    · rename_i hholder
      obtain ⟨state, hstate, rfl⟩ := Option.map_eq_some_iff.mp h
      exact .leave hholder hstate
    · cases h
  · split at h
    · rename_i hholder
      cases h
      exact .close hholder
    · cases h
  · cases h
    exact .crash
  · split at h
    · cases h
    · rename_i horphans
      cases h
      exact .orphanEnds horphans
  · cases h

variable [DecidableEq ι] [DecidableEq O]

/-- How a reader moves. -/
inductive Observes (s : Supervision ι O) : SupervisionLabel ι → Supervision ι O → Prop where
  | readFirst {p : ι} : Observes s (.readFirst p) { s with readers := Function.update s.readers p (.first s.file 3) }
  | testLock {p : ι} {before : Option (ServiceState O)} {attempts : ℕ} : s.readers p = .first before attempts →
      Observes s (.testLock p) { s with readers := Function.update s.readers p (.tested before attempts s.live) }
  | readAgain {p : ι} {before : Option (ServiceState O)} {attempts : ℕ} {live : Option String} :
      s.readers p = .tested before attempts live →
      Observes s (.readAgain p)
        { s with readers := Function.update s.readers p (.again before s.file attempts live) }
  | takeFence {p : ι} : s.fence = none →
      Observes s (.takeFence p) { s with fence := some p, readers := Function.update s.readers p .idle }
  | releaseFence {p : ι} : s.fence = some p →
      Observes s (.releaseFence p) { s with fence := none, readers := Function.update s.readers p .idle }

omit [FloatText PyFloat] [HealthCodec O] in
lemma observes_of_readerStep? (h : s.readerStep? a = some t) : Observes s a t := by
  unfold Supervision.readerStep? at h
  split at h
  · split at h
    · cases h
    · cases h
    · cases h
      exact .readFirst
  · split at h
    · rename_i hreader
      cases h
      exact .testLock hreader
    · cases h
  · split at h
    · rename_i hreader
      cases h
      exact .readAgain hreader
    · cases h
  · split at h
    · cases h
    · cases h
    · cases h
    · rename_i hfence _ _
      cases h
      exact .takeFence hfence
  · split at h
    · rename_i hfence
      cases h
      exact .releaseFence hfence
    · cases h
  · cases h

/-- **What a step does**: it writes, moves the run, or moves a reader. -/
theorem supervisionStep?_cases (h : supervisionStep? dataDir s a = some t) :
    (∃ write outcome, Writes s a write outcome ∧ (Supervision.replaces dataDir write outcome = true → s.fence = none) ∧
        t = s.perform dataDir write outcome) ∨
      Advances s a t ∨ Observes s a t := by
  unfold supervisionStep? at h
  cases hwrite : s.writeOf? a with
  | some found =>
      obtain ⟨write, outcome⟩ := found
      rw [hwrite] at h
      dsimp only at h
      split at h
      · cases h
      · rename_i hfence
        refine .inl ⟨write, outcome, writes_of_writeOf? hwrite, fun hreplaces => ?_, (Option.some.inj h).symm⟩
        exact Option.not_isSome_iff_eq_none.mp fun hheld => hfence ⟨hheld, hreplaces⟩
  | none =>
      rw [hwrite] at h
      rcases Option.or_eq_some_iff.mp h with h | ⟨-, h⟩
      · exact .inr (.inl (advances_of_advance? h))
      · exact .inr (.inr (observes_of_readerStep? h))

end cases

end MuStrategy.Service
