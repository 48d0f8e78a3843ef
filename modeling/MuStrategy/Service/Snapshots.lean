import Mathlib
import MuStrategy.Lib.DoubleRead
import MuStrategy.Service.SingleWorker

/-!
# Snapshots of the signal service

A reader takes no lock that a run holds, and yet it gets a pair that was true at one moment: the published state and the
run that held `supervisor.lock`. It reads the file before and after its test of the lock, and no state is ever published
twice, because each published state has a later event, a later cycle or a later phase than the one before.

* `stamp`, `stamp_lt_of_writes` — the order of the published states.
* `Moves`, `moves_of_step` — how a step moves a reader.
* `snapshot_atomic` — what a reader returns was true at one moment of its call.
* `fenced_snapshot` — under the lock of the observation log, a snapshot does not fail, and stays true.
* `healthy_snapshot` — what a healthy view says about the runs.
-/

namespace MuStrategy.Service

open Lib
open Notifications (Phase StageObservation)

variable {ι O : Type} {s t : Supervision ι O} {a : SupervisionLabel ι}

/-! ## The order of the published states -/

/-- The phases of a cycle, in their order. -/
def phaseRank : Phase → ℕ
  | .idle => 0
  | .refresh => 1
  | .scan => 2

/-- The number of the last cycle. -/
def ServiceState.cycleNumber (s : ServiceState O) : ℤ := (s.lastCycle.map CycleHealth.number).getD 0

/-- The number of the last event, of the last cycle and of the phase. -/
def stamp (file : Option (ServiceState O)) : ℕ ×ₗ ℤ ×ₗ ℕ :=
  match file with
  | none => toLex (0, toLex (0, 0))
  | some s => toLex (s.eventSequence, toLex (s.cycleNumber, phaseRank s.phase))

section stamps

variable {f next : ServiceState O}

lemma stamp_lt_of_sequence {file : Option (ServiceState O)}
    (h : (file.map ServiceState.eventSequence).getD 0 < next.eventSequence) : stamp file < stamp (some next) := by
  cases file with
  | none => exact Prod.Lex.toLex_lt_toLex.mpr (.inl h)
  | some f => exact Prod.Lex.toLex_lt_toLex.mpr (.inl h)

lemma stamp_lt_of_cycle (hsequence : f.eventSequence ≤ next.eventSequence) (h : f.cycleNumber < next.cycleNumber) :
    stamp (some f) < stamp (some next) := by
  refine Prod.Lex.toLex_lt_toLex'.mpr ⟨hsequence, fun _ => ?_⟩
  exact Prod.Lex.toLex_lt_toLex.mpr (.inl h)

lemma stamp_lt_of_phase (hsequence : next.eventSequence = f.eventSequence) (hcycle : next.lastCycle = f.lastCycle)
    (h : phaseRank f.phase < phaseRank next.phase) : stamp (some f) < stamp (some next) := by
  have hnumber : f.cycleNumber = next.cycleNumber := by rw [ServiceState.cycleNumber, ServiceState.cycleNumber, hcycle]
  refine Prod.Lex.toLex_lt_toLex'.mpr ⟨hsequence.ge, fun _ => ?_⟩
  exact Prod.Lex.toLex_lt_toLex'.mpr ⟨hnumber.le, fun _ => h⟩

end stamps

/-- The phase of the state of a run. -/
def Stage.phase? : Stage O → Option Phase
  | .booted _ => some .idle
  | .looping _ _ => some .idle
  | .phased _ _ progress => some progress.phase
  | .working _ _ progress => some progress.phase
  | .refreshed _ _ _ _ => some .refresh
  | _ => none

/-- Where a run is in its cycle. -/
structure CycleInv (s : Supervision ι O) : Prop where
  phase : ∀ config stage state phase, s.holder = some (config, stage) → stage.state? = some state →
    stage.phase? = some phase → state.phase = phase
  cycled : ∀ config state tick, s.holder = some (config, .cycled state tick) →
    ∃ f, s.file = some f ∧ f.cycleNumber < state.cycleNumber

/-- **Each published state is later than the one before.** -/
lemma stamp_lt_of_writes (hinv : SupervisionInv s) (hcycle : CycleInv s) {write : Write O} {outcome : WriteOutcome}
    (h : Writes s a write outcome) : stamp s.file < stamp (some write.state) := by
  have hlength : (s.file.map ServiceState.eventSequence).getD 0 = s.journal.length := by
    cases hfile : s.file with
    | none => rw [hinv.empty hfile]; rfl
    | some f => exact (hinv.file f hfile).sequence
  cases h with
  | @start config runId nowMs eventMs outcome state hholder hinterrupted hstate =>
      refine stamp_lt_of_sequence ?_
      have hkeeps : Keeps _ (startState config s.file runId nowMs eventMs) := .start hinv.file hinv.empty
      rw [hlength, hstate, hkeeps.sequence, List.length_append, List.length_singleton]
      exact Nat.lt_succ_self _
  | @beginCycle config state next tick startedMs nowMs outcome hholder hnext =>
      rw [(hinv.holder _ _ _ hholder rfl).published rfl, hnext]
      refine stamp_lt_of_phase rfl rfl ?_
      rw [hcycle.phase _ _ _ _ hholder rfl rfl]
      exact Nat.lt_succ_self _
  | @beginScan config state next tick startedMs nowMs refresh outcome hholder hnext =>
      rw [(hinv.holder _ _ _ hholder rfl).published rfl, hnext]
      refine stamp_lt_of_phase rfl rfl ?_
      rw [hcycle.phase _ _ _ _ hholder rfl rfl]
      exact Nat.lt_succ_self _
  | @publishIdle config state next tick nextTick currentTick nowMs outcome hholder htick hnext =>
      obtain ⟨f, hf, hnumber⟩ := hcycle.cycled _ _ _ hholder
      obtain ⟨pending, -, hkeeps⟩ := (hinv.holder _ _ _ hholder rfl).keeps
      rw [hf, hnext]
      refine stamp_lt_of_cycle ?_ hnumber
      have hsequence : (idleState state nowMs (waitMs nextTick currentTick)).eventSequence = _ := hkeeps.sequence
      rw [(hinv.file f hf).sequence, hsequence, List.length_append]
      exact Nat.le_add_right _ _
  | @stop config state nowMs eventMs outcome hholder =>
      obtain ⟨pending, -, hkeeps⟩ := (hinv.holder _ _ _ hholder rfl).keeps
      refine stamp_lt_of_sequence ?_
      rw [hlength, (hkeeps.stop nowMs eventMs).sequence, List.length_append, List.length_append, List.length_singleton]
      omega
  | @recover state nowMs outcome hholder hfile hinterrupted horphans =>
      refine stamp_lt_of_sequence ?_
      rw [hlength, ((hinv.file state hfile).recover nowMs).sequence, List.length_append, List.length_singleton]
      exact Nat.lt_succ_self _

/-! ## Where a run is in its cycle -/

/-- A run that holds nothing of a cycle. -/
lemma CycleInv.of_none (h : s.holder = none) : CycleInv s :=
  ⟨fun _ _ _ _ hsome _ _ => absurd (h.symm.trans hsome) (fun h => by cases h),
    fun _ _ _ hsome => absurd (h.symm.trans hsome) (fun h => by cases h)⟩

/-- A run whose stage is not `cycled`. -/
lemma CycleInv.of_stage {config : ServiceConfig} {stage : Stage O} (h : s.holder = some (config, stage))
    (hphase : ∀ state phase, stage.state? = some state → stage.phase? = some phase → state.phase = phase)
    (hcycled : ∀ state tick, stage ≠ .cycled state tick) : CycleInv s := by
  refine ⟨fun config' other state phase hsome hstate hother => ?_, fun config' state tick hsome => ?_⟩
  · obtain ⟨-, rfl⟩ := Prod.mk.inj (Option.some.inj (h.symm.trans hsome))
    exact hphase state phase hstate hother
  · obtain ⟨-, rfl⟩ := Prod.mk.inj (Option.some.inj (h.symm.trans hsome))
    exact absurd rfl (hcycled state tick)

section stages

/-- Where a process is after a write. -/
lemma cycle_of_writes {write : Write O} {outcome : WriteOutcome} (h : Writes s a write outcome)
    {holder : Option (Holder O)} (hholder : holder = write.done ∨ holder = write.raised) (ht : t.holder = holder) :
    CycleInv t := by
  have hquiet : ∀ (config : ServiceConfig) (state : ServiceState O), write.raised = some (config, .stopping state) →
      holder = write.raised → CycleInv t := by
    intro config state hraised hsame
    exact .of_stage (ht.trans (hsame.trans hraised)) (fun _ _ _ h => by cases h) (fun _ _ h => by cases h)
  cases h with
  | start hfree hinterrupted hstate =>
      rcases hholder with rfl | rfl
      · refine .of_stage ht (fun state phase h h' => ?_) (fun _ _ h => by cases h)
        cases h
        cases h'
        rw [hstate]
        rfl
      · exact .of_none ht
  | beginCycle hloop hnext =>
      rcases hholder with rfl | hsame
      · refine .of_stage ht (fun state phase h h' => ?_) (fun _ _ h => by cases h)
        cases h
        cases h'
        rw [hnext]
        rfl
      · exact hquiet _ _ rfl hsame
  | beginScan hrefreshed hnext =>
      rcases hholder with rfl | hsame
      · refine .of_stage ht (fun state phase h h' => ?_) (fun _ _ h => by cases h)
        cases h
        cases h'
        rw [hnext]
        rfl
      · exact hquiet _ _ rfl hsame
  | publishIdle hcycled htick hnext =>
      rcases hholder with rfl | hsame
      · refine .of_stage ht (fun state phase h h' => ?_) (fun _ _ h => by cases h)
        cases h
        cases h'
        rw [hnext]
        rfl
      · exact hquiet _ _ rfl hsame
  | stop hstopping =>
      have hclosing : holder = some (_, .closing) := hholder.elim id id
      exact .of_stage (ht.trans hclosing) (fun _ _ h => by cases h) (fun _ _ h => by cases h)
  | recover hfree hfile hinterrupted horphans => exact .of_none (ht.trans (hholder.elim id id))

lemma CycleInv.advance [FloatText PyFloat] [HealthCodec O] (hinv : SupervisionInv s) (hcycle : CycleInv s)
    (h : Advances s a t) : CycleInv t := by
  cases h with
  | @enter config state tick hholder =>
      refine .of_stage rfl (fun state' phase h h' => ?_) (fun _ _ h => by cases h)
      cases h
      cases h'
      exact hcycle.phase _ _ _ _ hholder rfl rfl
  | abandon hholder => exact .of_none rfl
  | spawn hholder =>
      refine .of_stage rfl (fun state' phase h h' => ?_) (fun _ _ h => by cases h)
      cases h
      cases h'
      exact hcycle.phase _ _ _ _ hholder rfl rfl
  | refreshEnds hholder =>
      refine .of_stage rfl (fun state' phase h h' => ?_) (fun _ _ h => by cases h)
      cases h
      cases h'
      exact hcycle.phase _ _ _ _ hholder rfl rfl
  | @scanEnds config state tick startedMs completedMs eventMs refresh outcome cycle hholder hnext =>
      refine ⟨fun config' stage state' phase hsome hstate hphase => ?_, fun config' state' tick' hsome => ?_⟩
      · cases hsome
        cases hphase
      · cases hsome
        refine ⟨state, (hinv.holder _ _ _ hholder rfl).published rfl, ?_⟩
        have hlast : (finishCycle state cycle eventMs).lastCycle = some cycle := by
          unfold finishCycle
          dsimp only
          split <;> rfl
        rw [ServiceState.cycleNumber, ServiceState.cycleNumber, hlast, hnext, cycleOf]
        cases state.lastCycle with
        | none => exact Int.zero_lt_one
        | some previous => exact Int.lt_succ _
  | leave hholder hstate => exact .of_stage rfl (fun _ _ _ h => by cases h) (fun _ _ h => by cases h)
  | close hholder => exact .of_none rfl
  | crash => exact .of_none rfl
  | orphanEnds hne => exact ⟨hcycle.phase, hcycle.cycled⟩

end stages

section steps

variable [FloatText PyFloat] [HealthCodec O] [DecidableEq ι] [DecidableEq O] {dataDir : String} {p : ι}

omit [FloatText PyFloat] [HealthCodec O] in
lemma CycleInv.observe (hcycle : CycleInv s) (h : Observes s a t) : CycleInv t := by
  cases h <;> exact ⟨hcycle.phase, hcycle.cycled⟩

/-- Along every run, each change of the file is a later state. -/
lemma file_stamped : Stamped (supervision ι O dataDir) (fun s => SupervisionInv s ∧ CycleInv s) Supervision.file stamp where
  keeps s a t hinv hstep := by
    obtain ⟨hinv, hcycle⟩ := hinv
    rcases supervisionStep?_cases hstep with ⟨write, outcome, hwrites, -, rfl⟩ | hadvances | hobserves
    · refine ⟨hinv.perform dataDir hwrites, ?_⟩
      rcases perform_cases dataDir s write outcome with ⟨holder, ht, hholder, -⟩ | ht
      · exact cycle_of_writes hwrites hholder (by rw [ht])
      · exact cycle_of_writes hwrites (.inr rfl) (by rw [ht])
    · exact ⟨hinv.advance hadvances, hcycle.advance hinv hadvances⟩
    · exact ⟨hinv.observe hobserves, hcycle.observe hobserves⟩
  grows s a t hinv hstep := by
    rcases supervisionStep?_cases hstep with ⟨write, outcome, hwrites, -, rfl⟩ | hadvances | hobserves
    · rcases perform_cases dataDir s write outcome with ⟨holder, ht, -, -⟩ | ht
      · rw [ht]
        exact .inr (stamp_lt_of_writes hinv.1 hinv.2 hwrites)
      · rw [ht]
        exact .refl _
    · cases hadvances <;> exact .refl _
    · cases hobserves <;> exact .refl _

lemma stamped_of_reachable (h : (supervision ι O dataDir).Reachable s) : SupervisionInv s ∧ CycleInv s := by
  refine h.invariant ?_ file_stamped.keeps
  rintro s rfl
  exact ⟨.of_reachable (.init (S := supervision ι O dataDir) rfl), .of_none rfl⟩

/-! ## The readers -/

/-- How a step moves a reader. -/
inductive Moves (s : Supervision ι O) (a : SupervisionLabel ι) (t : Supervision ι O) (p : ι) : Prop where
  | stays : a ≠ .readFirst p → t.readers p = s.readers p → Moves s a t p
  | reads : t.file = s.file → t.readers p = .first s.file 3 → Moves s a t p
  | tests {before : Option (ServiceState O)} {attempts : ℕ} : a ≠ .readFirst p → s.readers p = .first before attempts →
      t.readers p = .tested before attempts s.live → Moves s a t p
  | readsAgain {before : Option (ServiceState O)} {attempts : ℕ} {live : Option String} : a ≠ .readFirst p →
      t.file = s.file → s.readers p = .tested before attempts live → t.readers p = .again before s.file attempts live →
      Moves s a t p
  | resets : t.readers p = .idle → Moves s a t p

lemma moves_of_step (h : supervisionStep? dataDir s a = some t) (p : ι) : Moves s a t p := by
  rcases supervisionStep?_cases h with ⟨write, outcome, hwrites, -, rfl⟩ | hadvances | hobserves
  · have hother : a ≠ .readFirst p := by cases hwrites <;> exact fun h => by cases h
    rcases perform_cases dataDir s write outcome with ⟨holder, ht, -, -⟩ | ht
    · exact .stays hother (by rw [ht]; rfl)
    · exact .stays hother (by rw [ht])
  · cases hadvances <;> exact .stays (fun h => by cases h) rfl
  · cases hobserves with
    | @readFirst q =>
        by_cases hq : p = q
        · subst hq
          exact .reads rfl (Function.update_self _ _ _)
        · exact .stays (fun h => hq (SupervisionLabel.readFirst.inj h).symm) (Function.update_of_ne hq _ _)
    | @testLock q before attempts hreader =>
        by_cases hq : p = q
        · subst hq
          exact .tests (fun h => by cases h) hreader (Function.update_self _ _ _)
        · exact .stays (fun h => by cases h) (Function.update_of_ne hq _ _)
    | @readAgain q before attempts live hreader =>
        by_cases hq : p = q
        · subst hq
          exact .readsAgain (fun h => by cases h) rfl hreader (Function.update_self _ _ _)
        · exact .stays (fun h => by cases h) (Function.update_of_ne hq _ _)
    | @takeFence q hfence =>
        by_cases hq : p = q
        · subst hq
          exact .resets (Function.update_self _ _ _)
        · exact .stays (fun h => by cases h) (Function.update_of_ne hq _ _)
    | @releaseFence q hfence =>
        by_cases hq : p = q
        · subst hq
          exact .resets (Function.update_self _ _ _)
        · exact .stays (fun h => by cases h) (Function.update_of_ne hq _ _)

/-- `m` is a state of the run to `s`, and `p` has started no call after it. -/
def During (dataDir : String) (p : ι) (m s : Supervision ι O) : Prop :=
  System.Since (supervision ι O dataDir) (· = .readFirst p) m s

/-- What a reader has seen, and when. -/
structure ReaderInv (dataDir : String) (p : ι) (s : Supervision ι O) : Prop where
  first : ∀ before attempts, s.readers p = .first before attempts → ∃ m, During dataDir p m s ∧ m.file = before
  tested : ∀ before attempts live, s.readers p = .tested before attempts live →
    ∃ m₀ m, During dataDir p m₀ m ∧ During dataDir p m s ∧ m₀.file = before ∧ m.readers p = .first before attempts ∧
      m.live = live
  done : ∀ state live, s.readers p = .done state live →
    ∃ m attempts, During dataDir p m s ∧ m.readers p = .first state attempts ∧ m.file = state ∧ m.live = live

/-- A reader that holds nothing. -/
lemma ReaderInv.of_quiet (hfirst : ∀ before attempts, s.readers p ≠ .first before attempts)
    (htested : ∀ before attempts live, s.readers p ≠ .tested before attempts live)
    (hdone : ∀ state live, s.readers p ≠ .done state live) : ReaderInv dataDir p s :=
  ⟨fun _ _ h => absurd h (hfirst _ _), fun _ _ _ h => absurd h (htested _ _ _), fun _ _ h => absurd h (hdone _ _)⟩

/-- A reader that has read the file. -/
lemma ReaderInv.of_first (hs : (supervision ι O dataDir).Reachable s) {attempts : ℕ}
    (h : s.readers p = .first s.file attempts) : ReaderInv dataDir p s := by
  refine ⟨fun before attempts' hreader => ?_, fun _ _ _ hreader => ?_, fun _ _ hreader => ?_⟩
  · cases h.symm.trans hreader
    exact ⟨s, .refl hs, rfl⟩
  · cases h.symm.trans hreader
  · cases h.symm.trans hreader

lemma ReaderInv.step (hs : (supervision ι O dataDir).Reachable s) (hinv : ReaderInv dataDir p s)
    (hstep : supervisionStep? dataDir s a = some t) : ReaderInv dataDir p t := by
  have ht : (supervision ι O dataDir).Reachable t := hs.step hstep
  have hkept : ∀ {m}, a ≠ .readFirst p → During dataDir p m s → During dataDir p m t := fun hother hm => hm.step hstep hother
  cases moves_of_step hstep p with
  | stays hother hsame =>
      refine ⟨fun before attempts h => ?_, fun before attempts live h => ?_, fun state live h => ?_⟩
      · obtain ⟨m, hm, hfile⟩ := hinv.first _ _ (hsame.symm.trans h)
        exact ⟨m, hkept hother hm, hfile⟩
      · obtain ⟨m₀, m, hm₀, hm, hrest⟩ := hinv.tested _ _ _ (hsame.symm.trans h)
        exact ⟨m₀, m, hm₀, hkept hother hm, hrest⟩
      · obtain ⟨m, attempts, hm, hrest⟩ := hinv.done _ _ (hsame.symm.trans h)
        exact ⟨m, attempts, hkept hother hm, hrest⟩
  | reads hfile hreader => exact .of_first ht (hfile ▸ hreader)
  | @tests before attempts hother hbefore hreader =>
      refine ⟨fun _ _ h => ?_, fun _ _ _ h => ?_, fun _ _ h => ?_⟩
      · cases hreader.symm.trans h
      · cases hreader.symm.trans h
        obtain ⟨m₀, hm₀, hfile⟩ := hinv.first _ _ hbefore
        exact ⟨m₀, s, hm₀, hkept hother (.refl hs), hfile, hbefore, rfl⟩
      · cases hreader.symm.trans h
  | @readsAgain before attempts live hother hfile hbefore hreader =>
      unfold Reader.again at hreader
      split at hreader
      · -- The file is what it was at the first read, so it was the same when the lock was tested.
        rename_i hsame
        obtain ⟨m₀, m, ⟨hreach, tr, hrun, -⟩, hm, hm₀, hfirst, hlive⟩ := hinv.tested _ _ _ hbefore
        obtain ⟨-, tr', hrun', -⟩ := id hm
        have hmiddle : m.file = s.file :=
          file_stamped.unchanged hrun hrun' (stamped_of_reachable hreach) (hm₀.trans hsame)
        refine ⟨fun _ _ h => ?_, fun _ _ _ h => ?_, fun _ _ h => ?_⟩
        · cases hreader.symm.trans h
        · cases hreader.symm.trans h
        · cases hreader.symm.trans h
          exact ⟨m, attempts, hkept hother hm, hsame ▸ hfirst, hmiddle, hlive⟩
      · split at hreader
        · refine .of_quiet (fun _ _ h => ?_) (fun _ _ _ h => ?_) (fun _ _ h => ?_) <;> cases hreader.symm.trans h
        · exact .of_first ht (hfile ▸ hreader)
  | resets hreader =>
      refine .of_quiet (fun _ _ h => ?_) (fun _ _ _ h => ?_) (fun _ _ h => ?_) <;> cases hreader.symm.trans h

lemma ReaderInv.of_reachable (h : (supervision ι O dataDir).Reachable s) (p : ι) : ReaderInv dataDir p s := by
  refine (System.Reachable.invariant (S := supervision ι O dataDir)
    (I := fun s => (supervision ι O dataDir).Reachable s ∧ ReaderInv dataDir p s) ?_ ?_ h).2
  · rintro s rfl
    exact ⟨.init rfl, .of_quiet (fun _ _ h => by cases h) (fun _ _ _ h => by cases h) (fun _ _ h => by cases h)⟩
  · exact fun s a t hs hstep => ⟨hs.1.step hstep, hs.2.step hs.1 hstep⟩

omit [FloatText PyFloat] [HealthCodec O] [DecidableEq ι] [DecidableEq O] in
/-- The file is of the run that holds `supervisor.lock`. -/
lemma file_of_live (hinv : SupervisionInv s) {runId : String} (h : s.live = some runId) :
    ∃ f, s.file = some f ∧ f.runId = runId := by
  obtain ⟨⟨config, stage⟩, hholder, hlive⟩ := Option.bind_eq_some_iff.mp h
  have hstate : ∃ state, stage.state? = some state ∧ state.runId = runId := by
    cases stage with
    | booted state => cases hlive
    | _ => exact Option.map_eq_some_iff.mp hlive
  obtain ⟨state, hstate, hrun⟩ := hstate
  obtain ⟨f, hf, hsame⟩ := (hinv.holder _ _ _ hholder hstate).file
  exact ⟨f, hf, hsame.trans hrun⟩

/-- **A snapshot was true at one moment of its call**: there was a state in which the file held what the reader returns,
and in which the lock was held, or free, as the reader says. So a held lock always belongs to the run of the returned
state. -/
theorem snapshot_atomic (h : (supervision ι O dataDir).Reachable s) {state : Option (ServiceState O)}
    {live : Option String} (hdone : s.readers p = .done state live) :
    (∃ m attempts, During dataDir p m s ∧ m.readers p = .first state attempts ∧ m.file = state ∧ m.live = live) ∧
      ∀ runId, live = some runId → ∃ f, state = some f ∧ f.runId = runId := by
  obtain ⟨m, attempts, hm, hreader, hfile, hlive⟩ := (ReaderInv.of_reachable h p).done _ _ hdone
  refine ⟨⟨m, attempts, hm, hreader, hfile, hlive⟩, fun runId hrun => ?_⟩
  rw [← hfile]
  exact file_of_live (SupervisionInv.of_reachable hm.1) (hlive.trans hrun)

/-! ## Under the lock of the observation log -/

/-- What a reader has in its hands of the file. -/
def Reader.seen? : Reader O → Option (Option (ServiceState O))
  | .first before _ => some before
  | .tested before _ _ => some before
  | .done state _ => some state
  | _ => none

/-- **A snapshot under the lock of the observation log** does not fail, and what it returns is what the file holds as long
as the lock is held. -/
theorem fenced_snapshot (h : (supervision ι O dataDir).Reachable s) (hfence : s.fence = some p) :
    s.readers p ≠ .unstable ∧ ∀ file, (s.readers p).seen? = some file → s.file = file := by
  refine h.invariant (I := fun s => s.fence = some p →
    s.readers p ≠ .unstable ∧ ∀ file, (s.readers p).seen? = some file → s.file = file) ?_ ?_ hfence
  · rintro s rfl hnone
    cases hnone
  · intro s a t hinv hstep hheld
    have hkept : t.fence = s.fence ∧ t.file = s.file ∨ t.readers p = .idle := by
      rcases supervisionStep?_cases hstep with ⟨write, outcome, -, hfree, rfl⟩ | hadvances | hobserves
      · rcases perform_cases dataDir s write outcome with ⟨holder, ht, -, hreplaces⟩ | ht
        · rw [ht] at hheld
          exact absurd ((hfree hreplaces).symm.trans hheld) (fun h => by cases h)
        · rw [ht]
          exact .inl ⟨rfl, rfl⟩
      · cases hadvances <;> exact .inl ⟨rfl, rfl⟩
      · cases hobserves with
        | takeFence hfree =>
            cases hheld
            exact .inr (Function.update_self _ _ _)
        | releaseFence hbefore => cases hheld
        | _ => exact .inl ⟨rfl, rfl⟩
    rcases hkept with ⟨hsame, hfile⟩ | hidle
    · obtain ⟨hstable, hseen⟩ := hinv (hsame.symm.trans hheld)
      rw [hfile]
      cases moves_of_step hstep p with
      | stays hother hreader => exact hreader ▸ ⟨hstable, hseen⟩
      | reads _ hreader => exact hreader ▸ ⟨fun h => (by cases h), fun _ h => Option.some.inj h⟩
      | tests _ hbefore hreader =>
          rw [hbefore] at hseen
          exact hreader ▸ ⟨fun h => (by cases h), hseen⟩
      | readsAgain _ _ hbefore hreader =>
          rw [hbefore] at hseen
          rw [hreader, Reader.again, if_pos (hseen _ rfl).symm]
          exact ⟨fun h => (by cases h), fun _ h => Option.some.inj h⟩
      | resets hreader => exact hreader ▸ ⟨fun h => (by cases h), fun _ h => (by cases h)⟩
    · exact hidle ▸ ⟨fun h => (by cases h), fun _ h => (by cases h)⟩

/-! ## Healthy views -/

/-- **A healthy view means a healthy run**: the run that held the lock had published the returned state, and its last cycle
was a cycle of its own without problems. -/
theorem healthy_snapshot (h : (supervision ι O dataDir).Reachable s) {state : Option (ServiceState O)}
    {live : Option String} (hdone : s.readers p = .done state live) {nowMs : ℤ}
    (hhealthy : (Notifications.healthView (state.map ServiceState.toReminders) live.isSome nowMs).healthy = true) :
    ∃ f cycle, state = some f ∧ live = some f.runId ∧ f.running = true ∧ f.lastCycle = some cycle ∧
      cycle.serviceRunId = f.runId ∧ cycle.problems = [] := by
  cases state with
  | none => cases hhealthy
  | some f =>
      have hempty := List.isEmpty_iff.mp hhealthy
      dsimp only [Option.map_some, Notifications.healthView] at hempty
      obtain ⟨hproblems, hruntime⟩ := List.append_eq_nil_iff.mp hempty
      have hrunning : f.toReminders.runtime live.isSome nowMs = .running := by
        by_contra hne
        rw [if_pos hne] at hruntime
        cases hruntime
      obtain ⟨hrun, hlive⟩ : f.running = true ∧ live.isSome = true := by
        unfold Notifications.ServiceState.runtime at hrunning
        split at hrunning
        · cases hrunning
        · rename_i hrun
          split at hrunning
          · dsimp only at hrunning
            split at hrunning <;> cases hrunning
          · rename_i halive
            rw [Bool.not_eq_true, Bool.not_eq_false'] at hrun halive
            exact ⟨hrun, halive⟩
      obtain ⟨runId, hrunId⟩ := Option.isSome_iff_exists.mp hlive
      obtain ⟨f', hf', rfl⟩ := (snapshot_atomic h hdone).2 runId hrunId
      obtain rfl := Option.some.inj hf'
      have hlast : f.toReminders.lastCycle = f.lastCycle.map CycleHealth.toReminders := rfl
      rw [hlast] at hproblems
      cases hcycle : f.lastCycle with
      | none =>
          rw [hcycle] at hproblems
          cases hproblems
      | some cycle =>
          rw [hcycle] at hproblems
          obtain ⟨hnone, hsame⟩ := List.append_eq_nil_iff.mp hproblems
          refine ⟨f, cycle, rfl, hrunId, hrun, hcycle, ?_, hnone⟩
          by_contra hne
          have hif : (if cycle.serviceRunId ≠ f.runId then ["no_completed_cycle_in_current_run"]
              else []) = ([] : List String) := hsame
          rw [if_pos hne] at hif
          cases hif

end steps

/-! ## A small run -/

section concrete

open Notifications (DemoScan demoSha256)
open Notifications.ObservationFile (demoFloatText)

attribute [local instance] demoSha256 demoFloatText demoHealth

/-- A reader looks at the run under the lock of the observation log. -/
def readLabels : List (SupervisionLabel Unit) := [.enter 0, .takeFence (), .readFirst (), .testLock (), .readAgain ()]

lemma readLabels_enabled : (readLabels.foldlM (supervisionStep? "data") startedState).isSome = true := by decide +kernel

/-- The state after that. -/
def readState : Supervision Unit DemoScan := (readLabels.foldlM (supervisionStep? "data") startedState).get readLabels_enabled

lemma readState_reachable : (supervision Unit DemoScan "data").Reachable readState := by
  obtain ⟨tr, hr⟩ := System.run_of_foldlM Supervision.initial (Option.some_get readLabels_enabled).symm
  exact startedState_reachable.run hr

lemma readState_done : readState.readers () = .done readState.file (some "run") := by decide +kernel

/-- The reader gets the run and its state. -/
theorem snapshot_atomic_demo :
    (∃ m attempts, During "data" () m readState ∧ m.readers () = .first readState.file attempts ∧
      m.file = readState.file ∧ m.live = some "run") ∧ ∃ f, readState.file = some f ∧ f.runId = "run" :=
  have h := snapshot_atomic readState_reachable readState_done
  ⟨h.1, h.2 "run" rfl⟩

/-- It holds the lock, and has not failed. -/
theorem fenced_snapshot_demo : readState.fence = some () ∧ readState.readers () ≠ .unstable := by
  have hfence : readState.fence = some () := by decide +kernel
  exact ⟨hfence, (fenced_snapshot readState_reachable hfence).1⟩

end concrete

end MuStrategy.Service
