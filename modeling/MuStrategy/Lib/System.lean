import Mathlib.Data.List.Basic

/-!
# Labelled transition systems

A `System` is a set of initial states and a labelled step relation. Every concurrent or stateful
component of the development is one: its labels are the transactions, file-system steps or
process steps that can happen next, and an interleaving is a run.

* `System.Run s tr s'` — a run from `s` to `s'`; the trace `tr` lists each label with the state
  it led to.
* `System.Reachable` — the states at the end of a run from an initial state.
* `System.Reachable.invariant` — the induction rule for safety: initial states satisfy `I`, every
  step preserves it.
* `System.Run.rel` — the induction rule for two points of one run: a reflexive and transitive
  relation that every step from an invariant state respects relates the two ends of a run.
* `System.states` — the visited states; `Run.pairwise_states` and `Run.isChain_states` lift what a
  step does to any earlier and later state, and to neighbouring states.
* `System.restrict` — the runs whose steps fulfil a condition; `Reachable.restrict_invariant` — the induction rule for them.
* `Run.exists_change` — the step that gave a value its last change.
* `System.ofFn` — the system of a total step function (serialized transactions);
  `System.run_traceFn` — every list of labels is a run of it. `System.ofPartial` — the system of
  a step function with labels that are not always enabled.
* `System.Run.simulate` — the simulation rule: runs of one system map to runs of a more abstract one.
-/

namespace MuStrategy.Lib

/-- A labelled transition system over states `σ` and labels `α`. -/
structure System (σ α : Type*) where
  /-- The initial states. -/
  init : σ → Prop
  /-- `step s a s'`: the label `a` leads from `s` to `s'`. -/
  step : σ → α → σ → Prop

namespace System

variable {σ α : Type*} (S : System σ α)

/-- A run, with the labels and the states they led to. -/
inductive Run : σ → List (α × σ) → σ → Prop where
  | nil (s : σ) : Run s [] s
  | cons {s t u : σ} {a : α} {tr : List (α × σ)} :
      S.step s a t → Run t tr u → Run s ((a, t) :: tr) u

/-- A state at the end of a run from an initial state. -/
def Reachable (s : σ) : Prop := ∃ s₀ tr, S.init s₀ ∧ S.Run s₀ tr s

variable {S}

lemma Run.append {s t u : σ} {tr tr' : List (α × σ)} (h : S.Run s tr t) (h' : S.Run t tr' u) :
    S.Run s (tr ++ tr') u := by
  induction h with
  | nil => exact h'
  | cons hstep _ ih => exact .cons hstep (ih h')

lemma Run.single {s t : σ} {a : α} (h : S.step s a t) : S.Run s [(a, t)] t := .cons h (.nil t)

/-- A run over a concatenated trace splits at the seam. -/
lemma Run.split {s u : σ} {tr tr' : List (α × σ)} (h : S.Run s (tr ++ tr') u) :
    ∃ t, S.Run s tr t ∧ S.Run t tr' u := by
  induction tr generalizing s with
  | nil => exact ⟨s, .nil s, h⟩
  | cons p tr ih =>
      cases h with
      | cons hstep hrest =>
          obtain ⟨t, h₁, h₂⟩ := ih hrest
          exact ⟨t, .cons hstep h₁, h₂⟩

/-- The state at a position of the trace is the end of the run over the part before it. -/
lemma Run.to_mem {s u : σ} {tr : List (α × σ)} (h : S.Run s tr u) {p : α × σ} (hp : p ∈ tr) :
    ∃ tr₁ tr₂, tr = tr₁ ++ tr₂ ∧ S.Run s tr₁ p.2 ∧ S.Run p.2 tr₂ u := by
  induction h with
  | nil => cases hp
  | @cons s t u a tr hstep hrest ih =>
      rcases List.mem_cons.mp hp with rfl | hp
      · exact ⟨[(a, t)], tr, rfl, .single hstep, hrest⟩
      · obtain ⟨tr₁, tr₂, rfl, h₁, h₂⟩ := ih hp
        exact ⟨(a, t) :: tr₁, tr₂, rfl, .cons hstep h₁, h₂⟩

lemma Reachable.init {s : σ} (h : S.init s) : S.Reachable s := ⟨s, [], h, .nil s⟩

lemma Reachable.run {s t : σ} {tr : List (α × σ)} (h : S.Reachable s) (hr : S.Run s tr t) :
    S.Reachable t := by
  obtain ⟨s₀, tr₀, h₀, hr₀⟩ := h
  exact ⟨s₀, tr₀ ++ tr, h₀, hr₀.append hr⟩

lemma Reachable.step {s t : σ} {a : α} (h : S.Reachable s) (hs : S.step s a t) : S.Reachable t :=
  h.run (.single hs)

/-- **Invariant rule, along a run**: what every step preserves, every run preserves. -/
theorem Run.invariant {I : σ → Prop} (hstep : ∀ s a t, I s → S.step s a t → I t) {s t : σ}
    {tr : List (α × σ)} (h : S.Run s tr t) (hs : I s) : I t := by
  induction h with
  | nil => exact hs
  | cons hst _ ih => exact ih (hstep _ _ _ hs hst)

/-- **Invariant rule**: what holds initially and is preserved by every step holds in every
reachable state. -/
theorem Reachable.invariant {I : σ → Prop} (hinit : ∀ s, S.init s → I s)
    (hstep : ∀ s a t, I s → S.step s a t → I t) {s : σ} (h : S.Reachable s) : I s := by
  obtain ⟨s₀, tr, h₀, hr⟩ := h
  exact hr.invariant hstep (hinit s₀ h₀)

/-- **Two-point rule**: a reflexive, transitive relation that every step from a state of the
invariant `I` respects relates the two ends of every run that starts in `I`. -/
theorem Run.rel {I : σ → Prop} {R : σ → σ → Prop} (hrefl : ∀ s, R s s)
    (htrans : ∀ s t u, R s t → R t u → R s u) (hinv : ∀ s a t, I s → S.step s a t → I t)
    (hstep : ∀ s a t, I s → S.step s a t → R s t) {s t : σ} {tr : List (α × σ)}
    (h : S.Run s tr t) (hs : I s) : R s t := by
  induction h with
  | nil => exact hrefl _
  | cons hst _ ih => exact htrans _ _ _ (hstep _ _ _ hs hst) (ih (hinv _ _ _ hs hst))

/-- The states visited by a run, the first one included. -/
def states (s : σ) (tr : List (α × σ)) : List σ := s :: tr.map Prod.snd

@[simp] lemma states_nil (s : σ) : states s ([] : List (α × σ)) = [s] := rfl

@[simp] lemma states_cons (s : σ) (p : α × σ) (tr : List (α × σ)) :
    states s (p :: tr) = s :: states p.2 tr := rfl

lemma Run.forall_states {I : σ → Prop} (hstep : ∀ s a t, I s → S.step s a t → I t) {s t : σ}
    {tr : List (α × σ)} (h : S.Run s tr t) (hs : I s) : ∀ u ∈ states s tr, I u := by
  induction h with
  | nil => simpa using hs
  | cons hst _ ih =>
      intro u hu
      rcases List.mem_cons.mp hu with rfl | hu
      · exact hs
      · exact ih (hstep _ _ _ hs hst) u hu

/-- **Two-point rule, for all visited states**: under the hypotheses of `Run.rel`, any earlier
state is related to any later one. -/
theorem Run.pairwise_states {I : σ → Prop} {R : σ → σ → Prop} (hrefl : ∀ s, R s s)
    (htrans : ∀ s t u, R s t → R t u → R s u) (hinv : ∀ s a t, I s → S.step s a t → I t)
    (hstep : ∀ s a t, I s → S.step s a t → R s t) {s t : σ} {tr : List (α × σ)}
    (h : S.Run s tr t) (hs : I s) : (states s tr).Pairwise R := by
  induction h with
  | nil => exact List.pairwise_singleton R _
  | @cons s t u a tr hst hrest ih =>
      have hpair := ih (hinv _ _ _ hs hst)
      refine List.pairwise_cons.mpr ⟨fun v hv => ?_, hpair⟩
      have htv : R t v := by
        rcases List.mem_cons.mp hv with rfl | hv
        · exact hrefl _
        · exact (List.pairwise_cons.mp hpair).1 v hv
      exact htrans _ _ _ (hstep _ _ _ hs hst) htv

/-- Neighbouring states of a run are related by what a step does. -/
lemma Run.isChain_states {I : σ → Prop} {R : σ → σ → Prop}
    (hinv : ∀ s a t, I s → S.step s a t → I t) (hstep : ∀ s a t, I s → S.step s a t → R s t)
    {s t : σ} {tr : List (α × σ)} (h : S.Run s tr t) (hs : I s) : (states s tr).IsChain R := by
  induction h with
  | nil => exact .singleton _
  | cons hst _ ih =>
      exact List.isChain_cons_cons.mpr ⟨hstep _ _ _ hs hst, ih (hinv _ _ _ hs hst)⟩

/-- Every visited state is related to the end of the run. -/
lemma Run.rel_end {I : σ → Prop} {R : σ → σ → Prop} (hrefl : ∀ s, R s s)
    (htrans : ∀ s t u, R s t → R t u → R s u) (hinv : ∀ s a t, I s → S.step s a t → I t)
    (hstep : ∀ s a t, I s → S.step s a t → R s t) {s t : σ} {tr : List (α × σ)}
    (h : S.Run s tr t) (hs : I s) : ∀ u ∈ states s tr, R u t := by
  induction h with
  | nil => simpa using hrefl _
  | cons hst hrest ih =>
      intro u hu
      rcases List.mem_cons.mp hu with rfl | hu
      · exact (Run.cons hst hrest).rel hrefl htrans hinv hstep hs
      · exact ih (hinv _ _ _ hs hst) u hu

/-- A run ends in a state it visits. -/
lemma Run.end_mem {s t : σ} {tr : List (α × σ)} (h : S.Run s tr t) : t ∈ states s tr := by
  induction h with
  | nil s => exact List.mem_cons_self
  | cons _ _ ih => exact List.mem_cons_of_mem _ ih

/-- A run passes through each state it visits. -/
lemma Run.through {s t u : σ} {tr : List (α × σ)} (h : S.Run s tr t) (hu : u ∈ states s tr) :
    ∃ tr₁ tr₂, tr = tr₁ ++ tr₂ ∧ S.Run s tr₁ u ∧ S.Run u tr₂ t := by
  rcases List.mem_cons.mp hu with rfl | hu
  · exact ⟨[], tr, rfl, .nil _, h⟩
  · obtain ⟨p, hp, rfl⟩ := List.mem_map.mp hu
    exact h.to_mem hp

/-- **Change rule**: what differs between the ends of a run got its last value in one of its steps. -/
theorem Run.exists_change {β : Type*} {g : σ → β} {s t : σ} {tr : List (α × σ)} (h : S.Run s tr t) (hne : g s ≠ g t) :
    ∃ tr₁ u a u' tr₂, tr = tr₁ ++ (a, u') :: tr₂ ∧ S.Run s tr₁ u ∧ S.step u a u' ∧ S.Run u' tr₂ t ∧
      g u ≠ g t ∧ g u' = g t := by
  induction h with
  | nil s => exact absurd rfl hne
  | @cons s t v a tr hst hrest ih =>
      by_cases hlast : g t = g v
      · exact ⟨[], s, a, t, tr, rfl, .nil s, hst, hrest, hne, hlast⟩
      · obtain ⟨tr₁, u, b, u', tr₂, rfl, hr₁, hstep, hr₂, hu, hu'⟩ := ih hlast
        exact ⟨(a, t) :: tr₁, u, b, u', tr₂, rfl, .cons hst hr₁, hstep, hr₂, hu, hu'⟩

/-- The system of a step function: every label is always enabled and has one outcome. -/
def ofFn (init : σ) (f : σ → α → σ) : System σ α where
  init s := s = init
  step s a t := t = f s a

@[simp] lemma ofFn_step (init : σ) (f : σ → α → σ) (s : σ) (a : α) (t : σ) :
    (ofFn init f).step s a t ↔ t = f s a := Iff.rfl

@[simp] lemma ofFn_init (init : σ) (f : σ → α → σ) (s : σ) :
    (ofFn init f).init s ↔ s = init := Iff.rfl

/-- The trace of a list of labels under a step function. -/
def traceFn (f : σ → α → σ) : σ → List α → List (α × σ)
  | _, [] => []
  | s, a :: as => (a, f s a) :: traceFn f (f s a) as

/-- Every list of labels is a run of a step function. -/
lemma run_traceFn (init : σ) (f : σ → α → σ) (s : σ) (as : List α) :
    (ofFn init f).Run s (traceFn f s as) (as.foldl f s) := by
  induction as generalizing s with
  | nil => exact .nil s
  | cons a as ih => exact .cons rfl (ih (f s a))

/-- The system of a partial step function: `none` means that the label is not enabled. -/
def ofPartial (init : σ) (f : σ → α → Option σ) : System σ α where
  init s := s = init
  step s a t := f s a = some t

/-- Labels that are enabled one after another are a run. -/
lemma run_of_foldlM (init : σ) {f : σ → α → Option σ} {s t : σ} {as : List α}
    (h : as.foldlM f s = some t) : ∃ tr, (ofPartial init f).Run s tr t := by
  induction as generalizing s with
  | nil =>
      obtain rfl := Option.some.inj h
      exact ⟨[], .nil _⟩
  | cons a as ih =>
      rw [List.foldlM_cons] at h
      obtain ⟨u, hu, h⟩ := Option.bind_eq_some_iff.mp h
      obtain ⟨tr, hr⟩ := ih h
      exact ⟨(a, u) :: tr, .cons hu hr⟩

/-- The runs of a system whose steps fulfil a condition. -/
def restrict (S : System σ α) (ok : σ → α → Prop) : System σ α where
  init := S.init
  step s a t := S.step s a t ∧ ok s a

lemma Run.of_restrict {ok : σ → α → Prop} {s t : σ} {tr : List (α × σ)} (h : (S.restrict ok).Run s tr t) : S.Run s tr t := by
  induction h with
  | nil s => exact .nil s
  | cons hstep _ ih => exact .cons hstep.1 ih

lemma Reachable.of_restrict {ok : σ → α → Prop} {s : σ} (h : (S.restrict ok).Reachable s) : S.Reachable s := by
  obtain ⟨s₀, tr, h₀, hr⟩ := h
  exact ⟨s₀, tr, h₀, hr.of_restrict⟩

/-- **Invariant rule, for such runs**, with what every run keeps at hand. -/
theorem Reachable.restrict_invariant {ok : σ → α → Prop} {I : σ → Prop} (hinit : ∀ s, S.init s → I s)
    (hstep : ∀ s a t, S.Reachable s → I s → S.step s a t → ok s a → I t) {s : σ} (h : (S.restrict ok).Reachable s) : I s := by
  refine (Reachable.invariant (I := fun s => S.Reachable s ∧ I s) ?_ ?_ h).2
  · exact fun s hs => ⟨.init hs, hinit s hs⟩
  · exact fun s a t hs hst => ⟨hs.1.step hst.1, hstep s a t hs.1 hs.2 hst.1 hst.2⟩

/-- **Simulation rule**: when every step of `S` from a state of the invariant `I` is matched by a
run of `T` between the images, so is every run, and every label of the image run comes from a label
of the run. -/
theorem Run.simulate {τ β : Type*} {T : System τ β} {I : σ → Prop} (f : σ → τ)
    (R : α × σ → β × τ → Prop) (hinv : ∀ s a t, I s → S.step s a t → I t)
    (hstep : ∀ s a t, I s → S.step s a t →
      ∃ tr, T.Run (f s) tr (f t) ∧ ∀ y ∈ tr, R (a, t) y)
    {s t : σ} {tr : List (α × σ)} (h : S.Run s tr t) (hs : I s) :
    ∃ tr', T.Run (f s) tr' (f t) ∧ ∀ y ∈ tr', ∃ x ∈ tr, R x y := by
  induction h with
  | nil => exact ⟨[], .nil _, by simp⟩
  | @cons s t u a tr hst _ ih =>
      obtain ⟨tr₁, hr₁, h₁⟩ := hstep _ _ _ hs hst
      obtain ⟨tr₂, hr₂, h₂⟩ := ih (hinv _ _ _ hs hst)
      refine ⟨tr₁ ++ tr₂, hr₁.append hr₂, fun y hy => ?_⟩
      rcases List.mem_append.mp hy with hy | hy
      · exact ⟨(a, t), List.mem_cons_self, h₁ y hy⟩
      · obtain ⟨x, hx, hxy⟩ := h₂ y hy
        exact ⟨x, List.mem_cons_of_mem _ hx, hxy⟩

end System

end MuStrategy.Lib
