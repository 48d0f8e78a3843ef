import Mathlib.Logic.Relation
import MuStrategy.Lib.System

/-!
# Programs of system calls

A program is a tree: it is done with a result, or it makes a call and goes on with the reply. The calls act on a
shared state; what else happens between two of them is up to the environment.

* `Prog` — programs; `Prog.andThen` sequences them, and `tryCatch` and `finally` are made of it.
* `Prog.run` — a program that runs alone; `Prog.Kill` — the states in which a kill can leave its run.
* `Prog.Returns`, `Prog.ReturnsAfter`, `Prog.ReturnsThrough` — programs that can only return, at once or after some
  reply, and programs that return only after it.
* `Safe` — what a program does and returns among others that keep their guarantees; `Safe.andThen` and `safe_call`
  are its rules. `Amid` — a whole run among others; `Safe.amid` — it ends as safety says.
* `Pool` — programs that are started, advance in any order and crash; `Pool.safe` — each of them is safe;
  `Pool.reachable_inherits` — what programs hand down, threads have; `Pool.reachable_alone` — one can run to its end.
-/

namespace MuStrategy.Lib

/-- A program with the calls `Op`, that returns a value or raises. -/
inductive Prog (Op : Type) (Reply : Op → Type) (ε α : Type) where
  | done (result : Except ε α)
  | call (op : Op) (next : Reply op → Prog Op Reply ε α)

namespace Prog

variable {Op : Type} {Reply : Op → Type} {ε ε' α β γ : Type}

/-- The rest of the program depends on the result. -/
def andThen : Prog Op Reply ε α → (Except ε α → Prog Op Reply ε' β) → Prog Op Reply ε' β
  | done result, f => f result
  | call op next, f => call op fun reply => (next reply).andThen f

/-- What follows a value; an exception passes. -/
def onValue (f : α → Prog Op Reply ε β) : Except ε α → Prog Op Reply ε β
  | .ok a => f a
  | .error e => done (.error e)

/-- What follows an exception; a value passes. -/
def onError (f : ε → Prog Op Reply ε α) : Except ε α → Prog Op Reply ε α
  | .ok a => done (.ok a)
  | .error e => f e

instance : Monad (Prog Op Reply ε) where
  pure a := done (.ok a)
  bind p f := p.andThen (onValue f)

/-- `raise e`. -/
def raise (e : ε) : Prog Op Reply ε α := done (.error e)

/-- `try: p` with the handler `f` of all exceptions. -/
def handle (p : Prog Op Reply ε α) (f : ε → Prog Op Reply ε α) : Prog Op Reply ε α := p.andThen (onError f)

/-- `try: p` followed by `finally: c`. -/
def finally_ (p : Prog Op Reply ε α) (c : Prog Op Reply ε Unit) : Prog Op Reply ε α :=
  p.andThen fun result => c.andThen (onValue fun _ => done result)

lemma bind_eq (p : Prog Op Reply ε α) (f : α → Prog Op Reply ε β) : (p >>= f) = p.andThen (onValue f) := rfl

lemma pure_eq (a : α) : (pure a : Prog Op Reply ε α) = done (.ok a) := rfl

lemma andThen_assoc {ε'' : Type} (p : Prog Op Reply ε α) (f : Except ε α → Prog Op Reply ε' β)
    (g : Except ε' β → Prog Op Reply ε'' γ) : (p.andThen f).andThen g = p.andThen fun r => (f r).andThen g := by
  induction p with
  | done result => rfl
  | call op next ih =>
      simp only [andThen, call.injEq, heq_eq_eq, true_and]
      exact funext fun reply => ih reply

/-! ## What is left to do -/

/-- Whatever the calls reply, the program returns a value. -/
def Returns : Prog Op Reply ε α → Prop
  | done result => ∃ a, result = .ok a
  | call _ next => ∀ reply, (next reply).Returns

/-- After a reply with `C` the program can only return a value. -/
def ReturnsAfter (C : (op : Op) → Reply op → Prop) : Prog Op Reply ε α → Prop
  | done _ => True
  | call op next => ∀ reply, (C op reply → (next reply).Returns) ∧ (next reply).ReturnsAfter C

/-- The program returns a value only after a reply with `C`. -/
def ReturnsThrough (C : (op : Op) → Reply op → Prop) : Prog Op Reply ε α → Prop
  | done result => ∀ a, result ≠ .ok a
  | call op next => ∀ reply, C op reply ∨ (next reply).ReturnsThrough C

section returns

variable {C : (op : Op) → Reply op → Prop}

/-- Its first part does, or what follows does. -/
lemma ReturnsThrough.bind {p : Prog Op Reply ε α} {f : α → Prog Op Reply ε β} (hf : ∀ a, (f a).ReturnsThrough C) :
    (p >>= f).ReturnsThrough C := by
  induction p with
  | done result =>
      cases result with
      | ok a => exact hf a
      | error e => rintro a ⟨⟩
  | call op next ih => exact fun reply => .inr (ih reply)

lemma ReturnsThrough.followed {p : Prog Op Reply ε α} (h : p.ReturnsThrough C) (f : α → Prog Op Reply ε β) :
    (p >>= f).ReturnsThrough C := by
  induction p with
  | done result =>
      cases result with
      | ok a => exact absurd rfl (h a)
      | error e => rintro a ⟨⟩
  | call op next ih => exact fun reply => (h reply).imp id (ih reply)

lemma ReturnsThrough.handle {p : Prog Op Reply ε α} {f : ε → Prog Op Reply ε α} (h : p.ReturnsThrough C)
    (hf : ∀ e, (f e).ReturnsThrough C) : (p.handle f).ReturnsThrough C := by
  induction p with
  | done result =>
      cases result with
      | ok a => exact absurd rfl (h a)
      | error e => exact hf e
  | call op next ih => exact fun reply => (h reply).imp id (ih reply)

lemma Returns.handle {p : Prog Op Reply ε α} (h : p.Returns) (f : ε → Prog Op Reply ε α) : (p.handle f).Returns := by
  induction p with
  | done result =>
      obtain ⟨a, rfl⟩ := h
      exact ⟨a, rfl⟩
  | call op next ih => exact fun reply => ih reply (h reply)

lemma Returns.bind {p : Prog Op Reply ε α} (h : p.Returns) {f : α → Prog Op Reply ε β} (hf : ∀ a, (f a).Returns) :
    (p >>= f).Returns := by
  induction p with
  | done result =>
      obtain ⟨a, rfl⟩ := h
      exact hf a
  | call op next ih => exact fun reply => ih reply (h reply)

/-- What follows is sure to return. -/
lemma ReturnsAfter.followed {p : Prog Op Reply ε α} (h : p.ReturnsAfter C) {f : α → Prog Op Reply ε β}
    (hf : ∀ a, (f a).Returns ∧ (f a).ReturnsAfter C) : (p >>= f).ReturnsAfter C := by
  induction p with
  | done result =>
      cases result with
      | ok a => exact (hf a).2
      | error e => trivial
  | call op next ih => exact fun reply => ⟨fun hC => ((h reply).1 hC).bind fun a => (hf a).1, ih reply (h reply).2⟩

lemma ReturnsAfter.handle {p : Prog Op Reply ε α} {f : ε → Prog Op Reply ε α} (h : p.ReturnsAfter C)
    (hf : ∀ e, (f e).ReturnsAfter C) : (p.handle f).ReturnsAfter C := by
  induction p with
  | done result =>
      cases result with
      | ok a => trivial
      | error e => exact hf e
  | call op next ih => exact fun reply => ⟨fun hC => ((h reply).1 hC).handle f, ih reply (h reply).2⟩

end returns

/-! ## Runs alone -/

section alone

variable {σ : Type} (perform : (op : Op) → σ → Reply op × σ)

/-- The result of a program that runs alone, and the state it leaves. -/
def run : Prog Op Reply ε α → σ → Except ε α × σ
  | done result, s => (result, s)
  | call op next, s => (next (perform op s).1).run (perform op s).2

/-- The states in which a kill can leave the run of a program: between two calls, or while one is carried out. -/
inductive Kill (during : Op → σ → σ → Prop) : Prog Op Reply ε α → σ → σ → Prop where
  | now (p : Prog Op Reply ε α) (s : σ) : Kill during p s s
  | inside {op : Op} {next : Reply op → Prog Op Reply ε α} {s t : σ} (h : during op s t) :
      Kill during (call op next) s t
  | later {op : Op} {next : Reply op → Prog Op Reply ε α} {s t : σ}
      (h : Kill during (next (perform op s).1) (perform op s).2 t) : Kill during (call op next) s t

variable {perform} {during : Op → σ → σ → Prop}

@[simp] lemma run_done (result : Except ε α) (s : σ) : run perform (done result : Prog Op Reply ε α) s = (result, s) := rfl

lemma run_andThen (p : Prog Op Reply ε α) (f : Except ε α → Prog Op Reply ε' β) (s : σ) :
    run perform (p.andThen f) s = run perform (f (run perform p s).1) (run perform p s).2 := by
  induction p generalizing s with
  | done result => rfl
  | call op next ih => exact ih _ _

lemma run_bind (p : Prog Op Reply ε α) (f : α → Prog Op Reply ε β) (s : σ) :
    run perform (p >>= f) s = match run perform p s with
      | (.ok a, t) => run perform (f a) t
      | (.error e, t) => (.error e, t) := by
  rw [bind_eq, run_andThen]
  rcases run perform p s with ⟨_ | _, _⟩ <;> rfl

/-- A program that returned a value is followed by the rest. -/
lemma run_bind_ok {p : Prog Op Reply ε α} {s t : σ} {a : α} (h : run perform p s = (.ok a, t))
    (f : α → Prog Op Reply ε β) : run perform (p >>= f) s = run perform (f a) t := by
  rw [run_bind, h]

lemma run_handle (p : Prog Op Reply ε α) (f : ε → Prog Op Reply ε α) (s : σ) :
    run perform (p.handle f) s = match run perform p s with
      | (.ok a, t) => (.ok a, t)
      | (.error e, t) => run perform (f e) t := by
  rw [handle, run_andThen]
  rcases run perform p s with ⟨_ | _, _⟩ <;> rfl

lemma run_finally (p : Prog Op Reply ε α) (c : Prog Op Reply ε Unit) (s : σ) :
    run perform (p.finally_ c) s = match run perform c (run perform p s).2 with
      | (.ok _, t) => ((run perform p s).1, t)
      | (.error e, t) => (.error e, t) := by
  rw [finally_, run_andThen, run_andThen]
  rcases run perform c (run perform p s).2 with ⟨_ | _, _⟩ <;> rfl

/-- A kill in a sequence happens in its first part or in the rest. -/
lemma kill_andThen {p : Prog Op Reply ε α} {f : Except ε α → Prog Op Reply ε' β} {s t : σ}
    (h : Kill perform during (p.andThen f) s t) :
    Kill perform during p s t ∨ Kill perform during (f (run perform p s).1) (run perform p s).2 t := by
  induction p generalizing s with
  | done result => exact .inr h
  | call op next ih =>
      cases h with
      | now => exact .inl (.now _ _)
      | inside hduring => exact .inl (.inside hduring)
      | later hlater =>
          rcases ih _ hlater with hfirst | hrest
          · exact .inl (.later hfirst)
          · exact .inr hrest

lemma kill_bind {p : Prog Op Reply ε α} {f : α → Prog Op Reply ε β} {s t u : σ} {a : α}
    (hrun : run perform p s = (.ok a, t)) (h : Kill perform during (p >>= f) s u) :
    Kill perform during p s u ∨ Kill perform during (f a) t u := by
  rcases kill_andThen h with hfirst | hrest
  · exact .inl hfirst
  · rw [hrun] at hrest
    exact .inr hrest

/-- All the calls that a program can make satisfy `A`. -/
def Calls (A : Op → Prop) : Prog Op Reply ε α → Prop
  | done _ => True
  | call op next => A op ∧ ∀ reply, (next reply).Calls A

lemma Calls.mono {A B : Op → Prop} (hAB : ∀ op, A op → B op) {p : Prog Op Reply ε α} (h : p.Calls A) : p.Calls B := by
  induction p with
  | done result => trivial
  | call op next ih => exact ⟨hAB op h.1, fun reply => ih reply (h.2 reply)⟩

lemma Calls.andThen {A : Op → Prop} {p : Prog Op Reply ε α} {f : Except ε α → Prog Op Reply ε' β} (h : p.Calls A)
    (hf : ∀ r, (f r).Calls A) : (p.andThen f).Calls A := by
  induction p with
  | done result => exact hf result
  | call op next ih => exact ⟨h.1, fun reply => ih reply (h.2 reply)⟩

lemma Calls.bind {A : Op → Prop} {p : Prog Op Reply ε α} {f : α → Prog Op Reply ε β} (h : p.Calls A)
    (hf : ∀ a, (f a).Calls A) : (p >>= f).Calls A := by
  refine Calls.andThen h fun r => ?_
  cases r with
  | ok a => exact hf a
  | error e => trivial

lemma Calls.handle {A : Op → Prop} {p : Prog Op Reply ε α} {f : ε → Prog Op Reply ε α} (h : p.Calls A)
    (hf : ∀ e, (f e).Calls A) : (p.handle f).Calls A := by
  refine Calls.andThen h fun r => ?_
  cases r with
  | ok a => trivial
  | error e => exact hf e

lemma Calls.finally {A : Op → Prop} {p : Prog Op Reply ε α} {c : Prog Op Reply ε Unit} (h : p.Calls A) (hc : c.Calls A) :
    (p.finally_ c).Calls A := by
  refine Calls.andThen h fun r => Calls.andThen hc fun r' => ?_
  cases r' <;> trivial

/-- A program that never gets such a reply. -/
lemma ReturnsAfter.of_calls {A : Op → Prop} {C : (op : Op) → Reply op → Prop} (hA : ∀ op, A op → ∀ reply, ¬ C op reply)
    {p : Prog Op Reply ε α} (h : p.Calls A) : p.ReturnsAfter C := by
  induction p with
  | done result => trivial
  | call op next ih => exact fun reply => ⟨fun hC => absurd hC (hA op h.1 reply), ih reply (h.2 reply)⟩

lemma ReturnsAfter.bind {A : Op → Prop} {C : (op : Op) → Reply op → Prop} (hA : ∀ op, A op → ∀ reply, ¬ C op reply)
    {p : Prog Op Reply ε α} (h : p.Calls A) {f : α → Prog Op Reply ε β} (hf : ∀ a, (f a).ReturnsAfter C) :
    (p >>= f).ReturnsAfter C := by
  induction p with
  | done result =>
      cases result with
      | ok a => exact hf a
      | error e => trivial
  | call op next ih => exact fun reply => ⟨fun hC => absurd hC (hA op h.1 reply), ih reply (h.2 reply)⟩

/-- **What every call keeps, also when it is cut short, a kill keeps.** -/
theorem kill_keeps {A : Op → Prop} {I : σ → Prop}
    (hA : ∀ op, A op → ∀ s, I s → I (perform op s).2 ∧ ∀ t, during op s t → I t) {p : Prog Op Reply ε α} (hp : p.Calls A)
    {s t : σ} (hs : I s) (h : Kill perform during p s t) : I t := by
  induction h with
  | now => exact hs
  | inside hduring => exact (hA _ hp.1 _ hs).2 _ hduring
  | @later op next s t h ih => exact ih (hp.2 _) (hA op hp.1 s hs).1

/-- A program whose calls leave the state alone is killed in the state it started from, and leaves it. -/
lemma kill_of_calls {A : Op → Prop} (hA : ∀ op, A op → ∀ s, (perform op s).2 = s ∧ ∀ t, during op s t → t = s)
    {p : Prog Op Reply ε α} (hp : p.Calls A) {s t : σ} (h : Kill perform during p s t) : t = s := by
  refine kill_keeps (I := fun u => u = s) (fun op hop u hu => ?_) hp rfl h
  subst hu
  exact hA op hop u

lemma run_of_calls {A : Op → Prop} (hA : ∀ op, A op → ∀ s, (perform op s).2 = s) {p : Prog Op Reply ε α} (hp : p.Calls A)
    (s : σ) : (run perform p s).2 = s := by
  induction p generalizing s with
  | done result => rfl
  | call op next ih => rw [run, ih _ (hp.2 _), hA op hp.1 s]

/-- A kill in the first part. -/
lemma Kill.first {p : Prog Op Reply ε α} {s t : σ} (h : Kill perform during p s t) (f : Except ε α → Prog Op Reply ε' β) :
    Kill perform during (p.andThen f) s t := by
  induction h with
  | now => exact .now _ _
  | inside hduring => exact .inside hduring
  | later _ ih => exact .later ih

/-- A kill in the rest. -/
lemma Kill.rest {p : Prog Op Reply ε α} {f : Except ε α → Prog Op Reply ε' β} {s t : σ}
    (h : Kill perform during (f (run perform p s).1) (run perform p s).2 t) : Kill perform during (p.andThen f) s t := by
  induction p generalizing s with
  | done result => exact h
  | call op next ih => exact .later (ih _ h)

lemma kill_done {result : Except ε α} {s t : σ} (h : Kill perform during (done result : Prog Op Reply ε α) s t) : t = s := by
  cases h
  rfl

end alone

end Prog

/-! ## Programs among others -/

section interference

variable {Op : Type} {Reply : Op → Type} {ε ε' α β : Type} {ι σ : Type}

/-- What the other parties may do meanwhile. -/
def Others (G : ι → σ → σ → Prop) (i : ι) : σ → σ → Prop := Relation.ReflTransGen fun s t => ∃ j, j ≠ i ∧ G j s t

/-- A fact that the other parties leave true. -/
def Stable (G : ι → σ → σ → Prop) (i : ι) (P : σ → Prop) : Prop := ∀ j, j ≠ i → ∀ s t, P s → G j s t → P t

variable {G : ι → σ → σ → Prop} {i : ι}

lemma Stable.others {P : σ → Prop} (h : Stable G i P) {s t : σ} (hs : P s) (ho : Others G i s t) : P t := by
  induction ho with
  | refl => exact hs
  | tail _ hstep ih =>
      obtain ⟨j, hj, hg⟩ := hstep
      exact h j hj _ _ ih hg

lemma Stable.and {P Q : σ → Prop} (hP : Stable G i P) (hQ : Stable G i Q) : Stable G i fun s => P s ∧ Q s :=
  fun j hj s t hs hg => ⟨hP j hj s t hs.1 hg, hQ j hj s t hs.2 hg⟩

lemma Stable.true : Stable G i fun _ => True := fun _ _ _ _ _ _ => trivial

lemma Stable.of_forall {P : σ → Prop} (h : ∀ j s t, P s → G j s t → P t) : Stable G i P := fun j _ => h j

variable (act : ι → (op : Op) → σ → Reply op → σ → Prop)

/-- Whatever the other parties do and the calls reply, each call keeps the guarantee of the party, and the result
satisfies `Q` from then on. -/
def Safe (G : ι → σ → σ → Prop) (i : ι) (Q : Except ε α → σ → Prop) : Prog Op Reply ε α → σ → Prop
  | .done result, s => ∀ t, Others G i s t → Q result t
  | .call op next, s => ∀ t, Others G i s t → ∀ reply u, act i op t reply u → G i t u ∧ Safe G i Q (next reply) u

variable {act} {Q : Except ε α → σ → Prop}

lemma Safe.others {p : Prog Op Reply ε α} {s t : σ} (h : Safe act G i Q p s) (ho : Others G i s t) : Safe act G i Q p t := by
  cases p with
  | done result => exact fun u hu => h u (ho.trans hu)
  | call op next => exact fun u hu => h u (ho.trans hu)

lemma Safe.step {j : ι} {p : Prog Op Reply ε α} {s t : σ} (h : Safe act G i Q p s) (hj : j ≠ i) (hg : G j s t) :
    Safe act G i Q p t := h.others (.single ⟨j, hj, hg⟩)

lemma Safe.mono {Q' : Except ε α → σ → Prop} (hQ : ∀ r s, Q r s → Q' r s) {p : Prog Op Reply ε α} {s : σ}
    (h : Safe act G i Q p s) : Safe act G i Q' p s := by
  induction p generalizing s with
  | done result => exact fun t ht => hQ result t (h t ht)
  | call op next ih =>
      intro t ht reply u hact
      obtain ⟨hg, hrest⟩ := h t ht reply u hact
      exact ⟨hg, ih reply hrest⟩

/-- **Sequence rule.** -/
theorem Safe.andThen {Q' : Except ε' β → σ → Prop} {p : Prog Op Reply ε α} {f : Except ε α → Prog Op Reply ε' β} {s : σ}
    (h : Safe act G i (fun r t => Safe act G i Q' (f r) t) p s) : Safe act G i Q' (p.andThen f) s := by
  induction p generalizing s with
  | done result => exact h s .refl
  | call op next ih =>
      intro t ht reply u hact
      obtain ⟨hg, hrest⟩ := h t ht reply u hact
      exact ⟨hg, ih reply hrest⟩

/-- **Result rule.** -/
theorem safe_done {result : Except ε α} {s : σ} (hstable : Stable G i (Q result)) (h : Q result s) :
    Safe act G i Q (.done result) s := fun _ ht => hstable.others h ht

/-- **Call rule.** -/
theorem safe_call {P : σ → Prop} (hstable : Stable G i P) {op : Op} {next : Reply op → Prog Op Reply ε α} {s : σ} (hs : P s)
    (h : ∀ t reply u, P t → act i op t reply u → G i t u ∧ Safe act G i Q (next reply) u) :
    Safe act G i Q (.call op next) s := fun t ht reply u hact => h t reply u (hstable.others hs ht) hact

/-- **Value rule**: an exception satisfies `Q'` at once, a value goes on. -/
theorem Safe.bind {Q' : Except ε β → σ → Prop} {p : Prog Op Reply ε α} {f : α → Prog Op Reply ε β} {s : σ}
    (h : Safe act G i (fun r t => match r with
      | .ok a => Safe act G i Q' (f a) t
      | .error e => ∀ u, Others G i t u → Q' (.error e) u) p s) : Safe act G i Q' (p >>= f) s := by
  refine Safe.andThen (h.mono fun r t hr => ?_)
  cases r with
  | ok a => exact hr
  | error e => exact hr

/-! ### Runs among others -/

section amid

variable (act' : (op : Op) → σ → Reply op → σ → Prop) (others : σ → σ → Prop)

/-- A whole run of a program, with steps of other parties between its calls: its result and the state it leaves. -/
inductive Amid : Prog Op Reply ε α → σ → Except ε α → σ → Prop where
  | done {result : Except ε α} {s t : σ} (hothers : Relation.ReflTransGen others s t) : Amid (.done result) s result t
  | call {op : Op} {next : Reply op → Prog Op Reply ε α} {s t u v : σ} {reply : Reply op} {result : Except ε α}
      (hothers : Relation.ReflTransGen others s t) (hact : act' op t reply u) (hrest : Amid (next reply) u result v) :
      Amid (.call op next) s result v

variable {act'} {others}

/-- Calls that always reply let a program come to its end. -/
theorem exists_amid (hact : ∀ op s, ∃ reply t, act' op s reply t) (p : Prog Op Reply ε α) (s : σ) :
    ∃ result t, Amid act' others p s result t := by
  induction p generalizing s with
  | done result => exact ⟨result, s, .done .refl⟩
  | call op next ih =>
      obtain ⟨reply, t, hreply⟩ := hact op s
      obtain ⟨result, u, hrest⟩ := ih reply t
      exact ⟨result, u, .call .refl hreply hrest⟩

/-- What the calls and the other parties keep, a run keeps. -/
theorem Amid.keeps {P : σ → Prop} (hact : ∀ op s reply t, P s → act' op s reply t → P t)
    (hothers : ∀ s t, P s → others s t → P t) {p : Prog Op Reply ε α} {s t : σ} {result : Except ε α}
    (h : Amid act' others p s result t) (hs : P s) : P t := by
  have hmany : ∀ s t, P s → Relation.ReflTransGen others s t → P t := by
    intro s t hs ht
    induction ht with
    | refl => exact hs
    | tail _ hstep ih => exact hothers _ _ ih hstep
  induction h with
  | done ht => exact hmany _ _ hs ht
  | call ht hreply _ ih => exact ih (hact _ _ _ _ (hmany _ _ hs ht) hreply)

/-- More calls and more steps make more runs. -/
theorem Amid.mono {act'' : (op : Op) → σ → Reply op → σ → Prop} {others' : σ → σ → Prop}
    (hact : ∀ op s reply t, act' op s reply t → act'' op s reply t) (hothers : ∀ s t, others s t → others' s t)
    {p : Prog Op Reply ε α} {s t : σ} {result : Except ε α} (h : Amid act' others p s result t) :
    Amid act'' others' p s result t := by
  induction h with
  | done ht => exact .done (Relation.ReflTransGen.mono hothers _ _ ht)
  | call ht hreply _ ih => exact .call (Relation.ReflTransGen.mono hothers _ _ ht) (hact _ _ _ _ hreply) ih

end amid

/-- **A run of a safe program** ends as its safety says. -/
theorem Safe.amid {others : σ → σ → Prop} (hothers : ∀ s t, others s t → ∃ j, j ≠ i ∧ G j s t) {p : Prog Op Reply ε α}
    {s t : σ} {result : Except ε α} (h : Safe act G i Q p s) (hrun : Amid (act i) others p s result t) : Q result t := by
  have hmany : ∀ s t, Relation.ReflTransGen others s t → Others G i s t := Relation.ReflTransGen.mono hothers
  induction hrun with
  | done ht => exact h _ (hmany _ _ ht)
  | call ht hreply _ ih => exact ih (h _ (hmany _ _ ht) _ _ hreply).2

/-! ### Results -/

/-- A fact that every party leaves true. -/
def Persistent (G : ι → σ → σ → Prop) (P : σ → Prop) : Prop := ∀ j s t, P s → G j s t → P t

lemma Persistent.stable {P : σ → Prop} (h : Persistent G P) : Stable G i P := fun j _ => h j

lemma Persistent.true : Persistent G fun _ => True := fun _ _ _ _ _ => trivial

lemma Persistent.others {P : σ → Prop} (h : Persistent G P) {s t : σ} (hs : P s) (ho : Others G i s t) : P t :=
  h.stable.others hs ho

/-- A safe program keeps persistent facts. -/
lemma Safe.frame {P : σ → Prop} (hP : Persistent G P) {p : Prog Op Reply ε α} {s : σ} (h : Safe act G i Q p s) (hs : P s) :
    Safe act G i (fun r t => Q r t ∧ P t) p s := by
  induction p generalizing s with
  | done result => exact fun t ht => ⟨h t ht, hP.others hs ht⟩
  | call op next ih =>
      intro t ht reply u hact
      obtain ⟨hg, hrest⟩ := h t ht reply u hact
      exact ⟨hg, ih reply hrest (hP i _ _ (hP.others hs ht) hg)⟩

/-- **Frame rule**: a safe program whose own calls keep a stable fact. -/
theorem Safe.frameCalls {A : Op → Prop} {P : σ → Prop} (hP : Stable G i P)
    (hA : ∀ op, A op → ∀ s reply t, P s → act i op s reply t → P t) {p : Prog Op Reply ε α} {s : σ}
    (h : Safe act G i Q p s) (hp : p.Calls A) (hs : P s) : Safe act G i (fun r t => Q r t ∧ P t) p s := by
  induction p generalizing s with
  | done result => exact fun t ht => ⟨h t ht, hP.others hs ht⟩
  | call op next ih =>
      intro t ht reply u hact
      obtain ⟨hg, hrest⟩ := h t ht reply u hact
      exact ⟨hg, ih reply hrest (hp.2 reply) (hA op hp.1 t reply u (hP.others hs ht) hact)⟩

/-- Calls that keep the guarantee in any state. -/
lemma Safe.of_calls {A : Op → Prop} (hA : ∀ op, A op → ∀ s reply t, act i op s reply t → G i s t) {p : Prog Op Reply ε α}
    (hp : p.Calls A) (s : σ) : Safe act G i (fun _ _ => True) p s := by
  induction p generalizing s with
  | done result => exact fun _ _ => trivial
  | call op next ih => exact fun t _ reply u hact => ⟨hA op hp.1 t reply u hact, ih reply (hp.2 reply) u⟩

/-- From a state with `P` the program is safe, and a value it returns satisfies `Φ`; `R` is known of every state. -/
def Ensures (act : ι → (op : Op) → σ → Reply op → σ → Prop) (G : ι → σ → σ → Prop) (R : σ → Prop) (i : ι) (P : σ → Prop)
    (p : Prog Op Reply ε α) (Φ : α → σ → Prop) : Prop :=
  ∀ s, R s → P s → Safe act G i (fun r t => ∀ a, r = .ok a → Φ a t) p s

variable {R P P' : σ → Prop} {Φ Φ' : α → σ → Prop} {Ψ : β → σ → Prop} {p : Prog Op Reply ε α}

lemma ensures_pure {a : α} (hstable : Stable G i (Φ a)) (h : ∀ s, P s → Φ a s) :
    Ensures act G R i P (pure a : Prog Op Reply ε α) Φ := by
  rintro s - hs t ht b ⟨⟩
  exact hstable.others (h s hs) ht

lemma ensures_raise {e : ε} : Ensures act G R i P (Prog.raise e : Prog Op Reply ε α) Φ := by
  rintro s - hs t ht b ⟨⟩

lemma Ensures.mono (h : Ensures act G R i P p Φ) (hP : ∀ s, P' s → P s) (hΦ : ∀ a s, Φ a s → Φ' a s) :
    Ensures act G R i P' p Φ' :=
  fun s hR hs => (h s hR (hP s hs)).mono fun _ _ hr a ha => hΦ a _ (hr a ha)

lemma Ensures.frame {P' : σ → Prop} (h : Ensures act G R i P p Φ) (hP' : Persistent G P') :
    Ensures act G R i (fun s => P s ∧ P' s) p fun a s => Φ a s ∧ P' s :=
  fun s hR hs => ((h s hR hs.1).frame hP' hs.2).mono fun _ _ hr a ha => ⟨hr.1 a ha, hr.2⟩

/-- **Frame rule**: a program whose own calls keep a stable fact. -/
lemma Ensures.frameCalls {A : Op → Prop} {P' : σ → Prop} (h : Ensures act G R i P p Φ) (hp : p.Calls A)
    (hP' : Stable G i P') (hA : ∀ op, A op → ∀ s reply t, P' s → act i op s reply t → P' t) :
    Ensures act G R i (fun s => P s ∧ P' s) p fun a s => Φ a s ∧ P' s :=
  fun s hR hs => ((h s hR hs.1).frameCalls hP' hA hp hs.2).mono fun _ _ hr a ha => ⟨hr.1 a ha, hr.2⟩

/-- **Sequence rule.** -/
theorem Ensures.bind {f : α → Prog Op Reply ε β} (hR : Persistent G R) (h : Ensures act G R i P p Φ)
    (hf : ∀ a, Ensures act G R i (Φ a) (f a) Ψ) : Ensures act G R i P (p >>= f) Ψ := by
  refine fun s hRs hs => Safe.andThen (((h s hRs hs).frame hR hRs).mono fun r t hr => ?_)
  cases r with
  | ok a => exact hf a t hr.2 (hr.1 a rfl)
  | error e => rintro u hu b ⟨⟩

/-- **Exception rule**: a handler starts in any state. -/
theorem Ensures.handle {f : ε → Prog Op Reply ε α} (hR : Persistent G R) (hΦ : ∀ a, Stable G i (Φ a))
    (h : Ensures act G R i P p Φ) (hf : ∀ e, Ensures act G R i (fun _ => True) (f e) Φ) :
    Ensures act G R i P (p.handle f) Φ := by
  refine fun s hRs hs => Safe.andThen (((h s hRs hs).frame hR hRs).mono fun r t hr => ?_)
  cases r with
  | ok a =>
      rintro u hu b ⟨⟩
      exact (hΦ a).others (hr.1 a rfl) hu
  | error e => exact hf e t hr.2 trivial

/-- **Cleanup rule.** -/
theorem Ensures.finally {c : Prog Op Reply ε Unit} (hR : Persistent G R) (hΦ : ∀ a, Persistent G (Φ a))
    (h : Ensures act G R i P p Φ) (hc : Ensures act G R i (fun _ => True) c fun _ _ => True) :
    Ensures act G R i P (p.finally_ c) Φ := by
  refine fun s hRs hs => Safe.andThen (((h s hRs hs).frame hR hRs).mono fun r t hr => Safe.andThen ?_)
  have hkeep : Persistent G fun u => ∀ a, r = .ok a → Φ a u :=
    fun j u v hu hg a ha => hΦ a j u v (hu a ha) hg
  refine ((hc t hr.2 trivial).frame hkeep hr.1).mono fun r' u hu => ?_
  cases r' with
  | ok b => exact fun v hv => hkeep.others hu.2 hv
  | error e => rintro v hv a ⟨⟩

end interference

/-! ## Pools -/

section pools

variable (Op : Type) (Reply : Op → Type) (ε α κ : Type) (σ : Type)

/-- The shared state and the programs that were started; `none`: the program crashed. -/
structure Pool where
  shared : σ
  threads : List (κ × Option (Prog Op Reply ε α))

/-- What happens next. -/
inductive PoolStep where
  | start (request : κ)
  | act (i : ℕ)
  | crash (i : ℕ)

variable {Op Reply ε α κ σ}

namespace Pool

variable (act : ℕ → (op : Op) → σ → Reply op → σ → Prop) (program : ℕ → κ → Prog Op Reply ε α) (s₀ : σ)

/-- Programs are started for requests, make their calls in any order, and crash. -/
inductive Step (pool : Pool Op Reply ε α κ σ) : PoolStep κ → Pool Op Reply ε α κ σ → Prop where
  | start (request : κ) : Step pool (.start request)
      { pool with threads := pool.threads ++ [(request, some (program pool.threads.length request))] }
  | act {i : ℕ} {request : κ} {op : Op} {next : Reply op → Prog Op Reply ε α} {reply : Reply op} {t : σ}
      (hthread : pool.threads[i]? = some (request, some (.call op next))) (hact : act i op pool.shared reply t) :
      Step pool (.act i) ⟨t, pool.threads.set i (request, some (next reply))⟩
  | crash {i : ℕ} {request : κ} {op : Op} {next : Reply op → Prog Op Reply ε α}
      (hthread : pool.threads[i]? = some (request, some (.call op next))) :
      Step pool (.crash i) { pool with threads := pool.threads.set i (request, none) }

/-- The system of the programs that start in a shared state. -/
def system : System (Pool Op Reply ε α κ σ) (PoolStep κ) where
  init pool := pool = ⟨s₀, []⟩
  step := Step act program

variable {act program s₀} {G : ℕ → σ → σ → Prop} {R : σ → Prop} {Q : ℕ → κ → Except ε α → σ → Prop}

/-- The shared state satisfies `R`, and every program is safe. -/
def AllSafe (act : ℕ → (op : Op) → σ → Reply op → σ → Prop) (G : ℕ → σ → σ → Prop) (R : σ → Prop)
    (Q : ℕ → κ → Except ε α → σ → Prop) (pool : Pool Op Reply ε α κ σ) : Prop :=
  R pool.shared ∧ ∀ i request p, pool.threads[i]? = some (request, some p) → Safe act G i (Q i request) p pool.shared

variable (hR : Persistent G R) (hprogram : ∀ i request s, R s → Safe act G i (Q i request) (program i request) s)

include hR hprogram

/-- A step keeps the programs safe, and is a step of the guarantee of one of them or changes nothing. -/
lemma Step.safe {pool pool' : Pool Op Reply ε α κ σ} {label : PoolStep κ} (h : Step act program pool label pool')
    (hsafe : AllSafe act G R Q pool) :
    AllSafe act G R Q pool' ∧ (pool'.shared = pool.shared ∨ ∃ i, G i pool.shared pool'.shared) := by
  obtain ⟨hshared, hsafe⟩ := hsafe
  cases h with
  | start request =>
      refine ⟨⟨hshared, fun i request' p hthread => ?_⟩, .inl rfl⟩
      rw [List.getElem?_append] at hthread
      split at hthread
      · exact hsafe i request' p hthread
      · rename_i hlen
        rw [List.getElem?_singleton] at hthread
        split at hthread
        · rename_i hzero
          cases hthread
          obtain rfl : i = pool.threads.length := by omega
          exact hprogram _ _ _ hshared
        · cases hthread
  | @act i request op next reply t hthread hact =>
      obtain ⟨hg, hnext⟩ := hsafe i request _ hthread pool.shared .refl reply t hact
      refine ⟨⟨hR i _ _ hshared hg, fun j request' p hj => ?_⟩, .inr ⟨i, hg⟩⟩
      rw [List.getElem?_set] at hj
      split at hj
      · rename_i hij
        subst hij
        split at hj
        · cases hj
          exact hnext
        · cases hj
      · rename_i hij
        exact (hsafe j request' p hj).step hij hg
  | @crash i request op next hthread =>
      refine ⟨⟨hshared, fun j request' p' hj => ?_⟩, .inl rfl⟩
      rw [List.getElem?_set] at hj
      split at hj
      · split at hj
        · cases hj
        · cases hj
      · exact hsafe j request' p' hj

/-- **Every program of a run is safe.** -/
theorem safe (hinit : R s₀) {pool : Pool Op Reply ε α κ σ} (h : (system act program s₀).Reachable pool) :
    AllSafe act G R Q pool := by
  refine h.invariant (I := AllSafe act G R Q) ?_ fun _ _ _ hs hstep => (hstep.safe hR hprogram hs).1
  rintro _ rfl
  refine ⟨hinit, fun i request p hthread => ?_⟩
  cases hthread

/-- **What the guarantees keep, a run keeps.** -/
theorem persists (hinit : R s₀) {P : σ → Prop} (hP : Persistent G P) {pool pool' : Pool Op Reply ε α κ σ}
    {tr : List (PoolStep κ × Pool Op Reply ε α κ σ)} (h : (system act program s₀).Reachable pool)
    (hrun : (system act program s₀).Run pool tr pool') (hpool : P pool.shared) : P pool'.shared := by
  have hboth : AllSafe act G R Q pool' ∧ P pool'.shared := by
    refine hrun.invariant (I := fun pool => AllSafe act G R Q pool ∧ P pool.shared) (fun s label t hs hstep => ?_)
      ⟨safe hR hprogram hinit h, hpool⟩
    obtain ⟨hsafe, hsame | ⟨i, hg⟩⟩ := hstep.safe hR hprogram hs.1
    · exact ⟨hsafe, hsame ▸ hs.2⟩
    · exact ⟨hsafe, hP i _ _ hs.2 hg⟩
  exact hboth.2

omit hR hprogram in
/-- What a program has and hands down to the rest of it, a thread keeps. -/
lemma Step.inherits {H : κ → Prog Op Reply ε α → Prop}
    (hnext : ∀ request op (next : Reply op → Prog Op Reply ε α), H request (.call op next) →
      ∀ reply, H request (next reply)) {pool pool' : Pool Op Reply ε α κ σ} {label : PoolStep κ} {i : ℕ}
    (h : Step act program pool label pool') (hi : i < pool.threads.length)
    (hH : ∀ request p, pool.threads[i]? = some (request, some p) → H request p) :
    i < pool'.threads.length ∧ ∀ request p, pool'.threads[i]? = some (request, some p) → H request p := by
  cases h with
  | start request =>
      refine ⟨by simp only [List.length_append]; omega, fun request' p hp => ?_⟩
      rw [List.getElem?_append_left hi] at hp
      exact hH request' p hp
  | @act j request op next reply t hthread hact =>
      refine ⟨by simpa using hi, fun request' p hp => ?_⟩
      rw [List.getElem?_set] at hp
      split at hp
      · rename_i hij
        subst hij
        rw [if_pos hi] at hp
        cases hp
        exact hnext request op next (hH request _ hthread) reply
      · exact hH request' p hp
  | @crash j request op next hthread =>
      refine ⟨by simpa using hi, fun request' p hp => ?_⟩
      rw [List.getElem?_set] at hp
      split at hp
      · split at hp
        · cases hp
        · cases hp
      · exact hH request' p hp

omit hR hprogram in
/-- It keeps it along a run. -/
lemma run_inherits {H : κ → Prog Op Reply ε α → Prop}
    (hnext : ∀ request op (next : Reply op → Prog Op Reply ε α), H request (.call op next) →
      ∀ reply, H request (next reply)) {pool pool' : Pool Op Reply ε α κ σ} {tr : List (PoolStep κ × Pool Op Reply ε α κ σ)}
    {i : ℕ} (h : (system act program s₀).Run pool tr pool') (hi : i < pool.threads.length)
    (hH : ∀ request p, pool.threads[i]? = some (request, some p) → H request p) :
    ∀ request p, pool'.threads[i]? = some (request, some p) → H request p := by
  have hboth := h.invariant (I := fun pool => i < pool.threads.length ∧
    ∀ request p, pool.threads[i]? = some (request, some p) → H request p)
    (fun s label t hs hstep => Step.inherits hnext hstep hs.1 hs.2) ⟨hi, hH⟩
  exact hboth.2

omit hR hprogram in
/-- What the programs have and hand down, every thread has. -/
theorem reachable_inherits {H : κ → Prog Op Reply ε α → Prop} (hprogram : ∀ i request, H request (program i request))
    (hnext : ∀ request op (next : Reply op → Prog Op Reply ε α), H request (.call op next) →
      ∀ reply, H request (next reply)) {pool : Pool Op Reply ε α κ σ} (h : (system act program s₀).Reachable pool) :
    ∀ (i : ℕ) request p, pool.threads[i]? = some (request, some p) → H request p := by
  refine h.invariant (I := fun pool => ∀ (i : ℕ) request p, pool.threads[i]? = some (request, some p) → H request p) ?_ ?_
  · rintro _ rfl i request p hp
    cases hp
  · intro s label t hs hstep i
    by_cases hi : i < s.threads.length
    · exact (Step.inherits hnext hstep hi (hs i)).2
    · intro request p hp
      cases hstep with
      | start request' =>
          rw [List.getElem?_append_right (Nat.le_of_not_lt hi), List.getElem?_singleton] at hp
          split at hp
          · cases hp
            exact hprogram _ _
          · cases hp
      | act hthread hact =>
          rw [List.getElem?_eq_none (by simpa using hi)] at hp
          cases hp
      | crash hthread =>
          rw [List.getElem?_eq_none (by simpa using hi)] at hp
          cases hp

omit hR hprogram in
/-- A program that was started can go on alone to its end. -/
theorem reachable_alone {perform : (op : Op) → σ → Reply op × σ}
    {i : ℕ} (hact : ∀ op s, act i op s (perform op s).1 (perform op s).2) {request : κ} {p : Prog Op Reply ε α}
    {pool : Pool Op Reply ε α κ σ} (h : (system act program s₀).Reachable pool)
    (hthread : pool.threads[i]? = some (request, some p)) :
    (system act program s₀).Reachable ⟨(p.run perform pool.shared).2,
      pool.threads.set i (request, some (.done (p.run perform pool.shared).1))⟩ := by
  induction p generalizing pool with
  | done result =>
      obtain ⟨hlt, hget⟩ := List.getElem?_eq_some_iff.mp hthread
      rw [Prog.run_done, ← hget, List.set_getElem_self]
      exact h
  | call op next ih =>
      have hlt := (List.getElem?_eq_some_iff.mp hthread).1
      have hnext := ih _ (h.step (Step.act hthread (hact op pool.shared)))
        (List.getElem?_set_self (a := (request, some (next (perform op pool.shared).1))) hlt)
      rw [List.set_set] at hnext
      exact hnext

end Pool

end pools

end MuStrategy.Lib
