import Mathlib.Logic.Function.Basic

/-!
# Guarded runs of a partial step function

A system is given by its initial states and a partial, labelled step function
`step : σ → α → Option σ`.  An interleaving of several tasks is such a system:
a label names the task that goes on and what the outside world answered it.

`Reach init step ok` are the states reached by runs whose **every** step
satisfies the guard `ok` in the state it starts from.  With the trivial guard
these are all reachable states; a nontrivial guard singles out the runs that
never take a certain branch.  `Reach.invariant` is the one induction on runs
that later modules use: what holds at the start and survives each guarded step
holds in every state of every guarded run.  `exec` runs a list of labels, so
that a concrete run can be evaluated; with `guarded` it also tests the guard.
-/

namespace Runs

variable {σ α : Type*}

/-- The states reached by runs all of whose steps satisfy `ok`. -/
inductive Reach (init : σ → Prop) (step : σ → α → Option σ) (ok : σ → α → Prop) : σ → Prop
  | start {s : σ} (h : init s) : Reach init step ok s
  | next {s s' : σ} {a : α} (before : Reach init step ok s) (hok : ok s a)
      (hstep : step s a = some s') : Reach init step ok s'

/-- The guard that every step satisfies. -/
def always : σ → α → Prop := fun _ _ => True

/-- All reachable states: no condition on the steps. -/
abbrev Reachable (init : σ → Prop) (step : σ → α → Option σ) : σ → Prop :=
  Reach init step always

variable {init : σ → Prop} {step : σ → α → Option σ} {ok ok' : σ → α → Prop}

/-- **Invariant rule.**  A property of the initial states that every guarded
step preserves holds in every state of every guarded run. -/
theorem Reach.invariant {I : σ → Prop} (hinit : ∀ s, init s → I s)
    (hpres : ∀ s a s', I s → ok s a → step s a = some s' → I s')
    {s : σ} (h : Reach init step ok s) : I s := by
  induction h with
  | start h => exact hinit _ h
  | next _ hok hstep ih => exact hpres _ _ _ ih hok hstep

/-- A weaker guard admits more runs. -/
theorem Reach.mono (himp : ∀ s a, ok s a → ok' s a) {s : σ}
    (h : Reach init step ok s) : Reach init step ok' s := by
  induction h with
  | start h => exact .start h
  | next _ hok hstep ih => exact .next ih (himp _ _ hok) hstep

/-- **Projection rule.**  If a map takes initial states to initial ones and each
guarded step to a guarded step of another system, or to none at all, it takes what
guarded runs reach to what guarded runs of the other system reach. -/
theorem Reach.project {τ β : Type*} {init' : τ → Prop} {step' : τ → β → Option τ}
    {okb : τ → β → Prop} (f : σ → τ) (hinit : ∀ s, init s → init' (f s))
    (hmap : ∀ s a s', ok s a → step s a = some s' →
      f s' = f s ∨ ∃ b, okb (f s) b ∧ step' (f s) b = some (f s'))
    {s : σ} (h : Reach init step ok s) : Reach init' step' okb (f s) := by
  induction h with
  | start h => exact .start (hinit _ h)
  | next _ hok hstep ih =>
      rcases hmap _ _ _ hok hstep with heq | ⟨b, hb, hstepb⟩
      · rw [heq]
        exact ih
      · exact .next ih hb hstepb

/-- A guard may be strengthened by an invariant it already maintains. -/
theorem Reach.strengthen {I : σ → Prop} (hinit : ∀ s, init s → I s)
    (hpres : ∀ s a s', I s → ok s a → step s a = some s' → I s')
    {s : σ} (h : Reach init step ok s) :
    Reach init step (fun s a => ok s a ∧ I s) s ∧ I s := by
  induction h with
  | start h => exact ⟨.start h, hinit _ h⟩
  | next _ hok hstep ih =>
      exact ⟨.next ih.1 ⟨hok, ih.2⟩ hstep, hpres _ _ _ ih.2 hok hstep⟩

/-! ### From one state on -/

/-- A guarded run leads from `s` to another state. -/
abbrev Leads (step : σ → α → Option σ) (ok : σ → α → Prop) (s : σ) : σ → Prop :=
  Reach (fun x => x = s) step ok

theorem Leads.refl (s : σ) : Leads step ok s s := .start rfl

theorem Leads.single {s s' : σ} {a : α} (hok : ok s a) (hstep : step s a = some s') :
    Leads step ok s s' := .next (.start rfl) hok hstep

/-- A run goes on. -/
theorem Reach.leads {s s' : σ} (h : Reach init step ok s) (hrest : Leads step ok s s') :
    Reach init step ok s' := by
  induction hrest with
  | start heq =>
      subst heq
      exact h
  | next _ hok hstep ih => exact .next ih hok hstep

/-- **One after the other.**  If from every state with `I` a run leads to a state where
`P k` holds, `I` still does and no `P j` is lost, then a run leads to a state where `P`
holds of all numbers below a bound. -/
theorem Leads.all {I : σ → Prop} {P : Nat → σ → Prop}
    (hone : ∀ k s, I s → ∃ s', Leads step ok s s' ∧ I s' ∧ P k s' ∧ ∀ j, P j s → P j s')
    (bound : Nat) {s : σ} (h : I s) :
    ∃ s', Leads step ok s s' ∧ I s' ∧ ∀ k, k < bound → P k s' := by
  induction bound with
  | zero => exact ⟨s, .refl s, h, fun k hk => absurd hk (Nat.not_lt_zero k)⟩
  | succ bound ih =>
      obtain ⟨m, hm, hI, hbelow⟩ := ih
      obtain ⟨s', hs', hI', hlast, hkept⟩ := hone bound m hI
      refine ⟨s', Reach.leads hm hs', hI', fun k hk => ?_⟩
      rcases Nat.lt_succ_iff_lt_or_eq.mp hk with hk | rfl
      · exact hkept k (hbelow k hk)
      · exact hlast

/-- Run a list of labels; `none` when some label is not enabled. -/
def exec (step : σ → α → Option σ) : List α → σ → Option σ
  | [], s => some s
  | a :: as, s => (step s a).bind (exec step as)

@[simp] theorem exec_nil (s : σ) : exec step [] s = some s := rfl

theorem exec_cons_of_step {a : α} {as : List α} {s m s' : σ} (hstep : step s a = some m)
    (has : exec step as m = some s') : exec step (a :: as) s = some s' :=
  Option.bind_eq_some_iff.mpr ⟨m, hstep, has⟩

theorem exec_append {as bs : List α} {s m s' : σ} (has : exec step as s = some m)
    (hbs : exec step bs m = some s') : exec step (as ++ bs) s = some s' := by
  induction as generalizing s with
  | nil =>
      obtain rfl : s = m := by simpa using has
      exact hbs
  | cons a as ih =>
      obtain ⟨n, hn, hrest⟩ := Option.bind_eq_some_iff.mp has
      exact exec_cons_of_step hn (ih hrest)

/-- What every step preserves is preserved by a run. -/
theorem exec_invariant {I : σ → Prop} (hpres : ∀ s a s', I s → step s a = some s' → I s')
    (as : List α) {s s' : σ} (h : I s) (hrun : Runs.exec step as s = some s') : I s' := by
  induction as generalizing s with
  | nil =>
      obtain rfl : s = s' := by simpa using hrun
      exact h
  | cons a as ih =>
      obtain ⟨m, hm, hrest⟩ := Option.bind_eq_some_iff.mp hrun
      exact ih (hpres _ _ _ h hm) hrest

/-- What `exec` reaches from a reachable state is reachable. -/
theorem Reach.exec (as : List α) {s s' : σ} (h : Reachable init step s)
    (hrun : Runs.exec step as s = some s') : Reachable init step s' :=
  exec_invariant (fun _ _ _ hs hstep => .next hs trivial hstep) as h hrun

/-- **Fate rule.**  If labels that satisfy `K` keep a good state (`G`) good, any other label
spoils it (`B`), and what is spoilt stays so, then a run ends well if and only if all its
labels satisfy `K`. -/
theorem exec_fate {G B : σ → Prop} {K : α → Prop}
    (hgood : ∀ s a s', G s → step s a = some s' → K a → G s')
    (hspoil : ∀ s a s', G s → step s a = some s' → ¬ K a → B s')
    (hbad : ∀ s a s', B s → step s a = some s' → B s') (as : List α) {s s' : σ}
    (h : G s) (hrun : Runs.exec step as s = some s') :
    ((∀ a ∈ as, K a) ∧ G s') ∨ ((¬ ∀ a ∈ as, K a) ∧ B s') := by
  induction as generalizing s with
  | nil =>
      obtain rfl : s = s' := by simpa using hrun
      exact Or.inl ⟨by simp, h⟩
  | cons a as ih =>
      obtain ⟨m, hm, hrest⟩ := Option.bind_eq_some_iff.mp hrun
      by_cases hok : K a
      · rcases ih (hgood _ _ _ h hm hok) hrest with ⟨hall, hgood'⟩ | ⟨hnot, hbad'⟩
        · exact Or.inl ⟨by simpa using ⟨hok, hall⟩, hgood'⟩
        · exact Or.inr ⟨fun hall => hnot fun b hb => hall b (List.mem_cons_of_mem a hb), hbad'⟩
      · have hspoilt := exec_invariant hbad as (hspoil _ _ _ h hm hok) hrest
        exact Or.inr ⟨fun hall => hok (hall a List.mem_cons_self), hspoilt⟩

/-- The step function that refuses what the guard excludes. -/
def guarded (step : σ → α → Option σ) (ok : σ → α → Bool) (s : σ) (a : α) : Option σ :=
  if ok s a then step s a else none

/-- What `exec` reaches with the guard tested at every step is reached by a
guarded run. -/
theorem Reach.execGuarded {ok : σ → α → Bool} (as : List α) {s s' : σ}
    (h : Reach init step (fun s a => ok s a) s)
    (hrun : Runs.exec (guarded step ok) as s = some s') :
    Reach init step (fun s a => ok s a) s' := by
  apply exec_invariant (I := Reach init step fun s a => ok s a) ?_ as h hrun
  intro s a s' hs hguarded
  obtain ⟨hok, hstep⟩ := Option.ite_none_right_eq_some.mp hguarded
  exact .next hs hok hstep

end Runs
