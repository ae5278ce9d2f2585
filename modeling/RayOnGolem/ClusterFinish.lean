import RayOnGolem.ClusterIds

/-!
# How a stop comes to its end

A `Cluster.stop` awaits the `stop()` of nodes, then that of stacks, then that of the payment
manager.  When none of these raises, and the stop finds no node that somebody else left
behind, it can always go on: the steps that take it to its last await are `finishing`.

Main results, for a stop in progress that is `Sound`:

* `finish_nodes`, `finish_stacks` -- it gets past its nodes and past its stacks, and what
  it went through is stopped then;
* `finish` -- it gets to its last await, with no node being stopped any more.

The dictionaries and the stops refer to objects that exist in every reachable state
(`known_of_reach`).
-/

/-- The node's own `stop()` raised: it is terminating, and nobody stops it. -/
def NodeView.Abandoned (v : NodeView) : Prop := v.state = .terminating ∧ v.stopping = none

/-- What a node becomes while stops come to their end. -/
structure NodeView.Ends (v w : NodeView) : Prop where
  live : w.state.live = true → v.state.live = true
  terminated : v.state = .terminated → w.state = .terminated
  abandoned : w.Abandoned → v.Abandoned

theorem NodeView.Ends.refl (v : NodeView) : v.Ends v := ⟨id, id, id⟩

theorem NodeView.Ends.trans {u v w : NodeView} (h : u.Ends v) (h' : v.Ends w) : u.Ends w :=
  ⟨fun hw => h.live (h'.live hw), fun hu => h'.terminated (h.terminated hu),
    fun hw => h.abandoned (h'.abandoned hw)⟩

theorem NodeView.ends_stop (v : NodeView) : v.Ends (v.stop false) := by
  unfold NodeView.stop
  split
  · rename_i hlive
    refine ⟨fun h => absurd h (by simp), fun h => ?_, fun h => absurd h.2 (by simp)⟩
    rw [h] at hlive
    cases hlive
  · exact .refl v

/-- A node that nobody stops, was not left behind and is not live is terminated. -/
theorem NodeView.terminated_of {v : NodeView} (hstopping : v.stopping = none)
    (habandoned : ¬ v.Abandoned) (hlive : v.state.live = false) : v.state = .terminated := by
  cases hst : v.state with
  | pending => simp [hst] at hlive
  | running => simp [hst] at hlive
  | terminating => exact absurd ⟨hst, hstopping⟩ habandoned
  | terminated => rfl

namespace ManagerStack

/-- The stop loop goes through the managers, or went through all of them. -/
def Halting (m : ManagerStack) : Prop := m.stopLoop.inProgress = true ∨ m.stopLoop = .returned

/-- A stack that was started before, and that a `stop()` stops for good. -/
structure Stoppable (m : ManagerStack) : Prop where
  started : m.startLoop.inProgress = false
  running : m.isRunning = true → m.stopLoop.inProgress = false
  stopping : ∀ i, m.stopLoop = .at i →
    i < m.started.length ∧ ∀ j : Nat, i < j → m.started[j]? ≠ some true
  halted : m.isRunning = false → m.stopLoop.inProgress = false →
    ∀ j : Nat, m.started[j]? ≠ some true

theorem Stoppable.stop {m : ManagerStack} (h : m.Stoppable) : m.stop.Stoppable := by
  unfold ManagerStack.stop
  split
  · refine ⟨h.started, fun hrun => absurd hrun (by simp), fun i hi => ?_, fun _ hidle j => ?_⟩
    · dsimp only at hi
      split at hi
      · cases hi
      · obtain rfl := Loop.at.inj hi
        refine ⟨?_, fun j hj => by simp [show m.started.length ≤ j by omega]⟩
        show m.started.length - 1 < m.started.length
        omega
    · dsimp only at hidle
      split at hidle
      · rename_i hlen
        simp [show m.started.length ≤ j by omega]
      · cases hidle
  · exact h

theorem Stoppable.managerStopped {m m' : ManagerStack} (h : m.Stoppable)
    (hs : m.managerStopped = some m') : m'.Stoppable := by
  have hstopped : ∀ i, m.stopLoop = .at i → ∀ j : Nat, i ≤ j →
      (m.started.set i false)[j]? ≠ some true := by
    intro i hi j hj
    obtain ⟨hlt, habove⟩ := h.stopping i hi
    rcases Nat.lt_or_eq_of_le hj with hj | rfl
    · rw [List.getElem?_set_ne (by omega)]
      exact habove j hj
    · simp [hlt]
  unfold ManagerStack.managerStopped at hs
  split at hs
  · rename_i hi
    obtain rfl := Option.some.inj hs
    exact ⟨h.started, fun _ => rfl, fun i hc => (by cases hc), fun _ _ j =>
      hstopped 0 hi j (Nat.zero_le j)⟩
  · rename_i i hi
    obtain rfl := Option.some.inj hs
    have hlt := (h.stopping _ hi).1
    refine ⟨h.started, fun hrun => ?_, fun k hk => ?_, fun _ hidle => (by cases hidle)⟩
    · have hidle := h.running hrun
      rw [hi] at hidle
      cases hidle
    · obtain rfl := Loop.at.inj hk
      exact ⟨by simpa using by omega, fun j hj => hstopped _ hi j (by omega)⟩
  · cases hs

/-- Such a stack is stopped when no loop goes on and it does not run. -/
theorem Stoppable.stopped {m : ManagerStack} (h : m.Stoppable) (hrunning : m.isRunning = false)
    (hidle : m.stopLoop.inProgress = false) : m.Stopped := by
  refine ⟨hrunning, h.started, hidle, fun b hb => ?_⟩
  obtain ⟨j, hj⟩ := List.mem_iff_getElem?.mp hb
  cases b with
  | true => exact absurd hj (h.halted hrunning hidle j)
  | false => rfl

theorem Stopped.stoppable {m : ManagerStack} (h : m.Stopped) : m.Stoppable := by
  obtain ⟨hrunning, hstart, hidle, hall⟩ := h
  refine ⟨hstart, fun hrun => ?_, fun i hi => ?_, fun _ _ j hj => ?_⟩
  · rw [hrunning] at hrun
    cases hrun
  · rw [hi] at hidle
    cases hidle
  · exact absurd (hall true (List.mem_of_getElem? hj)) (by simp)

/-- What a stack becomes while stops come to their end. -/
structure Ends (m w : ManagerStack) : Prop where
  isRunning : m.isRunning = false → w.isRunning = false
  halting : m.Halting → w.Halting
  stoppable : m.Stoppable → w.Stoppable

theorem Ends.refl (m : ManagerStack) : m.Ends m := ⟨id, id, id⟩

theorem Ends.trans {m w u : ManagerStack} (h : m.Ends w) (h' : w.Ends u) : m.Ends u :=
  ⟨fun hm => h'.isRunning (h.isRunning hm), fun hm => h'.halting (h.halting hm),
    fun hm => h'.stoppable (h.stoppable hm)⟩

theorem halting_stop {m : ManagerStack} (hrunning : m.isRunning = true) : m.stop.Halting := by
  rw [ManagerStack.stop, if_pos hrunning]
  by_cases hlen : m.started.length = 0
  · exact .inr (if_pos hlen)
  · left
    show Loop.inProgress (if _ then _ else _) = true
    rw [if_neg hlen]
    rfl

theorem isRunning_stop (m : ManagerStack) : m.stop.isRunning = false := by
  cases hrunning : m.isRunning <;> simp [ManagerStack.stop, hrunning]

theorem ends_stop (m : ManagerStack) : m.Ends m.stop := by
  refine ⟨fun _ => m.isRunning_stop, fun hm => ?_, Stoppable.stop⟩
  cases hrunning : m.isRunning with
  | true => exact halting_stop hrunning
  | false =>
      rw [ManagerStack.stop, if_neg (by simp [hrunning])]
      exact hm

theorem ends_managerStopped {m w : ManagerStack} (h : m.managerStopped = some w) : m.Ends w := by
  refine ⟨fun hm => ?_, fun _ => ?_, fun hm => hm.managerStopped h⟩
  · unfold ManagerStack.managerStopped at h
    split at h <;> cases h <;> exact hm
  · unfold ManagerStack.managerStopped at h
    split at h <;> cases h
    · exact .inr rfl
    · exact .inl rfl

theorem frame_managerStarted {m w : ManagerStack} (h : m.managerStarted = some w) :
    w.stopLoop = m.stopLoop ∧ w.isRunning = m.isRunning := by
  unfold ManagerStack.managerStarted at h
  split at h <;> cases h
  exact ⟨rfl, rfl⟩

theorem frame_managerStartRaised {m w : ManagerStack} (h : m.managerStartRaised = some w) :
    w.stopLoop = m.stopLoop ∧ w.isRunning = m.isRunning := by
  unfold ManagerStack.managerStartRaised at h
  split at h <;> cases h
  exact ⟨rfl, rfl⟩

theorem frame_managerStopped {m w : ManagerStack} (h : m.managerStopped = some w) :
    w.stopLoop ≠ .notCalled ∧ w.isRunning = m.isRunning := by
  unfold ManagerStack.managerStopped at h
  split at h <;> cases h <;> exact ⟨by simp, rfl⟩

theorem frame_managerStopRaised {m w : ManagerStack} (h : m.managerStopRaised = some w) :
    w.stopLoop ≠ .notCalled ∧ w.isRunning = m.isRunning := by
  unfold ManagerStack.managerStopRaised at h
  split at h <;> cases h
  exact ⟨by simp, rfl⟩

end ManagerStack

namespace Cluster

open Runs

variable {digest : NodeConfigData → String} {s s' s'' : Cluster} {a : Act} {i : Nat} {ce : Bool}
  {todo busy : List Nat}

/-- The next node of a `stop()` is already being stopped. -/
def findsTerminating (s : Cluster) : Act → Bool
  | .stopping i .node =>
      match (s.stops[i]?).map StopRun.pc with
      | some (.nodes (n :: _) _) => (s.allNodes[n]?).map NodeView.state == some .terminating
      | _ => false
  | _ => false

/-- The steps of a stop before its last await, and of what it awaits, that raise nothing and
find no node that somebody else is stopping. -/
def finishing (s : Cluster) : Act → Bool
  | .stopping i .node => !s.findsTerminating (.stopping i .node)
  | .stopping _ .nodesDone => true
  | .stopping _ .stack => true
  | .stopping _ .stacksDone => true
  | .node _ .stopped => true
  | .stack _ .managerStopped => true
  | _ => false

/-- A run of such steps. -/
abbrev FinishesTo (digest : NodeConfigData → String) : Cluster → Cluster → Prop :=
  Leads (step digest) fun s a => finishing s a

/-- What such a run leaves as it is. -/
structure Kept (s s' : Cluster) : Prop where
  state : s'.state = s.state
  payment : s'.paymentStarted = s.paymentStarted
  nodes : s'.nodes = s.nodes
  managerStacks : s'.managerStacks = s.managerStacks
  calls : s'.calls = s.calls
  nodesLength : s'.allNodes.length = s.allNodes.length
  stacksLength : s'.allStacks.length = s.allStacks.length
  node : ∀ (n : Nat) (v : NodeView), s.allNodes[n]? = some v →
    ∃ w, s'.allNodes[n]? = some w ∧ v.Ends w
  stack : ∀ (r : Nat) (m : ManagerStack), s.allStacks[r]? = some m →
    ∃ w, s'.allStacks[r]? = some w ∧ m.Ends w

theorem Kept.refl (s : Cluster) : Kept s s :=
  ⟨rfl, rfl, rfl, rfl, rfl, rfl, rfl, fun _ v hv => ⟨v, hv, .refl v⟩,
    fun _ m hm => ⟨m, hm, .refl m⟩⟩

theorem Kept.trans (h : Kept s s') (h' : Kept s' s'') : Kept s s'' := by
  refine ⟨h'.state.trans h.state, h'.payment.trans h.payment, h'.nodes.trans h.nodes,
    h'.managerStacks.trans h.managerStacks, h'.calls.trans h.calls,
    h'.nodesLength.trans h.nodesLength, h'.stacksLength.trans h.stacksLength, ?_, ?_⟩
  · intro n v hv
    obtain ⟨w, hw, hvw⟩ := h.node n v hv
    obtain ⟨u, hu, hwu⟩ := h'.node n w hw
    exact ⟨u, hu, hvw.trans hwu⟩
  · intro r m hm
    obtain ⟨w, hw, hmw⟩ := h.stack r m hm
    obtain ⟨u, hu, hwu⟩ := h'.stack r w hw
    exact ⟨u, hu, hmw.trans hwu⟩

/-- Only the stops change. -/
theorem Kept.setStops (s : Cluster) (stops : List StopRun) : Kept s { s with stops := stops } :=
  ⟨rfl, rfl, rfl, rfl, rfl, rfl, rfl, fun _ v hv => ⟨v, hv, .refl v⟩,
    fun _ m hm => ⟨m, hm, .refl m⟩⟩

/-- One node changes, and the stops and callbacks. -/
theorem Kept.setNode {n : Nat} {v w : NodeView} (hv : s.allNodes[n]? = some v) (hw : v.Ends w)
    (stops : List StopRun) (events : List Nat) :
    Kept s { s with allNodes := s.allNodes.set n w, stops := stops, events := events } :=
  ⟨rfl, rfl, rfl, rfl, rfl, List.length_set, rfl,
    fun _ _ hu => Objects.kept_of_set NodeView.Ends.refl hv hw hu, fun _ m hm => ⟨m, hm, .refl m⟩⟩

/-- One stack changes, and the stops. -/
theorem Kept.setStack {r : Nat} {m w : ManagerStack} (hm : s.allStacks[r]? = some m)
    (hw : m.Ends w) (stops : List StopRun) :
    Kept s { s with allStacks := s.allStacks.set r w, stops := stops } :=
  ⟨rfl, rfl, rfl, rfl, rfl, rfl, List.length_set, fun _ v hv => ⟨v, hv, .refl v⟩,
    fun _ _ hu => Objects.kept_of_set ManagerStack.Ends.refl hm hw hu⟩

/-- **A finishing step** keeps all this. -/
theorem Step.kept (hs : Step digest s a s') (hok : finishing s a = true) : Kept s s' := by
  cases hs with
  | stopsNode i n σ todo busy v hσ hpc hv => exact .setNode hv v.ends_stop _ _
  | nodesDone i σ busy hσ hpc => exact .setStops s _
  | stopsStack i r σ todo busy m hσ hpc hm => exact .setStack hm m.ends_stop _
  | stacksDone i σ busy hσ hpc => exact .setStops s _
  | nodeStopped n v ce hv hstopping =>
      have hends : v.Ends { v with state := .terminated, stopping := none } :=
        ⟨fun h => absurd h (by simp), fun _ => rfl, fun h => absurd h.1 (by simp)⟩
      exact .setNode hv hends _ _
  | managerStopped r m m' hm hm' => exact .setStack hm (ManagerStack.ends_managerStopped hm') _
  | _ => cases hok

theorem FinishesTo.kept (h : FinishesTo digest s s') : Kept s s' := by
  refine Reach.invariant (I := Kept s) ?_ ?_ h
  · rintro _ rfl
    exact .refl _
  · intro x b y hx hok hstep
    exact hx.trans ((step_cases hstep).kept hok)

/-- A finishing step. -/
theorem FinishesTo.single (hok : finishing s a = true) (hstep : s.step digest a = some s') :
    FinishesTo digest s s' :=
  Leads.single hok hstep

/-! ### Nobody is left to wait for -/

/-- Nobody is stopping node `n`. -/
def NodeQuiet (n : Nat) (s : Cluster) : Prop :=
  ∀ v, s.allNodes[n]? = some v → v.stopping = none

/-- The stop loop of stack `r` does not go on. -/
def StackQuiet (r : Nat) (s : Cluster) : Prop :=
  ∀ m, s.allStacks[r]? = some m → m.stopLoop.inProgress = false

/-- The `stop()` of node `n` returns. -/
theorem quiet_node (digest : NodeConfigData → String) (n : Nat) (s : Cluster) :
    ∃ s', FinishesTo digest s s' ∧ s'.stops = s.stops ∧ NodeQuiet n s' ∧
      ∀ k, NodeQuiet k s → NodeQuiet k s' := by
  by_cases hbusy : ∃ v, s.allNodes[n]? = some v ∧ v.stopping ≠ none
  · obtain ⟨v, hv, hne⟩ := hbusy
    obtain ⟨ce, hce⟩ := Option.ne_none_iff_exists'.mp hne
    have hquiet : ∀ {k : Nat} {u : NodeView}, (s.allNodes.set n
        { v with state := .terminated, stopping := none })[k]? = some u →
        (k ≠ n → NodeQuiet k s) → u.stopping = none := by
      intro k u hu hold
      rcases Objects.set_cases hu with ⟨-, rfl, -⟩ | ⟨hkn, hu⟩
      · rfl
      · exact hold hkn u hu
    have hstep : s.step digest (.node n .stopped) = some { s with
        events := if v.stopping = some true then s.events ++ [n] else s.events
        allNodes := s.allNodes.set n { v with state := .terminated, stopping := none } } := by
      simp only [step, hv, stepNode, NodeView.stopped, hce, Option.map_some]
      rfl
    exact ⟨_, .single rfl hstep, rfl, fun u hu => hquiet hu fun hne => absurd rfl hne,
      fun k hk u hu => hquiet hu fun _ => hk⟩
  · refine ⟨s, .refl s, rfl, fun v hv => ?_, fun _ hk => hk⟩
    by_contra hne
    exact hbusy ⟨v, hv, hne⟩

/-- **The stops of all nodes return.** -/
theorem quiet_nodes (digest : NodeConfigData → String) (s : Cluster) :
    ∃ s', FinishesTo digest s s' ∧ s'.stops = s.stops ∧ ∀ n, NodeQuiet n s' := by
  have hone : ∀ k x, x.stops = s.stops → ∃ x', FinishesTo digest x x' ∧ x'.stops = s.stops ∧
      NodeQuiet k x' ∧ ∀ j, NodeQuiet j x → NodeQuiet j x' := by
    intro k x hx
    obtain ⟨x', hrun, hstops, hquiet⟩ := quiet_node digest k x
    exact ⟨x', hrun, hstops.trans hx, hquiet⟩
  obtain ⟨s', hs', hstops, hquiet⟩ := Leads.all hone s.allNodes.length rfl
  refine ⟨s', hs', hstops, fun n v hv => hquiet n ?_ v hv⟩
  rw [← (FinishesTo.kept hs').nodesLength]
  exact (List.getElem?_eq_some_iff.mp hv).1

/-- The stop loop of stack `r` goes through its managers. -/
theorem loop_returns {r k : Nat} {m : ManagerStack} (hm : s.allStacks[r]? = some m)
    (hk : m.stopLoop = .at k) :
    ∃ w, w.stopLoop = .returned ∧ FinishesTo digest s (s.setStack r w) := by
  induction k generalizing s m with
  | zero =>
      have hstopped : m.managerStopped =
          some { m with started := m.started.set 0 false, stopLoop := .returned } := by
        rw [ManagerStack.managerStopped, hk]
      refine ⟨{ m with started := m.started.set 0 false, stopLoop := .returned }, rfl,
        .single (a := .stack r .managerStopped) rfl ?_⟩
      simp only [step, hm, stepStack, hstopped, Option.map_some]
  | succ k ih =>
      have hstopped : m.managerStopped =
          some { m with started := m.started.set (k + 1) false, stopLoop := .at k } := by
        rw [ManagerStack.managerStopped, hk]
      have hone : FinishesTo digest s (s.setStack r
          { m with started := m.started.set (k + 1) false, stopLoop := .at k }) := by
        refine .single (a := .stack r .managerStopped) rfl ?_
        simp only [step, hm, stepStack, hstopped, Option.map_some]
      obtain ⟨w, hreturned, hrest⟩ := ih (s := s.setStack r
        { m with started := m.started.set (k + 1) false, stopLoop := .at k })
        (Objects.set_self hm) rfl
      refine ⟨w, hreturned, ?_⟩
      simpa [setStack] using Reach.leads hone hrest

/-- The `stop()` of stack `r` returns. -/
theorem quiet_stack (digest : NodeConfigData → String) (r : Nat) (s : Cluster) :
    ∃ s', FinishesTo digest s s' ∧ s'.stops = s.stops ∧ StackQuiet r s' ∧
      ∀ k, StackQuiet k s → StackQuiet k s' := by
  by_cases hbusy : ∃ m i, s.allStacks[r]? = some m ∧ m.stopLoop = .at i
  · obtain ⟨m, i, hm, hi⟩ := hbusy
    obtain ⟨w, hreturned, hrun⟩ := loop_returns hm hi
    have hquiet : ∀ {k : Nat} {u : ManagerStack}, (s.allStacks.set r w)[k]? = some u →
        (k ≠ r → StackQuiet k s) → u.stopLoop.inProgress = false := by
      intro k u hu hold
      rcases Objects.set_cases hu with ⟨-, rfl, -⟩ | ⟨hkr, hu⟩
      · rw [hreturned]
        rfl
      · exact hold hkr u hu
    exact ⟨_, hrun, rfl, fun u hu => hquiet hu fun hne => absurd rfl hne,
      fun k hk u hu => hquiet hu fun _ => hk⟩
  · refine ⟨s, .refl s, rfl, fun m hm => ?_, fun _ hk => hk⟩
    exact ManagerStack.inProgress_eq_false.mpr fun i hi => hbusy ⟨m, i, hm, hi⟩

/-- **The stops of all stacks return.** -/
theorem quiet_stacks (digest : NodeConfigData → String) (s : Cluster) :
    ∃ s', FinishesTo digest s s' ∧ s'.stops = s.stops ∧ ∀ r, StackQuiet r s' := by
  have hone : ∀ k x, x.stops = s.stops → ∃ x', FinishesTo digest x x' ∧ x'.stops = s.stops ∧
      StackQuiet k x' ∧ ∀ j, StackQuiet j x → StackQuiet j x' := by
    intro k x hx
    obtain ⟨x', hrun, hstops, hquiet⟩ := quiet_stack digest k x
    exact ⟨x', hrun, hstops.trans hx, hquiet⟩
  obtain ⟨s', hs', hstops, hquiet⟩ := Leads.all hone s.allStacks.length rfl
  refine ⟨s', hs', hstops, fun r m hm => hquiet r ?_ m hm⟩
  rw [← (FinishesTo.kept hs').stacksLength]
  exact (List.getElem?_eq_some_iff.mp hm).1

/-! ### What the stops refer to -/

/-- What never comes back to a node or a stack: its life, and its first stop. -/
structure Worn (s s' : Cluster) : Prop where
  node : ∀ (n : Nat) (v : NodeView), s.allNodes[n]? = some v →
    ∃ w, s'.allNodes[n]? = some w ∧ (w.state.live = true → v.state.live = true)
  stack : ∀ (r : Nat) (m : ManagerStack), s.allStacks[r]? = some m →
    ∃ w, s'.allStacks[r]? = some w ∧
      (m.stopLoop ≠ .notCalled → w.stopLoop ≠ .notCalled) ∧
      (m.isRunning = false → w.isRunning = false)

theorem Worn.setNode {n : Nat} {v w : NodeView} (hv : s.allNodes[n]? = some v)
    (hlive : w.state.live = true → v.state.live = true)
    (hall : s'.allNodes = s.allNodes.set n w) (hstacks : s'.allStacks = s.allStacks) :
    Worn s s' := by
  refine ⟨fun k u hu => ?_, fun r m hm => ⟨m, hstacks ▸ hm, id, id⟩⟩
  rw [hall]
  exact Objects.kept_of_set (p := fun v w => w.state.live = true → v.state.live = true)
    (fun _ => id) hv hlive hu

theorem Worn.setStack {r : Nat} {m w : ManagerStack} (hm : s.allStacks[r]? = some m)
    (hstop : m.stopLoop ≠ .notCalled → w.stopLoop ≠ .notCalled)
    (hrunning : m.isRunning = false → w.isRunning = false)
    (hall : s'.allStacks = s.allStacks.set r w) (hnodes : s'.allNodes = s.allNodes) :
    Worn s s' := by
  refine ⟨fun n v hv => ⟨v, hnodes ▸ hv, id⟩, fun k u hu => ?_⟩
  rw [hall]
  exact Objects.kept_of_set (p := fun m w => (m.stopLoop ≠ .notCalled → w.stopLoop ≠ .notCalled) ∧
    (m.isRunning = false → w.isRunning = false)) (fun _ => ⟨id, id⟩) hm ⟨hstop, hrunning⟩ hu

theorem Worn.same (hnodes : s'.allNodes = s.allNodes) (hstacks : s'.allStacks = s.allStacks) :
    Worn s s' :=
  ⟨fun _ v hv => ⟨v, hnodes ▸ hv, id⟩, fun _ m hm => ⟨m, hstacks ▸ hm, id, id⟩⟩

theorem stopLoop_stop (m : ManagerStack) (h : m.stopLoop ≠ .notCalled) :
    m.stop.stopLoop ≠ .notCalled := by
  unfold ManagerStack.stop
  split
  · dsimp only
    split <;> simp
  · exact h

/-- **Every step** only wears. -/
theorem Step.worn (hs : Step digest s a s') : Worn s s' := by
  cases hs with
  | finishes t k c r p id =>
      refine ⟨fun n v hv => ⟨v, addNodes_old hv, fun h => h⟩, fun _ m hm => ⟨m, hm, fun h => h,
        fun h => h⟩⟩
  | creates t c goal hash =>
      exact ⟨fun _ v hv => ⟨v, hv, id⟩, fun _ m hm => ⟨m, Objects.append_old hm, id, id⟩⟩
  | managerStarted t c goal hash r m m' hc hstage hm hm' =>
      obtain ⟨hstop, hrunning⟩ := ManagerStack.frame_managerStarted hm'
      exact .setStack hm (by rw [hstop]; exact id) (by rw [hrunning]; exact id) rfl rfl
  | handsOut t c goal hash r m m' stage L hc hstage hm hm' =>
      obtain ⟨hstop, hrunning⟩ := ManagerStack.frame_managerStarted hm'
      exact .setStack hm (by rw [hstop]; exact id) (by rw [hrunning]; exact id) rfl rfl
  | managerStartRaised t c goal hash r m m' L hc hstage hm hm' =>
      obtain ⟨hstop, hrunning⟩ := ManagerStack.frame_managerStartRaised hm'
      exact .setStack hm (by rw [hstop]; exact id) (by rw [hrunning]; exact id) rfl rfl
  | stopsNode i n σ todo busy v hσ hpc hv => exact .setNode hv v.ends_stop.live rfl rfl
  | stopsStack i r σ todo busy m hσ hpc hm =>
      exact .setStack hm (stopLoop_stop m) (fun _ => m.isRunning_stop) rfl rfl
  | nodeReady n v hv hstate => exact .setNode hv (fun _ => by rw [hstate]; rfl) rfl rfl
  | nodeStartFailed n v hv => exact .setNode hv (fun h => absurd h (by simp)) rfl rfl
  | nodeStop n v hv => exact .setNode hv nodePredicate_live.of_stop rfl rfl
  | nodeStopped n v ce hv => exact .setNode hv (fun h => absurd h (by simp)) rfl rfl
  | nodeStopRaised n v ce hv =>
      exact .setNode (w := { v with stopping := none }) hv id rfl rfl
  | stackStops r m hm =>
      exact .setStack hm (stopLoop_stop m) (fun _ => m.isRunning_stop) rfl rfl
  | managerStopped r m m' hm hm' =>
      obtain ⟨hstop, hrunning⟩ := ManagerStack.frame_managerStopped hm'
      exact .setStack hm (fun _ => hstop) (by rw [hrunning]; exact id) rfl rfl
  | managerStopRaised r m m' hm hm' =>
      obtain ⟨hstop, hrunning⟩ := ManagerStack.frame_managerStopRaised hm'
      exact .setStack hm (fun _ => hstop) (by rw [hrunning]; exact id) rfl rfl
  | _ => exact .same rfl rfl

/-- The nodes and stacks of a stop exist, and those it awaits were reached by a `stop()`. -/
def StageKnown (s : Cluster) : StopStage → Prop
  | .nodes todo busy =>
      (∀ n ∈ todo, ∃ v, s.allNodes[n]? = some v) ∧
        ∀ n ∈ busy, ∃ v, s.allNodes[n]? = some v ∧ v.state.live = false
  | .managerStacks todo busy =>
      (∀ r ∈ todo, ∃ m, s.allStacks[r]? = some m) ∧
        ∀ r ∈ busy, ∃ m, s.allStacks[r]? = some m ∧ m.stopLoop ≠ .notCalled
  | .payment => True
  | .over => True

theorem StageKnown.worn {pc : StopStage} (h : s.StageKnown pc) (hworn : Worn s s') :
    s'.StageKnown pc := by
  cases pc with
  | nodes todo busy =>
      refine ⟨fun n hn => ?_, fun n hn => ?_⟩
      · obtain ⟨v, hv⟩ := h.1 n hn
        obtain ⟨w, hw, -⟩ := hworn.node n v hv
        exact ⟨w, hw⟩
      · obtain ⟨v, hv, hlive⟩ := h.2 n hn
        obtain ⟨w, hw, hback⟩ := hworn.node n v hv
        refine ⟨w, hw, ?_⟩
        by_contra hwlive
        rw [hback (by simpa using hwlive)] at hlive
        cases hlive
  | managerStacks todo busy =>
      refine ⟨fun r hr => ?_, fun r hr => ?_⟩
      · obtain ⟨m, hm⟩ := h.1 r hr
        obtain ⟨w, hw, -⟩ := hworn.stack r m hm
        exact ⟨w, hw⟩
      · obtain ⟨m, hm, hstop⟩ := h.2 r hr
        obtain ⟨w, hw, hkept, -⟩ := hworn.stack r m hm
        exact ⟨w, hw, hkept hstop⟩
  | payment => trivial
  | «over» => trivial

/-- The dictionaries and the stops refer to objects that exist. -/
structure Known (s : Cluster) : Prop where
  ids : IdsOrdered s
  managerStacks : ∀ r ∈ s.managerStacks.values, ∃ m, s.allStacks[r]? = some m
  stops : ∀ σ ∈ s.stops, s.StageKnown σ.pc

theorem known_initial (h : Initial s) : Known s := by
  refine ⟨idsOrdered_initial h, ?_, ?_⟩
  · subst h
    intro r hr
    cases hr
  · subst h
    intro σ hσ
    cases hσ

theorem Known.node (h : Known s) {n : Nat} (hn : n ∈ s.nodes.values) :
    ∃ v, s.allNodes[n]? = some v :=
  ⟨_, List.getElem?_eq_getElem (h.ids.node_lt hn)⟩

/-- The stops after a step are old ones, and one that knows its objects. -/
theorem Known.next (h : Known s) (hworn : Worn s s') (hids : IdsOrdered s')
    (hstacks : ∀ r ∈ s'.managerStacks.values, r ∈ s.managerStacks.values ∨
      ∃ m, s'.allStacks[r]? = some m)
    (hstops : ∀ σ ∈ s'.stops, σ ∈ s.stops ∨ s'.StageKnown σ.pc) : Known s' := by
  refine ⟨hids, fun r hr => ?_, fun σ hσ => ?_⟩
  · rcases hstacks r hr with hold | hnew
    · obtain ⟨m, hm⟩ := h.managerStacks r hold
      obtain ⟨w, hw, -⟩ := hworn.stack r m hm
      exact ⟨w, hw⟩
    · exact hnew
  · exact (hstops σ hσ).elim (fun hold => (h.stops σ hold).worn hworn) id

/-- **Every step** keeps the references. -/
theorem Known.step (h : Known s) (hs : Step digest s a s') : Known s' := by
  have hworn := hs.worn
  have hids := h.ids.step hs
  have hstage : ∀ {i : Nat} {σ : StopRun} {pc : StopStage}, s.stops[i]? = some σ → σ.pc = pc →
      s'.StageKnown pc := by
    intro i σ pc hσ hpc
    have hknown := h.stops σ (List.mem_of_getElem? hσ)
    rw [hpc] at hknown
    exact hknown.worn hworn
  have hset : ∀ {l : List StopRun} {i : Nat} {τ : StopRun}, s'.StageKnown τ.pc →
      ∀ ρ ∈ l.set i τ, ρ ∈ l ∨ s'.StageKnown ρ.pc := by
    intro l i τ hτ ρ hρ
    rcases List.mem_or_eq_of_mem_set hρ with hold | rfl
    · exact .inl hold
    · exact .inr hτ
  have hnew : ∀ (ce : Bool) (nodes : List Nat), (∀ n ∈ nodes, ∃ v, s'.allNodes[n]? = some v) →
      ∀ ρ ∈ s.stops ++ [⟨ce, .nodes nodes []⟩], ρ ∈ s.stops ∨ s'.StageKnown ρ.pc := by
    intro ce nodes hnodes ρ hρ
    rcases List.mem_append.mp hρ with hold | hlast
    · exact .inl hold
    · obtain rfl := List.mem_singleton.mp hlast
      exact .inr ⟨hnodes, fun n hn => absurd hn List.not_mem_nil⟩
  cases hs with
  | creates t c goal hash =>
      refine h.next hworn hids (fun r hr => ?_) fun σ hσ => .inl hσ
      rcases Dict.mem_values_set hr with rfl | hold
      · exact .inr ⟨_, List.getElem?_concat_length⟩
      · exact .inl hold
  | stopPasses ce hstate =>
      exact h.next hworn hids (fun r hr => .inl hr) (hnew ce _ fun n hn => h.node hn)
  | lastNodeStops n v =>
      exact h.next hworn hids (fun r hr => .inl hr) (hnew true _ fun n hn => h.node hn)
  | stopsNode i n σ todo busy v hσ hpc hv =>
      refine h.next hworn hids (fun r hr => .inl hr) (hset ?_)
      obtain ⟨htodo, hbusy⟩ := hstage hσ hpc
      refine ⟨fun k hk => htodo k (List.mem_cons_of_mem n hk), fun k hk => ?_⟩
      cases hlive : v.state.live with
      | false =>
          rw [if_neg (by simp [hlive])] at hk
          exact hbusy k hk
      | true =>
          rw [if_pos hlive] at hk
          rcases List.mem_append.mp hk with hk | hk
          · exact hbusy k hk
          · obtain rfl := List.mem_singleton.mp hk
            refine ⟨_, Objects.set_self hv, ?_⟩
            rw [NodeView.stop, if_pos hlive]
            rfl
  | nodesDone i σ busy hσ hpc =>
      refine h.next hworn hids (fun r hr => .inl hr) (hset ?_)
      exact ⟨h.managerStacks, fun r hr => absurd hr List.not_mem_nil⟩
  | stopsStack i r σ todo busy m hσ hpc hm =>
      refine h.next hworn hids (fun r hr => .inl hr) (hset ?_)
      obtain ⟨htodo, hbusy⟩ := hstage hσ hpc
      refine ⟨fun k hk => htodo k (List.mem_cons_of_mem r hk), fun k hk => ?_⟩
      cases hrunning : m.isRunning with
      | false =>
          rw [if_neg (by simp [hrunning])] at hk
          exact hbusy k hk
      | true =>
          rw [if_pos hrunning] at hk
          rcases List.mem_append.mp hk with hk | hk
          · exact hbusy k hk
          · obtain rfl := List.mem_singleton.mp hk
            refine ⟨_, Objects.set_self hm, ?_⟩
            rcases ManagerStack.halting_stop hrunning with hgo | hdone
            · exact fun hc => absurd hgo (by simp [hc])
            · simp [hdone]
  | stacksDone i σ busy hσ hpc =>
      exact h.next hworn hids (fun r hr => .inl hr) (hset trivial)
  | paymentStopped i σ hσ hpc =>
      exact h.next hworn hids (fun r hr => (by cases hr)) (hset trivial)
  | stopRaised i σ hσ hpc => exact h.next hworn hids (fun r hr => .inl hr) (hset trivial)
  | _ => exact h.next hworn hids (fun r hr => .inl hr) fun σ hσ => .inl hσ

theorem known_of_reach (h : Reachable Initial (step digest) s) : Known s :=
  Reach.invariant (I := Known) (fun _ => known_initial)
    (fun _ _ _ hi _ hstep => hi.step (step_cases hstep)) h

/-! ### A stop goes through its nodes and stacks -/

/-- A stop at this stage can go on: no node that it has to stop was left behind, and no stack
that it awaits. -/
def StageSound (s : Cluster) : StopStage → Prop
  | .nodes todo busy =>
      (∀ n ∈ todo, ∃ v, s.allNodes[n]? = some v ∧ ¬ v.Abandoned) ∧
        ∀ n ∈ busy, ∃ v, s.allNodes[n]? = some v ∧ v.state.live = false ∧ ¬ v.Abandoned
  | .managerStacks todo busy =>
      (∀ r ∈ todo, ∃ m, s.allStacks[r]? = some m) ∧
        ∀ r ∈ busy, ∃ m, s.allStacks[r]? = some m ∧ m.Halting
  | .payment => True
  | .over => False

theorem Kept.soundNode (h : Kept s s') {n : Nat}
    (hn : ∃ v, s.allNodes[n]? = some v ∧ v.state.live = false ∧ ¬ v.Abandoned) :
    ∃ v, s'.allNodes[n]? = some v ∧ v.state.live = false ∧ ¬ v.Abandoned := by
  obtain ⟨v, hv, hlive, habandoned⟩ := hn
  obtain ⟨w, hw, hends⟩ := h.node n v hv
  refine ⟨w, hw, ?_, fun hw => habandoned (hends.abandoned hw)⟩
  by_contra hwlive
  rw [hends.live (by simpa using hwlive)] at hlive
  cases hlive

theorem StageSound.kept {pc : StopStage} (h : s.StageSound pc) (hkept : Kept s s') :
    s'.StageSound pc := by
  cases pc with
  | nodes todo busy =>
      refine ⟨fun n hn => ?_, fun n hn => hkept.soundNode (h.2 n hn)⟩
      obtain ⟨v, hv, habandoned⟩ := h.1 n hn
      obtain ⟨w, hw, hends⟩ := hkept.node n v hv
      exact ⟨w, hw, fun hw => habandoned (hends.abandoned hw)⟩
  | managerStacks todo busy =>
      refine ⟨fun r hr => ?_, fun r hr => ?_⟩
      · obtain ⟨m, hm⟩ := h.1 r hr
        obtain ⟨w, hw, -⟩ := hkept.stack r m hm
        exact ⟨w, hw⟩
      · obtain ⟨m, hm, hhalting⟩ := h.2 r hr
        obtain ⟨w, hw, hends⟩ := hkept.stack r m hm
        exact ⟨w, hw, hends.halting hhalting⟩
  | payment => trivial
  | «over» => exact h

/-- Node `n` is terminated. -/
def NodeGone (s : Cluster) (n : Nat) : Prop :=
  ∃ v, s.allNodes[n]? = some v ∧ v.state = .terminated

/-- Stack `r` does not run, and its stop loop is over. -/
def StackHalted (s : Cluster) (r : Nat) : Prop :=
  ∃ m, s.allStacks[r]? = some m ∧ m.isRunning = false ∧ m.stopLoop.inProgress = false

theorem NodeGone.kept {n : Nat} (h : s.NodeGone n) (hkept : Kept s s') : s'.NodeGone n := by
  obtain ⟨v, hv, hterm⟩ := h
  obtain ⟨w, hw, hends⟩ := hkept.node n v hv
  exact ⟨w, hw, hends.terminated hterm⟩

/-- A stop takes the next node: it stops it, or passes over a terminated one. -/
theorem stops_next (digest : NodeConfigData → String) {n : Nat}
    (hσ : s.stops[i]? = some ⟨ce, .nodes (n :: todo) busy⟩)
    (hsound : s.StageSound (.nodes (n :: todo) busy)) (hquiet : NodeQuiet n s) :
    ∃ s' busy', FinishesTo digest s s' ∧ s'.stops[i]? = some ⟨ce, .nodes todo busy'⟩ ∧
      s'.StageSound (.nodes todo busy') ∧ (∀ k ∈ busy, k ∈ busy') ∧
      (n ∈ busy' ∨ s'.NodeGone n) := by
  obtain ⟨v, hv, habandoned⟩ := hsound.1 n List.mem_cons_self
  have hterminating : v.state ≠ .terminating := fun hst => habandoned ⟨hst, hquiet v hv⟩
  have hfinds : s.findsTerminating (.stopping i .node) = false := by
    simp [findsTerminating, hσ, hv, hterminating]
  have hstep : s.step digest (.stopping i .node) = some ((s.setNode n (v.stop false)).setStop i
      ⟨ce, .nodes (n :: todo) busy⟩
      (.nodes todo (if v.state.live then busy ++ [n] else busy))) := by
    simp only [step, hσ, stepStop, stopNode, hv]
  have hrun := FinishesTo.single (by simp [finishing, hfinds]) hstep
  have hsound' := hsound.kept (FinishesTo.kept hrun)
  have htodo := fun k hk => hsound'.1 k (List.mem_cons_of_mem n hk)
  cases hlive : v.state.live with
  | false =>
      rw [if_neg (by simp [hlive])] at hrun hsound' htodo
      have hgone : v.state = .terminated := v.terminated_of (hquiet v hv) habandoned hlive
      have hkept := NodeGone.kept ⟨v, hv, hgone⟩ (FinishesTo.kept hrun)
      exact ⟨_, busy, hrun, Objects.set_self hσ, ⟨htodo, hsound'.2⟩, fun _ hk => hk, .inr hkept⟩
  | true =>
      rw [if_pos hlive] at hrun hsound' htodo
      refine ⟨_, busy ++ [n], hrun, Objects.set_self hσ, ⟨htodo, fun k hk => ?_⟩,
        fun _ hk => List.mem_append_left _ hk, .inl (by simp)⟩
      rcases List.mem_append.mp hk with hk | hk
      · exact hsound'.2 k hk
      · obtain rfl := List.mem_singleton.mp hk
        refine ⟨v.stop false, Objects.set_self hv, ?_⟩
        rw [NodeView.stop, if_pos hlive]
        exact ⟨rfl, fun h => absurd h.2 (by simp)⟩

/-- A stop takes all its nodes. -/
theorem stops_nodes (digest : NodeConfigData → String)
    (hσ : s.stops[i]? = some ⟨ce, .nodes todo busy⟩)
    (hsound : s.StageSound (.nodes todo busy)) :
    ∃ s' busy', FinishesTo digest s s' ∧ s'.stops[i]? = some ⟨ce, .nodes [] busy'⟩ ∧
      s'.StageSound (.nodes [] busy') ∧ (∀ n ∈ busy, n ∈ busy') ∧
      ∀ n ∈ todo, n ∈ busy' ∨ s'.NodeGone n := by
  induction todo generalizing s busy with
  | nil =>
      exact ⟨s, busy, .refl s, hσ, hsound, fun _ hn => hn, fun n hn => absurd hn List.not_mem_nil⟩
  | cons n todo ih =>
      obtain ⟨s₁, hrun₁, hstops, hquiet⟩ := quiet_nodes digest s
      obtain ⟨s₂, busy₂, hrun₂, hσ₂, hsound₂, hbusy₂, hn₂⟩ :=
        stops_next digest (hstops ▸ hσ) (hsound.kept (FinishesTo.kept hrun₁)) (hquiet n)
      obtain ⟨s₃, busy₃, hrun₃, hσ₃, hsound₃, hbusy₃, htodo₃⟩ := ih hσ₂ hsound₂
      refine ⟨s₃, busy₃, Reach.leads (Reach.leads hrun₁ hrun₂) hrun₃, hσ₃, hsound₃,
        fun k hk => hbusy₃ k (hbusy₂ k hk), fun k hk => ?_⟩
      rcases List.mem_cons.mp hk with rfl | hk
      · rcases hn₂ with hn₂ | hgone
        · exact .inl (hbusy₃ k hn₂)
        · exact .inr (hgone.kept (FinishesTo.kept hrun₃))
      · exact htodo₃ k hk

/-- **A stop gets past its nodes**, and they are terminated. -/
theorem finish_nodes (digest : NodeConfigData → String)
    (hσ : s.stops[i]? = some ⟨ce, .nodes todo busy⟩)
    (hsound : s.StageSound (.nodes todo busy)) :
    ∃ s', FinishesTo digest s s' ∧
      s'.stops[i]? = some ⟨ce, .managerStacks s.managerStacks.values []⟩ ∧
      ∀ n ∈ todo, s'.NodeGone n := by
  obtain ⟨s₁, busy₁, hrun₁, hσ₁, hsound₁, -, htodo₁⟩ := stops_nodes digest hσ hsound
  obtain ⟨s₂, hrun₂, hstops, hquiet⟩ := quiet_nodes digest s₁
  have hkept₂ := FinishesTo.kept hrun₂
  have hbusy : ∀ n ∈ busy₁, s₂.NodeGone n := by
    intro n hn
    obtain ⟨v, hv, hlive, habandoned⟩ := hkept₂.soundNode (hsound₁.2 n hn)
    exact ⟨v, hv, v.terminated_of (hquiet n v hv) habandoned hlive⟩
  have hdone : ∀ n ∈ busy₁, (s₂.allNodes[n]?).map NodeView.state = some .terminated := by
    intro n hn
    obtain ⟨v, hv, hterm⟩ := hbusy n hn
    rw [hv, Option.map_some, hterm]
  have hσ₂ : s₂.stops[i]? = some ⟨ce, .nodes [] busy₁⟩ := hstops ▸ hσ₁
  have hstep : s₂.step digest (.stopping i .nodesDone) = some (s₂.setStop i
      ⟨ce, .nodes [] busy₁⟩ (.managerStacks s₂.managerStacks.values [])) := by
    simp only [step, hσ₂, stepStop, nodesDone]
    exact if_pos hdone
  have hrun₃ := FinishesTo.single rfl hstep
  refine ⟨_, Reach.leads (Reach.leads hrun₁ hrun₂) hrun₃, ?_, fun n hn => ?_⟩
  · rw [← (FinishesTo.kept hrun₁).managerStacks, ← hkept₂.managerStacks]
    exact Objects.set_self hσ₂
  · rcases htodo₁ n hn with hn | hgone
    · exact (hbusy n hn).kept (FinishesTo.kept hrun₃)
    · exact (hgone.kept hkept₂).kept (FinishesTo.kept hrun₃)

/-- A stop takes all its stacks. -/
theorem stops_stacks (digest : NodeConfigData → String)
    (hσ : s.stops[i]? = some ⟨ce, .managerStacks todo busy⟩)
    (hsound : s.StageSound (.managerStacks todo busy)) :
    ∃ s' busy', FinishesTo digest s s' ∧ s'.stops[i]? = some ⟨ce, .managerStacks [] busy'⟩ ∧
      s'.StageSound (.managerStacks [] busy') ∧
      ∀ r ∈ todo, ∃ m, s'.allStacks[r]? = some m ∧ m.isRunning = false := by
  induction todo generalizing s busy with
  | nil => exact ⟨s, busy, .refl s, hσ, hsound, fun r hr => absurd hr List.not_mem_nil⟩
  | cons r todo ih =>
      obtain ⟨m, hm⟩ := hsound.1 r List.mem_cons_self
      have hstep : s.step digest (.stopping i .stack) = some ((s.setStack r m.stop).setStop i
          ⟨ce, .managerStacks (r :: todo) busy⟩
          (.managerStacks todo (if m.isRunning then busy ++ [r] else busy))) := by
        simp only [step, hσ, stepStop, stopStack, hm]
      have hrun := FinishesTo.single rfl hstep
      have hsound' := hsound.kept (FinishesTo.kept hrun)
      obtain ⟨s₂, busy₂, hrun₂, hσ₂, hsound₂, htodo₂⟩ := ih (Objects.set_self hσ)
        ⟨fun k hk => hsound'.1 k (List.mem_cons_of_mem r hk), fun k hk => by
          cases hrunning : m.isRunning with
          | false =>
              rw [if_neg (by simp [hrunning])] at hk
              exact hsound'.2 k hk
          | true =>
              rw [if_pos hrunning] at hk
              rcases List.mem_append.mp hk with hk | hk
              · exact hsound'.2 k hk
              · obtain rfl := List.mem_singleton.mp hk
                exact ⟨m.stop, Objects.set_self hm, ManagerStack.halting_stop hrunning⟩⟩
      refine ⟨s₂, busy₂, Reach.leads hrun hrun₂, hσ₂, hsound₂, fun k hk => ?_⟩
      rcases List.mem_cons.mp hk with rfl | hk
      · obtain ⟨w, hw, hends⟩ := (FinishesTo.kept hrun₂).stack k m.stop (Objects.set_self hm)
        exact ⟨w, hw, hends.isRunning m.isRunning_stop⟩
      · exact htodo₂ k hk

/-- **A stop gets past its stacks**, and their stops are over. -/
theorem finish_stacks (digest : NodeConfigData → String)
    (hσ : s.stops[i]? = some ⟨ce, .managerStacks todo busy⟩)
    (hsound : s.StageSound (.managerStacks todo busy)) :
    ∃ s', FinishesTo digest s s' ∧ s'.stops[i]? = some ⟨ce, .payment⟩ ∧
      ∀ r ∈ todo, s'.StackHalted r := by
  obtain ⟨s₁, busy₁, hrun₁, hσ₁, hsound₁, htodo₁⟩ := stops_stacks digest hσ hsound
  obtain ⟨s₂, hrun₂, hstops, hquiet⟩ := quiet_stacks digest s₁
  have hkept₂ := FinishesTo.kept hrun₂
  have hdone : ∀ r ∈ busy₁, (s₂.allStacks[r]?).map ManagerStack.stopLoop = some .returned := by
    intro r hr
    obtain ⟨m, hm, hhalting⟩ := hsound₁.2 r hr
    obtain ⟨w, hw, hends⟩ := hkept₂.stack r m hm
    rw [hw, Option.map_some, (hends.halting hhalting).resolve_left (by simp [hquiet r w hw])]
  have hσ₂ : s₂.stops[i]? = some ⟨ce, .managerStacks [] busy₁⟩ := hstops ▸ hσ₁
  have hstep : s₂.step digest (.stopping i .stacksDone) = some (s₂.setStop i
      ⟨ce, .managerStacks [] busy₁⟩ .payment) := by
    simp only [step, hσ₂, stepStop, stacksDone]
    exact if_pos hdone
  refine ⟨_, Reach.leads (Reach.leads hrun₁ hrun₂) (.single rfl hstep), Objects.set_self hσ₂,
    fun r hr => ?_⟩
  obtain ⟨m, hm, hrunning⟩ := htodo₁ r hr
  obtain ⟨w, hw, hends⟩ := hkept₂.stack r m hm
  exact ⟨w, hw, hends.isRunning hrunning, hquiet r w hw⟩

/-- **A sound stop gets to its last await**, and leaves no node's stop in progress. -/
theorem finish (digest : NodeConfigData → String) {pc : StopStage}
    (hσ : s.stops[i]? = some ⟨ce, pc⟩) (hsound : s.StageSound pc)
    (hstacks : ∀ r ∈ s.managerStacks.values, ∃ m, s.allStacks[r]? = some m) :
    ∃ s', FinishesTo digest s s' ∧ s'.stops[i]? = some ⟨ce, .payment⟩ ∧ ∀ n, NodeQuiet n s' := by
  have hpayment : ∃ s', FinishesTo digest s s' ∧ s'.stops[i]? = some ⟨ce, .payment⟩ := by
    cases pc with
    | nodes todo busy =>
        obtain ⟨s₁, hrun₁, hσ₁, -⟩ := finish_nodes digest hσ hsound
        have hkept := FinishesTo.kept hrun₁
        have hsound₁ : s₁.StageSound (.managerStacks s.managerStacks.values []) := by
          refine ⟨fun r hr => ?_, fun r hr => absurd hr List.not_mem_nil⟩
          obtain ⟨m, hm⟩ := hstacks r hr
          obtain ⟨w, hw, -⟩ := hkept.stack r m hm
          exact ⟨w, hw⟩
        obtain ⟨s₂, hrun₂, hσ₂, -⟩ := finish_stacks digest hσ₁ hsound₁
        exact ⟨s₂, Reach.leads hrun₁ hrun₂, hσ₂⟩
    | managerStacks todo busy =>
        obtain ⟨s₁, hrun₁, hσ₁, -⟩ := finish_stacks digest hσ hsound
        exact ⟨s₁, hrun₁, hσ₁⟩
    | payment => exact ⟨s, .refl s, hσ⟩
    | «over» => exact hsound.elim
  obtain ⟨s₁, hrun₁, hσ₁⟩ := hpayment
  obtain ⟨s₂, hrun₂, hstops, hquiet⟩ := quiet_nodes digest s₁
  exact ⟨s₂, Reach.leads hrun₁ hrun₂, hstops ▸ hσ₁, hquiet⟩

end Cluster
