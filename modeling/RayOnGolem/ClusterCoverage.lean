import RayOnGolem.ClusterStep
import RayOnGolem.Lib.Objects

/-!
# What the dictionaries and the running stops cover

`Cluster.stop` stops the nodes of `_nodes` and then the stacks of
`_manager_stacks`, each from a snapshot.  So it reaches a node or a stack only
if the dictionary knew it when the snapshot was taken.

`NodesCovered φ` says, for a predicate `φ` on node states, that every created
node with `φ` is registered and that every `stop()` in progress still has it
ahead of itself; `StacksCovered ψ` says the same of stacks.  Both are kept by
every step as long as nodes and stacks are only registered while no `stop()` is
in progress (`besideStop`), and then a cluster that is terminated by a
stop has none of them (`NodesGone`, `StacksGone`).  Later modules use them at
"pending or running", "not terminated", "running" and "not stopped".
-/

namespace Cluster

open Runs

variable {digest : NodeConfigData → String} {s s' : Cluster} {a : Act}

/-- A stop at this stage still has node `n` ahead of itself. -/
def coversNode : StopStage → Nat → Prop
  | .nodes todo busy, n => n ∈ todo ∨ n ∈ busy
  | .managerStacks _ _, _ => False
  | .payment, _ => False
  | .over, _ => True

/-- A stop at this stage still has stack `r` ahead of itself. -/
def coversStack : StopStage → Nat → Prop
  | .nodes _ _, _ => True
  | .managerStacks todo busy, r => r ∈ todo ∨ r ∈ busy
  | .payment, _ => False
  | .over, _ => True

/-- Whether a step registers nodes. -/
def registersNodes : Act → Bool
  | .call _ (.finishRequest k) => k != 0
  | _ => false

/-- Whether a step registers a stack. -/
def registersStack : Act → Bool
  | .call _ .create => true
  | _ => false

/-- A step that registers something does so while no `stop()` is in progress. -/
def besideStop (registers : Act → Bool) (s : Cluster) (a : Act) : Bool :=
  !registers a || !s.stopInProgress

/-- A step that registers something does so on a cluster that is not terminated. -/
def whileRunning (registers : Act → Bool) (s : Cluster) (a : Act) : Bool :=
  !registers a || s.isRunning

/-- A new stack is never registered in place of another one. -/
def replacesNothing (s : Cluster) : Act → Bool
  | .call t .create =>
      match (s.calls[t]?).map Call.stage with
      | some (.creating _ h) => (s.managerStacks.get h).isNone
      | _ => true
  | _ => true

theorem stopInProgress_eq_false : s.stopInProgress = false ↔ ∀ σ ∈ s.stops, σ.pc = .over := by
  simp [stopInProgress]

/-! ### Nodes -/

/-- A predicate on node states that holds of no terminated node, and that a
node has from the start if it has it later. -/
structure NodePredicate (φ : NodeState → Prop) : Prop where
  not_terminated : ¬ φ .terminated
  of_running : φ .running → φ .pending
  of_terminating : ∀ st : NodeState, st ≠ .terminated → φ .terminating → φ st

/-- Pending or running. -/
theorem nodePredicate_live : NodePredicate fun st => st.live = true :=
  ⟨by simp, fun _ => rfl, fun st _ h => by simp at h⟩

/-- Not terminated. -/
theorem nodePredicate_not_terminated : NodePredicate fun st => st ≠ .terminated :=
  ⟨by simp, by simp, fun st h _ => h⟩

/-- Every node with `φ` is registered and ahead of every stop. -/
structure NodesCovered (φ : NodeState → Prop) (s : Cluster) : Prop where
  registered : ∀ (n : Nat) (v : NodeView), s.allNodes[n]? = some v → φ v.state →
    n ∈ s.nodes.values
  stopping : ∀ σ ∈ s.stops, ∀ (n : Nat) (v : NodeView), s.allNodes[n]? = some v → φ v.state →
    coversNode σ.pc n
  ids : IdsFresh s

/-- A terminated cluster has no node with `φ`. -/
def NodesGone (φ : NodeState → Prop) (s : Cluster) : Prop :=
  s.state = .terminated → ∀ (n : Nat) (v : NodeView), s.allNodes[n]? = some v → ¬ φ v.state

variable {φ : NodeState → Prop}

theorem nodesCovered_initial (h : Initial s) : NodesCovered φ s := by
  subst h
  exact ⟨by simp, by simp, fun _ _ => rfl⟩

theorem nodesGone_initial (h : Initial s) : NodesGone φ s := by
  subst h
  intro _ n v hv
  simp at hv

/-- The general step: no node gets `φ`, the dictionary stays, and each stop is
an old one or covers what it has to. -/
theorem NodesCovered.next (h : NodesCovered φ s)
    (hless : ∀ (n : Nat) (v' : NodeView), s'.allNodes[n]? = some v' → φ v'.state →
      ∃ v, s.allNodes[n]? = some v ∧ φ v.state)
    (hnodes : s'.nodes = s.nodes) (hids : s'.nodesIdCounter = s.nodesIdCounter)
    (hstops : ∀ σ ∈ s'.stops, σ ∈ s.stops ∨
      ∀ (n : Nat) (v : NodeView), s'.allNodes[n]? = some v → φ v.state → coversNode σ.pc n) :
    NodesCovered φ s' where
  registered n v' hv' hφ := by
    obtain ⟨v, hv, hφv⟩ := hless n v' hv' hφ
    rw [hnodes]
    exact h.registered n v hv hφv
  stopping σ hσ n v' hv' hφ := by
    rcases hstops σ hσ with hold | hnew
    · obtain ⟨v, hv, hφv⟩ := hless n v' hv' hφ
      exact h.stopping σ hold n v hv hφv
    · exact hnew n v' hv' hφ
  ids k hk := by
    rw [hnodes]
    exact h.ids k (by rwa [hids] at hk)

/-- One stop goes on, and the nodes that it still had ahead of itself it has still. -/
theorem NodesCovered.stopGoesOn (h : NodesCovered φ s) {i : Nat} {σ σ' : StopRun}
    (hσ : s.stops[i]? = some σ)
    (hless : ∀ (n : Nat) (v' : NodeView), s'.allNodes[n]? = some v' → φ v'.state →
      ∃ v, s.allNodes[n]? = some v ∧ φ v.state)
    (hnodes : s'.nodes = s.nodes) (hids : s'.nodesIdCounter = s.nodesIdCounter)
    (hstops : s'.stops = s.stops.set i σ')
    (hcovers : ∀ (n : Nat) (v : NodeView), s.allNodes[n]? = some v → φ v.state →
      coversNode σ.pc n → coversNode σ'.pc n) : NodesCovered φ s' := by
  refine h.next hless hnodes hids fun ρ hρ => ?_
  rw [hstops] at hρ
  rcases List.mem_or_eq_of_mem_set hρ with hold | rfl
  · exact .inl hold
  · apply Or.inr
    intro n v' hv' hφv'
    obtain ⟨v, hv, hφv⟩ := hless n v' hv' hφv'
    exact hcovers n v hv hφv (h.stopping σ (List.mem_of_getElem? hσ) n v hv hφv)

/-- Nothing about nodes or stops changes. -/
theorem NodesCovered.frame (h : NodesCovered φ s) (hall : s'.allNodes = s.allNodes)
    (hnodes : s'.nodes = s.nodes) (hids : s'.nodesIdCounter = s.nodesIdCounter)
    (hstops : s'.stops = s.stops) : NodesCovered φ s' :=
  h.next (fun _ v' hv' hφ => ⟨v', hall ▸ hv', hφ⟩) hnodes hids (fun _ hσ => .inl (hstops ▸ hσ))

/-- Registering a node while no stop is in progress. -/
theorem NodesCovered.addNode (h : NodesCovered φ s) (hbeside : s.stopInProgress = false)
    (hd : Bool) (r : Nat) (p : Option Nat) : NodesCovered φ (s.addNode hd r p) := by
  have hover := stopInProgress_eq_false.mp hbeside
  refine ⟨?_, ?_, h.ids.addNode hd r p⟩
  · intro _ v hv hφ
    rw [values_addNode h.ids]
    rcases Objects.append_cases hv with hold | ⟨rfl, -⟩
    · exact List.mem_append_left _ (h.registered _ v hold hφ)
    · simp
  · intro σ hσ n v _ _
    rw [hover σ hσ]
    trivial

theorem NodesCovered.addNodes (hd : Bool) (r : Nat) (p : Option Nat) (k : Nat)
    (h : NodesCovered φ s) (hbeside : k ≠ 0 → s.stopInProgress = false) :
    NodesCovered φ (Cluster.addNodes hd r p k s) := by
  induction k generalizing s with
  | zero => exact h
  | succ k ih =>
      have hbeside : s.stopInProgress = false := hbeside (by omega)
      exact ih (h.addNode hbeside hd r p) (fun _ => hbeside)

/-- A stop that begins takes its snapshot of the registered nodes. -/
theorem NodesCovered.stop (h : NodesCovered φ s) (ce : Bool) : NodesCovered φ (s.stop ce) := by
  cases hstate : s.state.live with
  | false =>
      rw [stop_of_not_live ce hstate]
      exact h
  | true =>
      rw [stop_of_live ce hstate]
      refine h.next (fun n v hv hφv => ⟨v, hv, hφv⟩) rfl rfl fun σ hσ => ?_
      rcases List.mem_append.mp hσ with hold | hnew
      · exact .inl hold
      · obtain rfl := List.mem_singleton.mp hnew
        exact .inr fun n v hv hφv => .inl (h.registered n v hv hφv)

/-- A stop whose node is being stopped, or needs no stop. -/
theorem coversNode_next {n k : Nat} {todo busy : List Nat} {live : Bool}
    (h : coversNode (.nodes (n :: todo) busy) k) (hne : live = false → k ≠ n) :
    coversNode (.nodes todo (if live then busy ++ [n] else busy)) k := by
  cases live with
  | true =>
      rcases h with h | h
      · rcases List.mem_cons.mp h with rfl | h
        · exact .inr (by simp)
        · exact .inl h
      · exact .inr (by simp [h])
  | false =>
      rcases h with h | h
      · exact .inl ((List.mem_cons.mp h).resolve_left (hne rfl))
      · exact .inr h

/-- `stop()` on a node gives it no `φ`. -/
theorem NodePredicate.of_stop (hφ : NodePredicate φ) {v : NodeView} {ce : Bool}
    (h : φ (v.stop ce).state) : φ v.state := by
  unfold NodeView.stop at h
  split at h
  · rename_i hlive
    refine hφ.of_terminating _ (fun heq => ?_) h
    rw [heq] at hlive
    cases hlive
  · exact h

/-- A stop at its last await covers nothing any more, so nothing has `φ`. -/
theorem NodesCovered.none_of_payment (h : NodesCovered φ s) {i : Nat} {σ : StopRun}
    (hσ : s.stops[i]? = some σ) (hpc : σ.pc = .payment) (n : Nat) (v : NodeView)
    (hv : s.allNodes[n]? = some v) : ¬ φ v.state := by
  intro hφv
  have hcov := h.stopping σ (List.mem_of_getElem? hσ) n v hv hφv
  rw [hpc] at hcov
  exact hcov

/-- **Every step keeps the nodes covered.**  A stop may skip the nodes that
have no `φ` once somebody else is stopping them. -/
theorem NodesCovered.step (hφ : NodePredicate φ) (h : NodesCovered φ s)
    (hok : besideStop registersNodes s a = true)
    (hskip : ∀ i σ n todo busy v, a = .stopping i .node → s.stops[i]? = some σ →
      σ.pc = .nodes (n :: todo) busy → s.allNodes[n]? = some v → v.state = .terminating →
        ¬ φ v.state)
    (hs : Step digest s a s') : NodesCovered φ s' := by
  cases hs with
  | finishes t k c r p id =>
      have hadd : NodesCovered φ (Cluster.addNodes c.request.isHead r p k s) := by
        apply h.addNodes _ _ _ _
        intro hk
        simpa [besideStop, registersNodes, hk] using hok
      rw [addNodes_eq] at hadd
      exact ⟨hadd.registered, hadd.stopping,
        fun j hj => hadd.ids j (Nat.le_trans (Nat.le_add_right _ id) hj)⟩
  | stopPasses ce hstate =>
      have := h.stop ce
      rwa [stop_of_live ce hstate] at this
  | stopsNode i n σ todo busy v hσ hpc hv =>
      refine h.stopGoesOn hσ (Objects.less_of_set hv hφ.of_stop) rfl rfl rfl
        fun k u hu hφu hcov => ?_
      rw [hpc] at hcov
      apply coversNode_next hcov
      intro hnot
      rintro rfl
      obtain rfl : u = v := Option.some.inj (hu.symm.trans hv)
      cases hst : u.state with
      | pending => simp [hst] at hnot
      | running => simp [hst] at hnot
      | terminating => exact hskip i σ k todo busy u rfl hσ hpc hv hst hφu
      | terminated => exact hφ.not_terminated (hst ▸ hφu)
  | nodesDone i σ busy hσ hpc hbusy =>
      refine h.stopGoesOn hσ (fun n v hv hφv => ⟨v, hv, hφv⟩) rfl rfl rfl
        fun n v hv hφv hcov => ?_
      -- what the stop still covered were busy nodes, and these are terminated
      rw [hpc] at hcov
      have hterm := hbusy n (hcov.resolve_left (by simp))
      rw [hv] at hterm
      have hst : v.state = .terminated := by simpa using hterm
      exact absurd (hst ▸ hφv) hφ.not_terminated
  | stopsStack i r σ todo busy m hσ hpc hm =>
      refine h.stopGoesOn hσ (fun n v hv hφv => ⟨v, hv, hφv⟩) rfl rfl rfl
        fun n v _ _ hcov => ?_
      rw [hpc] at hcov
      exact hcov.elim
  | stacksDone i σ busy hσ hpc =>
      refine h.stopGoesOn hσ (fun n v hv hφv => ⟨v, hv, hφv⟩) rfl rfl rfl
        fun n v _ _ hcov => ?_
      rw [hpc] at hcov
      exact hcov.elim
  | paymentStopped i σ hσ hpc =>
      have hnone : ∀ (n : Nat) (v : NodeView), s.allNodes[n]? = some v → ¬ φ v.state :=
        h.none_of_payment hσ hpc
      exact ⟨fun n v hv hφv => absurd hφv (hnone n v hv),
        fun _ _ n v hv hφv => absurd hφv (hnone n v hv), fun _ _ => rfl⟩
  | stopRaised i σ hσ hpc =>
      exact h.stopGoesOn hσ (fun n v hv hφv => ⟨v, hv, hφv⟩) rfl rfl rfl
        fun _ _ _ _ _ => trivial
  | nodeReady n v hv hstate =>
      exact h.next (Objects.less_of_set hv (by rw [hstate]; exact hφ.of_running)) rfl rfl
        fun _ => .inl
  | nodeStartFailed n v hv =>
      exact h.next (Objects.less_of_set hv fun hc => absurd hc hφ.not_terminated) rfl rfl
        fun _ => .inl
  | nodeStop n v hv => exact h.next (Objects.less_of_set hv hφ.of_stop) rfl rfl fun _ => .inl
  | nodeStopped n v ce hv =>
      exact h.next (Objects.less_of_set hv fun hc => absurd hc hφ.not_terminated) rfl rfl
        fun _ => .inl
  | nodeStopRaised n v ce hv => exact h.next (Objects.less_of_set hv id) rfl rfl fun _ => .inl
  | lastNodeStops n v hv hn hlast hstate =>
      have := h.stop true
      rw [stop_of_live true hstate] at this
      exact this.frame rfl rfl rfl rfl
  | _ => exact h.frame rfl rfl rfl rfl

/-- Nodes are gone as long as none gets `φ` and the cluster does not become
terminated. -/
theorem NodesGone.next (h : NodesGone φ s)
    (hless : ∀ (n : Nat) (v' : NodeView), s'.allNodes[n]? = some v' → φ v'.state →
      ∃ v, s.allNodes[n]? = some v ∧ φ v.state)
    (hstate : s'.state = .terminated → s.state = .terminated) : NodesGone φ s' := by
  intro hst n v' hv' hφ
  obtain ⟨v, hv, hφv⟩ := hless n v' hv' hφ
  exact h (hstate hst) n v hv hφv

/-- **A cluster that its stop made terminated has no node with `φ`**, when no
request registers nodes on a terminated one. -/
theorem NodesGone.step (hφ : NodePredicate φ) (hcov : NodesCovered φ s) (h : NodesGone φ s)
    (hok : whileRunning registersNodes s a = true) (hs : Step digest s a s') : NodesGone φ s' := by
  cases hs with
  | startPasses q => intro hst; cases hst
  | startDone t c => intro hst; cases hst
  | finishes t k c r p id =>
      intro hst
      have hterm : s.state = .terminated := hst
      cases k with
      | zero => exact h hterm
      | succ k => simp [whileRunning, registersNodes, isRunning, hterm] at hok
  | stopPasses ce => intro hst; cases hst
  | lastNodeStops n v => intro hst; cases hst
  | stopsNode i n σ todo busy v hσ hpc hv => exact h.next (Objects.less_of_set hv hφ.of_stop) id
  | paymentStopped i σ hσ hpc => exact fun _ => hcov.none_of_payment hσ hpc
  | nodeReady n v hv hstate =>
      exact h.next (Objects.less_of_set hv (by rw [hstate]; exact hφ.of_running)) id
  | nodeStartFailed n v hv =>
      exact h.next (Objects.less_of_set hv fun hc => absurd hc hφ.not_terminated) id
  | nodeStop n v hv => exact h.next (Objects.less_of_set hv hφ.of_stop) id
  | nodeStopped n v ce hv =>
      exact h.next (Objects.less_of_set hv fun hc => absurd hc hφ.not_terminated) id
  | nodeStopRaised n v ce hv => exact h.next (Objects.less_of_set hv id) id
  | _ => exact h

/-- Nodes are registered on a cluster that runs and is not being stopped. -/
def inTime (s : Cluster) (a : Act) : Bool :=
  besideStop registersNodes s a && whileRunning registersNodes s a

/-- **Live nodes are covered** in every run that registers nodes in time. -/
theorem live_nodes_covered (h : Reach Initial (step digest) (fun s a => inTime s a) s) :
    NodesCovered (fun st => st.live = true) s ∧ NodesGone (fun st => st.live = true) s := by
  refine Reach.invariant (I := fun s => NodesCovered (fun st => st.live = true) s ∧
    NodesGone (fun st => st.live = true) s)
    (fun _ hinit => ⟨nodesCovered_initial hinit, nodesGone_initial hinit⟩)
    (fun s a s' hi hok hstep => ?_) h
  obtain ⟨hbeside, hrunning⟩ := Bool.and_eq_true_iff.mp hok
  have hs := step_cases hstep
  refine ⟨hi.1.step nodePredicate_live hbeside ?_ hs,
    hi.2.step nodePredicate_live hi.1 hrunning hs⟩
  intro i σ n todo busy v _ _ _ _ hst
  simp [hst]

/-! ### Stacks -/

/-- A predicate on stacks that no operation of an existing stack brings about. -/
structure StackPredicate (ψ : ManagerStack → Prop) : Prop where
  of_managerStarted : ∀ m m', m.managerStarted = some m' → ψ m' → ψ m
  of_managerStartRaised : ∀ m m', m.managerStartRaised = some m' → ψ m' → ψ m
  of_stop : ∀ m : ManagerStack, ψ m.stop → ψ m
  of_managerStopped : ∀ m m', m.managerStopped = some m' → ψ m' → ψ m
  of_managerStopRaised : ∀ m m', m.managerStopRaised = some m' → ψ m' → ψ m

/-- The flag `_is_running`. -/
theorem stackPredicate_isRunning : StackPredicate fun m => m.isRunning = true where
  of_managerStarted m m' h hrun := by
    unfold ManagerStack.managerStarted at h
    split at h <;> cases h
    exact hrun
  of_managerStartRaised m m' h hrun := by
    unfold ManagerStack.managerStartRaised at h
    split at h <;> cases h
    exact hrun
  of_stop m hrun := by
    unfold ManagerStack.stop at hrun
    split at hrun
    · cases hrun
    · exact hrun
  of_managerStopped m m' h hrun := by
    unfold ManagerStack.managerStopped at h
    split at h <;> cases h <;> exact hrun
  of_managerStopRaised m m' h hrun := by
    unfold ManagerStack.managerStopRaised at h
    split at h <;> cases h
    exact hrun

/-- Not stopped: every operation starts from such a stack. -/
theorem stackPredicate_not_stopped : StackPredicate fun m => ¬ m.Stopped where
  of_managerStarted m m' h _ hstopped := by
    unfold ManagerStack.managerStarted at h
    split at h <;> cases h
    exact ManagerStack.inProgress_eq_false.mp hstopped.2.1 _ ‹_›
  of_managerStartRaised m m' h _ hstopped := by
    unfold ManagerStack.managerStartRaised at h
    split at h <;> cases h
    exact ManagerStack.inProgress_eq_false.mp hstopped.2.1 _ ‹_›
  of_stop m hnot hstopped := by
    rw [ManagerStack.stop, if_neg (by simp [hstopped.1])] at hnot
    exact hnot hstopped
  of_managerStopped m m' h _ hstopped := by
    unfold ManagerStack.managerStopped at h
    split at h <;> cases h
    all_goals
      exact ManagerStack.inProgress_eq_false.mp hstopped.2.2.1 _ ‹_›
  of_managerStopRaised m m' h _ hstopped := by
    unfold ManagerStack.managerStopRaised at h
    split at h <;> cases h
    exact ManagerStack.inProgress_eq_false.mp hstopped.2.2.1 _ ‹_›

/-- Every stack with `ψ` is registered and ahead of every stop. -/
structure StacksCovered (ψ : ManagerStack → Prop) (s : Cluster) : Prop where
  registered : ∀ (r : Nat) (m : ManagerStack), s.allStacks[r]? = some m → ψ m →
    r ∈ s.managerStacks.values
  stopping : ∀ σ ∈ s.stops, ∀ (r : Nat) (m : ManagerStack), s.allStacks[r]? = some m → ψ m →
    coversStack σ.pc r

/-- A terminated cluster has no stack with `ψ`. -/
def StacksGone (ψ : ManagerStack → Prop) (s : Cluster) : Prop :=
  s.state = .terminated → ∀ (r : Nat) (m : ManagerStack), s.allStacks[r]? = some m → ¬ ψ m

variable {ψ : ManagerStack → Prop}

theorem stacksCovered_initial (h : Initial s) : StacksCovered ψ s := by
  subst h
  exact ⟨by simp, by simp⟩

theorem stacksGone_initial (h : Initial s) : StacksGone ψ s := by
  subst h
  intro _ r m hm
  simp at hm

/-- The general step: no stack gets `ψ`, the dictionary stays, and each stop is
an old one or covers what it has to. -/
theorem StacksCovered.next (h : StacksCovered ψ s)
    (hless : ∀ (r : Nat) (m' : ManagerStack), s'.allStacks[r]? = some m' → ψ m' →
      ∃ m, s.allStacks[r]? = some m ∧ ψ m)
    (hstacks : s'.managerStacks = s.managerStacks)
    (hstops : ∀ σ ∈ s'.stops, σ ∈ s.stops ∨
      ∀ (r : Nat) (m : ManagerStack), s'.allStacks[r]? = some m → ψ m → coversStack σ.pc r) :
    StacksCovered ψ s' where
  registered r m' hm' hψ := by
    obtain ⟨m, hm, hψm⟩ := hless r m' hm' hψ
    rw [hstacks]
    exact h.registered r m hm hψm
  stopping σ hσ r m' hm' hψ := by
    rcases hstops σ hσ with hold | hnew
    · obtain ⟨m, hm, hψm⟩ := hless r m' hm' hψ
      exact h.stopping σ hold r m hm hψm
    · exact hnew r m' hm' hψ

/-- One stop goes on, and the stacks that it still had ahead of itself it has still. -/
theorem StacksCovered.stopGoesOn (h : StacksCovered ψ s) {i : Nat} {σ σ' : StopRun}
    (hσ : s.stops[i]? = some σ)
    (hless : ∀ (r : Nat) (m' : ManagerStack), s'.allStacks[r]? = some m' → ψ m' →
      ∃ m, s.allStacks[r]? = some m ∧ ψ m)
    (hstacks : s'.managerStacks = s.managerStacks) (hstops : s'.stops = s.stops.set i σ')
    (hcovers : ∀ (r : Nat) (m : ManagerStack), s.allStacks[r]? = some m → ψ m →
      coversStack σ.pc r → coversStack σ'.pc r) : StacksCovered ψ s' := by
  refine h.next hless hstacks fun ρ hρ => ?_
  rw [hstops] at hρ
  rcases List.mem_or_eq_of_mem_set hρ with hold | rfl
  · exact .inl hold
  · apply Or.inr
    intro r m' hm' hψm'
    obtain ⟨m, hm, hψm⟩ := hless r m' hm' hψm'
    exact hcovers r m hm hψm (h.stopping σ (List.mem_of_getElem? hσ) r m hm hψm)

/-- Nothing about stacks or stops changes. -/
theorem StacksCovered.frame (h : StacksCovered ψ s) (hall : s'.allStacks = s.allStacks)
    (hstacks : s'.managerStacks = s.managerStacks) (hstops : s'.stops = s.stops) :
    StacksCovered ψ s' :=
  h.next (fun _ m' hm' hψ => ⟨m', hall ▸ hm', hψ⟩) hstacks fun _ hσ => .inl (hstops ▸ hσ)

/-- A stop that begins covers every stack until it reads the dictionary. -/
theorem StacksCovered.stop (h : StacksCovered ψ s) (ce : Bool) : StacksCovered ψ (s.stop ce) := by
  cases hstate : s.state.live with
  | false =>
      rw [stop_of_not_live ce hstate]
      exact h
  | true =>
      rw [stop_of_live ce hstate]
      refine h.next (fun r m hm hψm => ⟨m, hm, hψm⟩) rfl fun σ hσ => ?_
      rcases List.mem_append.mp hσ with hold | hnew
      · exact .inl hold
      · obtain rfl := List.mem_singleton.mp hnew
        exact .inr fun _ _ _ _ => trivial

/-- A stop whose stack is being stopped, or needs no stop. -/
theorem coversStack_next {r k : Nat} {todo busy : List Nat} {running : Bool}
    (h : coversStack (.managerStacks (r :: todo) busy) k) (hne : running = false → k ≠ r) :
    coversStack (.managerStacks todo (if running then busy ++ [r] else busy)) k := by
  have hnode : coversNode (.nodes (r :: todo) busy) k := h
  exact coversNode_next hnode hne

/-- A stop at its last await covers nothing any more, so nothing has `ψ`. -/
theorem StacksCovered.none_of_payment (h : StacksCovered ψ s) {i : Nat} {σ : StopRun}
    (hσ : s.stops[i]? = some σ) (hpc : σ.pc = .payment) (r : Nat) (m : ManagerStack)
    (hm : s.allStacks[r]? = some m) : ¬ ψ m := by
  intro hψm
  have hcov := h.stopping σ (List.mem_of_getElem? hσ) r m hm hψm
  rw [hpc] at hcov
  exact hcov

/-- **Every step keeps the stacks covered.**  `hskip` is about the stacks that a
stop skips because they are not running, `hreturned` about those whose own stop
returned. -/
theorem StacksCovered.step (hψ : StackPredicate ψ) (h : StacksCovered ψ s)
    (hok : besideStop registersStack s a = true) (hnew : replacesNothing s a = true)
    (hskip : ∀ i σ r todo busy m, a = .stopping i .stack → s.stops[i]? = some σ →
      σ.pc = .managerStacks (r :: todo) busy → s.allStacks[r]? = some m →
        m.isRunning = false → ¬ ψ m)
    (hreturned : ∀ (r : Nat) (m : ManagerStack), s.allStacks[r]? = some m →
      m.stopLoop = .returned → ¬ ψ m)
    (hs : Step digest s a s') : StacksCovered ψ s' := by
  cases hs with
  | creates t c goal hash hc hstage =>
      have hnone : s.managerStacks.get hash = none := by
        simpa [replacesNothing, hc, hstage] using hnew
      have hover : ∀ σ ∈ s.stops, σ.pc = .over := by
        apply stopInProgress_eq_false.mp
        simpa [besideStop, registersStack] using hok
      refine ⟨fun r m hm hψm => ?_, fun σ hσ r m _ _ => ?_⟩
      · rw [Dict.values_set_of_get_none hnone]
        rcases Objects.append_cases hm with hold | ⟨rfl, -⟩
        · exact List.mem_append_left _ (h.registered r m hold hψm)
        · simp
      · rw [hover σ hσ]
        trivial
  | managerStarted t c goal hash r m m' hc hstage hm hm' =>
      exact h.next (Objects.less_of_set hm (hψ.of_managerStarted m m' hm')) rfl fun _ => .inl
  | handsOut t c goal hash r m m' stage L hc hstage hm hm' =>
      exact h.next (Objects.less_of_set hm (hψ.of_managerStarted m m' hm')) rfl fun _ => .inl
  | managerStartRaised t c goal hash r m m' L hc hstage hm hm' =>
      exact h.next (Objects.less_of_set hm (hψ.of_managerStartRaised m m' hm')) rfl fun _ => .inl
  | stopPasses ce hstate =>
      have := h.stop ce
      rwa [stop_of_live ce hstate] at this
  | stopsNode i n σ todo busy v hσ hpc hv =>
      exact h.stopGoesOn hσ (fun r m hm hψm => ⟨m, hm, hψm⟩) rfl rfl fun _ _ _ _ _ => trivial
  | nodesDone i σ busy hσ hpc hbusy =>
      exact h.stopGoesOn hσ (fun r m hm hψm => ⟨m, hm, hψm⟩) rfl rfl
        fun r m hm hψm _ => .inl (h.registered r m hm hψm)
  | stopsStack i r σ todo busy m hσ hpc hm =>
      refine h.stopGoesOn hσ (Objects.less_of_set hm (hψ.of_stop m)) rfl rfl
        fun k u hu hψu hcov => ?_
      rw [hpc] at hcov
      apply coversStack_next hcov
      intro hnot
      rintro rfl
      obtain rfl : u = m := Option.some.inj (hu.symm.trans hm)
      exact hskip i σ k todo busy u rfl hσ hpc hm hnot hψu
  | stacksDone i σ busy hσ hpc hbusy =>
      refine h.stopGoesOn hσ (fun r m hm hψm => ⟨m, hm, hψm⟩) rfl rfl fun r m hm hψm hcov => ?_
      -- what the stop still covered were busy stacks, and their stops returned
      rw [hpc] at hcov
      have hret := hbusy r (hcov.resolve_left (by simp))
      rw [hm] at hret
      exact absurd hψm (hreturned r m hm (by simpa using hret))
  | paymentStopped i σ hσ hpc =>
      have hnone : ∀ (r : Nat) (m : ManagerStack), s.allStacks[r]? = some m → ¬ ψ m :=
        h.none_of_payment hσ hpc
      exact ⟨fun r m hm hψm => absurd hψm (hnone r m hm),
        fun _ _ r m hm hψm => absurd hψm (hnone r m hm)⟩
  | stopRaised i σ hσ hpc =>
      exact h.stopGoesOn hσ (fun r m hm hψm => ⟨m, hm, hψm⟩) rfl rfl fun _ _ _ _ _ => trivial
  | lastNodeStops n v hv hn hlast hstate =>
      have := h.stop true
      rw [stop_of_live true hstate] at this
      exact this.frame rfl rfl rfl
  | stackStops r m hm => exact h.next (Objects.less_of_set hm (hψ.of_stop m)) rfl fun _ => .inl
  | managerStopped r m m' hm hm' =>
      exact h.next (Objects.less_of_set hm (hψ.of_managerStopped m m' hm')) rfl fun _ => .inl
  | managerStopRaised r m m' hm hm' =>
      exact h.next (Objects.less_of_set hm (hψ.of_managerStopRaised m m' hm')) rfl fun _ => .inl
  | _ => exact h.frame rfl rfl rfl

/-- Stacks are gone as long as none gets `ψ` and the cluster does not become
terminated. -/
theorem StacksGone.next (h : StacksGone ψ s)
    (hless : ∀ (r : Nat) (m' : ManagerStack), s'.allStacks[r]? = some m' → ψ m' →
      ∃ m, s.allStacks[r]? = some m ∧ ψ m)
    (hstate : s'.state = .terminated → s.state = .terminated) : StacksGone ψ s' := by
  intro hst r m' hm' hψ
  obtain ⟨m, hm, hψm⟩ := hless r m' hm' hψ
  exact h (hstate hst) r m hm hψm

/-- **A cluster that its stop made terminated has no stack with `ψ`**, when no
request registers a stack on a terminated one. -/
theorem StacksGone.step (hψ : StackPredicate ψ) (hcov : StacksCovered ψ s) (h : StacksGone ψ s)
    (hok : whileRunning registersStack s a = true) (hs : Step digest s a s') : StacksGone ψ s' := by
  cases hs with
  | startPasses q => intro hst; cases hst
  | startDone t c => intro hst; cases hst
  | creates t c goal hash hc hstage =>
      intro hst
      have hterm : s.state = .terminated := hst
      simp [whileRunning, registersStack, isRunning, hterm] at hok
  | managerStarted t c goal hash r m m' hc hstage hm hm' =>
      exact h.next (Objects.less_of_set hm (hψ.of_managerStarted m m' hm')) id
  | handsOut t c goal hash r m m' stage L hc hstage hm hm' =>
      exact h.next (Objects.less_of_set hm (hψ.of_managerStarted m m' hm')) id
  | managerStartRaised t c goal hash r m m' L hc hstage hm hm' =>
      exact h.next (Objects.less_of_set hm (hψ.of_managerStartRaised m m' hm')) id
  | stopPasses ce => intro hst; cases hst
  | lastNodeStops n v => intro hst; cases hst
  | stopsStack i r σ todo busy m hσ hpc hm =>
      exact h.next (Objects.less_of_set hm (hψ.of_stop m)) id
  | paymentStopped i σ hσ hpc => exact fun _ => hcov.none_of_payment hσ hpc
  | stackStops r m hm => exact h.next (Objects.less_of_set hm (hψ.of_stop m)) id
  | managerStopped r m m' hm hm' =>
      exact h.next (Objects.less_of_set hm (hψ.of_managerStopped m m' hm')) id
  | managerStopRaised r m m' hm hm' =>
      exact h.next (Objects.less_of_set hm (hψ.of_managerStopRaised m m' hm')) id
  | _ => exact h

/-! ### Well-formed stacks -/

/-- The stack that a step calls `stop()` on. -/
def stoppedStack (s : Cluster) : Act → Option Nat
  | .stopping i .stack =>
      match (s.stops[i]?).map StopRun.pc with
      | some (.managerStacks (r :: _) _) => some r
      | _ => none
  | .stackStop r => some r
  | _ => none

/-- Every stack ever created is well formed. -/
def StacksWf (s : Cluster) : Prop :=
  ∀ (r : Nat) (m : ManagerStack), s.allStacks[r]? = some m → m.Wf

theorem StacksWf.set (h : StacksWf s) {r : Nat} {m' : ManagerStack} (hm' : m'.Wf)
    (hall : s'.allStacks = s.allStacks.set r m') : StacksWf s' := by
  intro k w hw
  rw [hall] at hw
  rcases Objects.set_cases hw with ⟨-, rfl, -⟩ | ⟨-, hold⟩
  · exact hm'
  · exact h k w hold

/-- Stacks stay well formed as long as none is stopped while it starts. -/
theorem StacksWf.step (h : StacksWf s)
    (hover : ∀ r m, stoppedStack s a = some r → s.allStacks[r]? = some m →
      m.isRunning = true → m.startLoop.inProgress = false)
    (hs : Step digest s a s') : StacksWf s' := by
  cases hs with
  | creates t c goal hash =>
      intro k w hw
      rcases Objects.append_cases hw with hold | ⟨-, rfl⟩
      · exact h k w hold
      · exact ManagerStack.wf_create_start
  | managerStarted t c goal hash r m m' hc hstage hm hm' =>
      exact h.set ((h r m hm).managerStarted hm') rfl
  | handsOut t c goal hash r m m' stage L hc hstage hm hm' =>
      exact h.set ((h r m hm).managerStarted hm') rfl
  | managerStartRaised t c goal hash r m m' L hc hstage hm hm' =>
      exact h.set ((h r m hm).managerStartRaised hm') rfl
  | stopsStack i r σ todo busy m hσ hpc hm =>
      exact h.set ((h r m hm).stop (hover r m (by simp [stoppedStack, hσ, hpc]) hm)) rfl
  | stackStops r m hm => exact h.set ((h r m hm).stop (hover r m rfl hm)) rfl
  | managerStopped r m m' hm hm' => exact h.set ((h r m hm).managerStopped hm') rfl
  | managerStopRaised r m m' hm hm' => exact h.set ((h r m hm).managerStopRaised hm') rfl
  | _ => exact h

end Cluster
