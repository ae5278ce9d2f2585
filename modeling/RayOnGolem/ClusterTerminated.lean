import RayOnGolem.ClusterCoverage

/-!
# A terminated cluster owns nothing that runs

`Cluster.stop` checks nothing after its awaits: that the cluster is clean when
it writes `terminated` depends on what its snapshots contained and on whether
the objects it skipped were really stopped.

Main results:

* `terminated_clean` -- in every run in which nodes and stacks are registered
  only on a cluster that is neither terminated nor being stopped, no stop skips
  an object that somebody else is still stopping, and no stack is stopped while
  it starts (`stopsClean`), a terminated cluster has only terminated nodes and
  stopped stacks, and its payment manager is not started;
* `terminated_not_clean` -- a request that overlaps a stop leaves a pending node
  and a running stack behind on a terminated cluster.
-/

namespace Cluster

open Runs

variable {digest : NodeConfigData → String} {s s' : Cluster} {a : Act}

/-- A stop finds the node or stack at hand either untouched or stopped for good. -/
def skipsNothing (s : Cluster) : Act → Bool
  | .stopping i .node =>
      match (s.stops[i]?).map StopRun.pc with
      | some (.nodes (n :: _) _) => (s.allNodes[n]?).map NodeView.state != some .terminating
      | _ => true
  | .stopping i .stack =>
      match (s.stops[i]?).map StopRun.pc with
      | some (.managerStacks (r :: _) _) =>
          match s.allStacks[r]? with
          | some m => m.isRunning || m.stopLoop == .returned
          | none => true
      | _ => true
  | _ => true

/-- No stack is stopped while its start is under way. -/
def stopsNoStart (s : Cluster) (a : Act) : Bool :=
  match (stoppedStack s a).bind fun r => s.allStacks[r]? with
  | some m => !m.isRunning || !m.startLoop.inProgress
  | none => true

/-- **The condition** on the state before a step. -/
def stopsClean (s : Cluster) (a : Act) : Bool :=
  besideStop registersNodes s a && whileRunning registersNodes s a &&
    besideStop registersStack s a && whileRunning registersStack s a &&
    replacesNothing s a && skipsNothing s a && stopsNoStart s a

theorem stopsClean_iff : stopsClean s a = true ↔
    besideStop registersNodes s a = true ∧ whileRunning registersNodes s a = true ∧
      besideStop registersStack s a = true ∧ whileRunning registersStack s a = true ∧
      replacesNothing s a = true ∧ skipsNothing s a = true ∧ stopsNoStart s a = true := by
  simp only [stopsClean, Bool.and_eq_true, and_assoc]

/-- The claimed property. -/
def Clean (s : Cluster) : Prop :=
  s.state = .terminated →
    (∀ v ∈ s.allNodes, v.state = .terminated) ∧ (∀ m ∈ s.allStacks, m.Stopped) ∧
      s.paymentStarted = false

/-- The payment manager of a terminated cluster is not started. -/
def PaymentStopped (s : Cluster) : Prop := s.state = .terminated → s.paymentStarted = false

/-- A started payment manager belongs to a cluster that is not terminated. -/
theorem PaymentStopped.step (h : PaymentStopped s) (hs : Step digest s a s') :
    PaymentStopped s' := by
  cases hs with
  | startPasses q => intro hst; cases hst
  | startDone t c => intro hst; cases hst
  | stopPasses ce => intro hst; cases hst
  | paymentStopped i σ => exact fun _ => rfl
  | lastNodeStops n v => intro hst; cases hst
  | _ => exact h

/-- The invariant behind `Clean`. -/
structure CleanInv (s : Cluster) : Prop where
  nodes : NodesCovered (fun st => st ≠ .terminated) s
  nodesGone : NodesGone (fun st => st ≠ .terminated) s
  managerStacks : StacksCovered (fun m => ¬ m.Stopped) s
  stacksGone : StacksGone (fun m => ¬ m.Stopped) s
  wf : StacksWf s
  payment : PaymentStopped s

theorem cleanInv_initial (h : Initial s) : CleanInv s where
  nodes := nodesCovered_initial h
  nodesGone := nodesGone_initial h
  managerStacks := stacksCovered_initial h
  stacksGone := stacksGone_initial h
  wf := by
    subst h
    intro r m hm
    simp at hm
  payment := by
    subst h
    exact fun _ => rfl

theorem CleanInv.clean (h : CleanInv s) : Clean s := by
  intro hst
  refine ⟨fun v hv => ?_, fun m hm => ?_, h.payment hst⟩
  · obtain ⟨n, hn⟩ := List.mem_iff_getElem?.mp hv
    simpa using h.nodesGone hst n v hn
  · obtain ⟨r, hr⟩ := List.mem_iff_getElem?.mp hm
    simpa using h.stacksGone hst r m hr

/-- One guarded step keeps the invariant. -/
theorem CleanInv.step (h : CleanInv s) (hok : stopsClean s a = true)
    (hs : Step digest s a s') : CleanInv s' := by
  obtain ⟨hbeside, hrunning, hbeside', hrunning', hnew, hskip, hstart⟩ := stopsClean_iff.mp hok
  have hreturned : ∀ (r : Nat) (m : ManagerStack), s.allStacks[r]? = some m →
      m.stopLoop = .returned → ¬ ¬ m.Stopped :=
    fun r m hm hret hnot => hnot ((h.wf r m hm).stopped_of_returned hret)
  have hskipNode : ∀ i σ n todo busy (v : NodeView), a = .stopping i .node →
      s.stops[i]? = some σ → σ.pc = .nodes (n :: todo) busy → s.allNodes[n]? = some v →
        v.state = .terminating → ¬ v.state ≠ .terminated := by
    rintro i σ n todo busy v rfl hσ hpc hv hst
    simp [skipsNothing, hσ, hpc, hv, hst] at hskip
  have hskipStack : ∀ i σ r todo busy m, a = .stopping i .stack → s.stops[i]? = some σ →
      σ.pc = .managerStacks (r :: todo) busy → s.allStacks[r]? = some m →
        m.isRunning = false → ¬ ¬ m.Stopped := by
    rintro i σ r todo busy m rfl hσ hpc hm hrun
    apply hreturned r m hm
    simpa [skipsNothing, hσ, hpc, hm, hrun] using hskip
  exact {
    nodes := h.nodes.step nodePredicate_not_terminated hbeside hskipNode hs
    nodesGone := h.nodesGone.step nodePredicate_not_terminated h.nodes hrunning hs
    managerStacks :=
      h.managerStacks.step stackPredicate_not_stopped hbeside' hnew hskipStack hreturned hs
    stacksGone := h.stacksGone.step stackPredicate_not_stopped h.managerStacks hrunning' hs
    wf := by
      refine h.wf.step (fun r m hr hm hrun => ?_) hs
      simpa [stopsNoStart, hr, hm, hrun] using hstart
    payment := h.payment.step hs }

/-- **A terminated cluster owns nothing that runs**, in every run whose steps
all meet the condition, whatever the interleaving of its tasks and the outcomes
of the awaited operations. -/
theorem terminated_clean (h : Reach Initial (step digest) (fun s a => stopsClean s a) s) :
    Clean s :=
  (Reach.invariant (I := CleanInv) (fun _ => cleanInv_initial)
    (fun _ _ _ hi hok hstep => hi.step hok (step_cases hstep)) h).clean

/-! ### Two runs -/

/-- A configuration with the default image and without a priority subnet. -/
def publicConfig : NodeConfigData where
  subnetTag := "public"
  demand := { imageTag := some "golem/ray-on-golem:latest" }

/-- Another one, which also opens a URL. -/
def outboundConfig : NodeConfigData where
  subnetTag := "public"
  demand := {
    imageTag := some "golem/ray-on-golem:latest"
    outboundUrls := ["https://pypi.org"] }

/-- The md5 digests of the JSON of the configurations in the examples. -/
def exampleDigest (c : NodeConfigData) : String :=
  if c = publicConfig then "0a51a64dde9446dce3716c58daff670d"
  else if c = outboundConfig then "cb5cfe886c27a20ade1ba0f7dc1052c9"
  else "b83b37d7976ed0f6fc568d98c295f66c"

/-- `start()` and the first half of `request_nodes()` by call `t`, up to the
moment when it awaits `ManagerStack.create`. -/
def requestUntilCreate (q : Request) (t : Nat) (started : Bool) : List Act :=
  [.start q] ++ (if started then [] else [.call t .startDone]) ++
    [.call t .prepare, .call t .lookup]

/-- The second half: the new stack is started and `k` nodes are created. -/
def requestAfterCreate (t k : Nat) : List Act :=
  [.call t .create, .call t .managerStarted, .call t .managerStarted, .call t .managerStarted,
    .call t (.finishRequest k)]

/-- Node `n` is stopped, which was the last one, and the cluster's stop `i`
finds `nodes` nodes and one stack with three managers. -/
def stopLastNode (n i nodes : Nat) : List Act :=
  [.node n .stop, .node n .stopped, .onNodeStop n] ++
    List.replicate nodes (.stopping i .node) ++
    [.stopping i .nodesDone, .stopping i .stack, .stack 0 .managerStopped,
      .stack 0 .managerStopped, .stack 0 .managerStopped, .stopping i .stacksDone,
      .stopping i .paymentStopped]

/-- One worker is requested, runs, and is terminated. -/
def plainLife : List Act :=
  requestUntilCreate ⟨publicConfig, 1, false⟩ 0 false ++ requestAfterCreate 0 1 ++
    [.node 0 .ready] ++ stopLastNode 0 0 1

theorem terminated_clean_plain :
    ∃ s, exec (guarded (step exampleDigest) stopsClean) plainLife {} = some s ∧
      s.state = .terminated ∧ s.allNodes.length = 1 ∧ Clean s := by
  refine ⟨_, rfl, rfl, rfl, ?_⟩
  have hreach : Reach Initial (step exampleDigest) (fun s a => stopsClean s a) _ :=
    Reach.execGuarded plainLife (.start rfl) rfl
  exact terminated_clean hreach

/-- While a second request creates its stack, the only node stops and the
cluster with it; then the request goes on. -/
def overlappingLife : List Act :=
  requestUntilCreate ⟨publicConfig, 1, false⟩ 0 false ++ requestAfterCreate 0 1 ++
    [.node 0 .ready] ++ requestUntilCreate ⟨outboundConfig, 1, false⟩ 1 true ++
    stopLastNode 0 0 1 ++ requestAfterCreate 1 1

/-- **A stopped cluster with a node and a stack**: not every reachable
terminated cluster is clean. -/
theorem terminated_not_clean :
    ¬ ∀ s, Reachable Initial (step exampleDigest) s → Clean s := by
  intro hall
  have hrun : ∃ s, exec (step exampleDigest) overlappingLife {} = some s ∧
      s.state = .terminated ∧ (s.allNodes[1]?).map NodeView.state = some .pending ∧
      (s.allStacks[1]?).map ManagerStack.isRunning = some true :=
    ⟨_, rfl, rfl, rfl, rfl⟩
  obtain ⟨s, hs, hst, hnode, -⟩ := hrun
  obtain ⟨v, hv, hpending⟩ := Option.map_eq_some_iff.mp hnode
  have hclean := hall s (Reach.exec overlappingLife (.start rfl) hs) hst
  have := hclean.1 v (List.mem_of_getElem? hv)
  simp [this] at hpending

end Cluster
