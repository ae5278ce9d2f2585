import RayOnGolem.Cluster
import RayOnGolem.ClusterNodeStep

/-!
# A node as its cluster sees it

A cluster keeps a `NodeView` of each of its nodes, which changes by five
operations.  Here the full model of a node is projected to that view, so that what
is proved of a cluster holds with real nodes in place of the views.

Main results:

* `ClusterNode.Coherent.step` -- every step of a node is one of the five operations
  on its view or leaves the view alone, and calls `on_stop` when the operation does;
* `ClusterNode.Reach.view` -- a run of a node is seen as a run of its view;
* `Cluster.follows_node` -- the model of the cluster has a step for each operation.

The cluster schedules the start of a node once, right after it created the node; a
start that is scheduled for a terminated node would make it pending again
(`scheduledInTime` excludes it).
-/

/-- The `call_events` of a stop in progress. -/
def StopPc.callEvents : StopPc → Option Bool
  | .idle => none
  | .cancelling ce | .sidecars ce | .activityDesc ce _ | .activityDestroy ce _ => some ce

@[simp] theorem StopPc.callEvents_idle : StopPc.callEvents .idle = none := rfl

/-- The start task has neither made the node run nor ended. -/
def StartPc.early (pc : StartPc) : Bool := pc == .scheduled || pc.creating

namespace NodeView

/-- What can happen to a node, as its cluster sees it. -/
inductive Act
  | ready
  | startFailed
  | stop (callEvents : Bool)
  | stopped
  | stopRaised
  deriving DecidableEq, Repr

/-- One operation. -/
def step (v : NodeView) : Act → Option NodeView
  | .ready => v.ready
  | .startFailed => v.startFailed
  | .stop callEvents => some (v.stop callEvents)
  | .stopped => v.stopped
  | .stopRaised => v.stopRaised

/-- The callbacks that an operation spawns. -/
def spawned (v : NodeView) : Act → Nat
  | .stopped => if v.stopping = some true then 1 else 0
  | _ => 0

instance : Inhabited NodeView :=
  ⟨{ nodeId := 0, isHead := false, managerStack := 0, priorityManagerStack := none }⟩

end NodeView

namespace ClusterNode

open Runs

variable {n n' : ClusterNode} {v : NodeView} {a : Act}

/-- The view of a node; the rest of `v` never changes. -/
def view (v : NodeView) (n : ClusterNode) : NodeView :=
  { v with state := n.state, stopping := n.stopPc.callEvents }

/-- A start is scheduled for a node that is not terminated. -/
def scheduledInTime (n : ClusterNode) : Act → Bool
  | .scheduleStart => n.state != .terminated
  | _ => true

/-- State, start task and stop fit together. -/
structure Coherent (n : ClusterNode) : Prop where
  starting : n.startTask.early = true →
    (∃ ce, n.stopPc = .cancelling ce) ∨ n.stopPc = .idle ∧ n.state = .pending
  stopping : n.stopPc ≠ .idle → n.state = .terminating

theorem coherent_initial (h : Initial n) : Coherent n := by
  obtain ⟨g, p, kinds, rfl⟩ := h
  exact ⟨fun hearly => (by cases hearly), fun hne => absurd rfl hne⟩

/-- A step is one of the five operations or leaves the view alone. -/
def Moves (v : NodeView) (n n' : ClusterNode) : Prop :=
  (n'.view v = n.view v ∧ n'.onStopCalls = n.onStopCalls) ∨
    ∃ b, (n.view v).step b = some (n'.view v) ∧
      n'.onStopCalls = n.onStopCalls + (n.view v).spawned b

/-! ### The kinds of steps -/

/-- Neither the state nor the stop changes. -/
theorem Coherent.goesOn (h : Coherent n) (hstate : n'.state = n.state)
    (hstop : n'.stopPc = n.stopPc) (hcalls : n'.onStopCalls = n.onStopCalls)
    (hearly : n'.startTask.early = true → n.startTask.early = true) :
    Coherent n' ∧ Moves v n n' := by
  refine ⟨⟨fun hpc => ?_, ?_⟩, .inl ⟨?_, hcalls⟩⟩
  · rw [hstop, hstate]
    exact h.starting (hearly hpc)
  · rw [hstop, hstate]
    exact h.stopping
  · rw [view, view, hstate, hstop]

/-- The stop goes on to its next await. -/
theorem Coherent.stopGoesOn (h : Coherent n) (hstate : n'.state = n.state)
    (hce : n'.stopPc.callEvents = n.stopPc.callEvents) (hne : n.stopPc ≠ .idle)
    (hcalls : n'.onStopCalls = n.onStopCalls) (hstart : n'.startTask.early = false) :
    Coherent n' ∧ Moves v n n' := by
  refine ⟨⟨fun hpc => ?_, fun _ => hstate.trans (h.stopping hne)⟩, .inl ⟨?_, hcalls⟩⟩
  · rw [hstart] at hpc
    cases hpc
  · rw [view, view, hstate, hce]

/-- Where the start task stands while it goes on. -/
theorem Coherent.pending (h : Coherent n) (hn : ∀ ce, n.stopPc ≠ .cancelling ce)
    (hearly : n.startTask.early = true) : n.stopPc = .idle ∧ n.state = .pending := by
  rcases h.starting hearly with ⟨ce, hce⟩ | hpending
  · exact absurd hce (hn ce)
  · exact hpending

/-- Past the cancellation a stop has the start task behind itself. -/
theorem Coherent.not_early (h : Coherent n) (hne : n.stopPc ≠ .idle)
    (hn : ∀ ce, n.stopPc ≠ .cancelling ce) : n.startTask.early = false := by
  by_contra hearly
  exact hne (h.pending hn (by simpa using hearly)).1

/-- `_create_activity()` raised. -/
theorem Coherent.createFailed (h : Coherent n) (hn : ∀ ce, n.stopPc ≠ .cancelling ce)
    (hearly : n.startTask.early = true) (e : Exc) :
    Coherent (n.createFailed e) ∧ Moves v n (n.createFailed e) := by
  obtain ⟨hstop, hstate⟩ := h.pending hn hearly
  unfold ClusterNode.createFailed
  split
  · exact h.goesOn rfl rfl rfl fun _ => hearly
  · refine ⟨⟨fun hpc => (by cases hpc), fun hne => absurd hstop hne⟩, .inr ⟨.startFailed, ?_, rfl⟩⟩
    simp [NodeView.step, NodeView.startFailed, view, hstate]

/-- The activity is ready. -/
theorem Coherent.activityReady (h : Coherent n) (hn : ∀ ce, n.stopPc ≠ .cancelling ce)
    (hearly : n.startTask.early = true) (i : Nat) (ip : String) :
    Coherent (n.activityReady i ip) ∧ Moves v n (n.activityReady i ip) := by
  obtain ⟨hstop, hstate⟩ := h.pending hn hearly
  refine ⟨⟨fun hpc => (by cases hpc), fun hne => absurd hstop hne⟩, .inr ⟨.ready, ?_, rfl⟩⟩
  simp [NodeView.step, NodeView.ready, view, ClusterNode.activityReady, hstate]

/-- `stop()` takes effect. -/
theorem Coherent.stops {ce : Bool} (hlive : n.state.live = true)
    (hstop : n'.stopPc.callEvents = some ce) (hstate : n'.state = .terminating)
    (hcalls : n'.onStopCalls = n.onStopCalls)
    (hearly : n'.startTask.early = true → ∃ ce, n'.stopPc = .cancelling ce) :
    Coherent n' ∧ Moves v n n' := by
  refine ⟨⟨fun hpc => .inl (hearly hpc), fun _ => hstate⟩, .inr ⟨.stop ce, ?_, hcalls⟩⟩
  simp [NodeView.step, NodeView.stop, view, hstop, hstate, hlive]

/-- `stop()` comes to its end. -/
theorem Coherent.finishStop {ce : Bool} (hce : n.stopPc.callEvents = some ce)
    (hstart : n.startTask.early = false) :
    Coherent (n.finishStop ce) ∧ Moves v n (n.finishStop ce) := by
  refine ⟨⟨fun hpc => ?_, fun hne => absurd rfl hne⟩, .inr ⟨.stopped, ?_, ?_⟩⟩
  · have hpc : n.startTask.early = true := hpc
    rw [hstart] at hpc
    cases hpc
  · simp [NodeView.step, NodeView.stopped, view, ClusterNode.finishStop, hce]
  · cases ce <;> simp [ClusterNode.finishStop, NodeView.spawned, view, hce]

/-- `stop()` raises. -/
theorem Coherent.stopRaised {ce : Bool} (hce : n.stopPc.callEvents = some ce)
    (hstop : n'.stopPc = .idle) (hstate : n'.state = n.state)
    (hcalls : n'.onStopCalls = n.onStopCalls) (hstart : n'.startTask.early = false) :
    Coherent n' ∧ Moves v n n' := by
  refine ⟨⟨fun hpc => ?_, fun hne => absurd hstop hne⟩, .inr ⟨.stopRaised, ?_, hcalls⟩⟩
  · rw [hstart] at hpc
    cases hpc
  · simp [NodeView.step, NodeView.stopRaised, view, hce, hstop, hstate]

/-- A start is scheduled for a node that is not terminated. -/
theorem Coherent.schedules (h : Coherent n) (hrunning : n.state ≠ .running)
    (hterminating : n.state ≠ .terminating) (hterminated : n.state ≠ .terminated) :
    Coherent { n with startTask := .scheduled } ∧ Moves v n { n with startTask := .scheduled } := by
  have hstate : n.state = .pending := by
    cases hst : n.state <;> simp [hst] at hrunning hterminating hterminated ⊢
  have hstop : n.stopPc = .idle := by
    by_contra hne
    exact hterminating (h.stopping hne)
  exact ⟨⟨fun _ => .inr ⟨hstop, hstate⟩, h.stopping⟩, .inl ⟨rfl, rfl⟩⟩

theorem early_of_creating {pc : StartPc} (h : pc.creating = true) : pc.early = true := by
  simp [StartPc.early, h]

/-- **Every step of a node is one of the five operations on its view**, or leaves the
view alone. -/
theorem Coherent.step (h : Coherent n) (hok : scheduledInTime n a = true)
    (hs : n.step a = some n') : Coherent n' ∧ Moves v n n' := by
  cases step_cases hs with
  | scheduleSkips => exact h.goesOn rfl rfl rfl id
  | schedules hover hrunning hterminating =>
      exact h.schedules hrunning hterminating (by simpa [scheduledInTime] using hok)
  | stopSkips ce hstate => exact h.goesOn rfl rfl rfl id
  | stopsAtOnce ce hlive hover =>
      exact Coherent.stops hlive rfl rfl rfl fun hpc => (by cases hpc)
  | stopCancels ce hlive hover => exact Coherent.stops hlive rfl rfl rfl fun _ => ⟨ce, rfl⟩
  | startSkips hgoing hpc hstate => exact h.goesOn rfl rfl rfl fun hearly => (by cases hearly)
  | begins hgoing hpc =>
      have hearly : n.startTask.early = true := by rw [hpc]; rfl
      obtain ⟨-, hstate⟩ := h.pending hgoing hearly
      exact h.goesOn hstate.symm rfl rfl fun _ => hearly
  | goesOn b pc hgoing hcreating =>
      exact h.goesOn rfl rfl rfl fun _ => early_of_creating hcreating
  | created hgoing hpc => exact h.goesOn rfl rfl rfl fun _ => (by rw [hpc]; rfl)
  | ready i ip step hgoing hpc => exact h.activityReady hgoing (by rw [hpc]; rfl) i ip
  | destroys i e hgoing hpc => exact h.goesOn rfl rfl rfl fun _ => (by rw [hpc]; rfl)
  | fails b e hgoing hcreating => exact h.createFailed hgoing (early_of_creating hcreating) e
  | startReturns hgoing hpc => exact h.goesOn rfl rfl rfl fun hearly => (by cases hearly)
  | sidecar i b c c' => exact h.goesOn rfl rfl rfl id
  | sidecarStartFails i c hc hwaiting hpc =>
      exact h.goesOn rfl rfl rfl fun hearly => (by cases hearly)
  | sidecarStopFails i c ce hc hwaiting hpc =>
      have hearly := h.not_early (by simp [hpc]) (by simp [hpc])
      exact Coherent.stopRaised (by rw [hpc]; rfl) rfl rfl rfl hearly
  | cancelled ce cs hpc => exact h.stopGoesOn rfl rfl (by simp [hpc]) rfl rfl
  | resumes ce hpc =>
      have hce : (StopPc.sidecars ce).callEvents = n.stopPc.callEvents := by rw [hpc]; rfl
      exact h.stopGoesOn rfl hce (by simp [hpc]) rfl rfl
  | describes ce i hpc =>
      have hce : (StopPc.activityDesc ce i).callEvents = n.stopPc.callEvents := by rw [hpc]; rfl
      have hne : n.stopPc ≠ .idle := by simp [hpc]
      exact h.stopGoesOn rfl hce hne rfl (h.not_early hne (by simp [hpc]))
  | stopsWithout ce hpc =>
      have hearly := h.not_early (by simp [hpc]) (by simp [hpc])
      exact Coherent.finishStop (by rw [hpc]; rfl) hearly
  | stopDestroys ce i hpc =>
      have hce : (StopPc.activityDestroy ce i).callEvents = n.stopPc.callEvents := by
        rw [hpc]; rfl
      have hne : n.stopPc ≠ .idle := by simp [hpc]
      exact h.stopGoesOn rfl hce hne rfl (h.not_early hne (by simp [hpc]))
  | descRaised ce i e hpc =>
      have hearly := h.not_early (by simp [hpc]) (by simp [hpc])
      exact Coherent.stopRaised (by rw [hpc]; rfl) rfl rfl rfl hearly
  | stopReturns ce i hpc =>
      have hearly := h.not_early (by simp [hpc]) (by simp [hpc])
      exact Coherent.finishStop (by rw [hpc]; rfl) hearly

/-- **The view of a node is a node of the cluster's model**: what a run of the full
model reaches is seen as what a run of the five operations reaches from a node that
was just created. -/
theorem Reach.view (h : Reach Initial step (fun n a => scheduledInTime n a) n) :
    Reachable (fun w => w = { v with state := .pending, stopping := none }) NodeView.step
      (n.view v) := by
  have hstrong := (Reach.strengthen (fun n hinit => coherent_initial hinit)
    (fun n a n' hcoherent hok hstep => (hcoherent.step (v := v) hok hstep).1) h).1
  refine Reach.project (f := ClusterNode.view v) ?_ (fun n a n' hok hstep => ?_) hstrong
  · rintro n ⟨g, p, kinds, rfl⟩
    rfl
  · rcases (hok.2.step (v := v) hok.1 hstep).2 with ⟨hsame, -⟩ | ⟨b, hb, -⟩
    · exact .inl hsame
    · exact .inr ⟨b, trivial, hb⟩

end ClusterNode

namespace Cluster

variable {digest : NodeConfigData → String} {s : Cluster} {n : Nat} {v v' : NodeView}

/-- **The cluster's model follows its nodes**: whatever a node does that the cluster
does not call for itself (a stop without events), the model of the cluster has a step
for it, which spawns the same callbacks. -/
theorem follows_node {b : NodeView.Act} (hv : s.allNodes[n]? = some v)
    (hb : v.step b = some v') (hown : b ≠ .stop false) :
    ∃ c s', s.step digest (.node n c) = some s' ∧ s'.allNodes = s.allNodes.set n v' ∧
      s'.events = s.events ++ List.replicate (v.spawned b) n := by
  cases b with
  | ready =>
      have hb : v.ready = some v' := hb
      exact ⟨.ready, s.setNode n v', by simp [step, stepNode, hv, hb], rfl, by
        simp [setNode, NodeView.spawned]⟩
  | startFailed =>
      have hb : v.startFailed = some v' := hb
      exact ⟨.startFailed, s.setNode n v', by simp [step, stepNode, hv, hb], rfl, by
        simp [setNode, NodeView.spawned]⟩
  | stop ce =>
      obtain rfl : ce = true := by simpa using hown
      obtain rfl : v.stop true = v' := Option.some.inj hb
      exact ⟨.stop, s.setNode n (v.stop true), by simp [step, stepNode, hv], rfl, by
        simp [setNode, NodeView.spawned]⟩
  | stopped =>
      have hb : v.stopped = some v' := hb
      refine ⟨.stopped, _, by simp only [step, stepNode, hv, hb, Option.map_some]; rfl, rfl, ?_⟩
      show (if v.stopping = some true then s.events ++ [n] else s.events) = _
      unfold NodeView.spawned
      split <;> simp
  | stopRaised =>
      have hb : v.stopRaised = some v' := hb
      exact ⟨.stopRaised, s.setNode n v', by simp [step, stepNode, hv, hb], rfl, by
        simp [setNode, NodeView.spawned]⟩

end Cluster
