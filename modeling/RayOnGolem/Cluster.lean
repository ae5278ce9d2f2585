import RayOnGolem.Lib.Dict
import RayOnGolem.Lib.GuardedRun
import RayOnGolem.Lib.LockTable
import RayOnGolem.ManagerStack
import RayOnGolem.Models

/-!
# One cluster and its tasks

A `Cluster` object under every interleaving of its methods.  The tasks that
run them are part of the state: calls of `start` and `request_nodes`, runs of
`stop`, the child tasks that `gather` makes for nodes and stacks, and the
on-stop callbacks of nodes that are spawned but have not run.

A step runs a task up to its next await, or ends what it awaits; awaited
operations may return or raise.  Where the code cannot suspend (taking a free
lock, for instance) the model may still let other tasks in, so that it has all
interleavings of the code and a few more.

Nodes and manager stacks are objects: they are kept in the order of their
creation and named by their position, whatever the dictionaries hold.  Of a
node the cluster sees its state and whether a `stop` of it is in progress
(`NodeView`).
-/

/-- A node as its cluster sees it.  `stopping` is the `call_events` of the
`stop()` that is in progress. -/
structure NodeView where
  nodeId : Nat
  isHead : Bool
  managerStack : Nat
  priorityManagerStack : Option Nat
  state : NodeState := .pending
  stopping : Option Bool := none
  deriving DecidableEq, Repr

namespace NodeView

/-- `manager_stacks`. -/
def managerStacks (v : NodeView) : List Nat :=
  match v.priorityManagerStack with
  | some p => [v.managerStack, p]
  | none => [v.managerStack]

/-- `start()` succeeds. -/
def ready (v : NodeView) : Option NodeView :=
  if v.state = .pending then some { v with state := .running } else none

/-- `start()` fails; no callback is called. -/
def startFailed (v : NodeView) : Option NodeView :=
  if v.state = .pending then some { v with state := .terminated } else none

/-- `stop()` up to its first await. -/
def stop (v : NodeView) (callEvents : Bool) : NodeView :=
  if v.state.live then { v with state := .terminating, stopping := some callEvents } else v

/-- `stop()` returns. -/
def stopped (v : NodeView) : Option NodeView :=
  match v.stopping with
  | some _ => some { v with state := .terminated, stopping := none }
  | none => none

/-- `stop()` raises: the node stays as it is. -/
def stopRaised (v : NodeView) : Option NodeView :=
  match v.stopping with
  | some _ => some { v with stopping := none }
  | none => none

end NodeView

/-- Which stack `_prepare_manager_stacks` is after: the priority one, or the
main one once the priority one is known. -/
inductive Goal
  | priority
  | main (priorityStack : Option Nat)
  deriving DecidableEq, Repr

/-- Where a call stands: in `start()`, between the two methods, or in
`request_nodes()`. -/
inductive Stage
  | starting
  | started
  | locking (goal : Goal) (stackHash : String)
  | creating (goal : Goal) (stackHash : String)
  | startingStack (goal : Goal) (stackHash : String) (stack : Nat)
  | ready (stack : Nat) (priorityStack : Option Nat)
  | over
  deriving DecidableEq, Repr

/-- The arguments of a request. -/
structure Request where
  nodeConfig : NodeConfigData
  count : Nat
  isHead : Bool
  deriving DecidableEq, Repr

/-- A call of `start()` or `request_nodes()`: its arguments as they were
parsed, the configuration object as it is now, and the stage. -/
structure Call where
  request : Request
  nodeConfig : NodeConfigData
  stage : Stage
  deriving DecidableEq, Repr

/-- Where a `stop()` stands: nodes and then stacks whose child task has not run
(`todo`) and whose own `stop()` it awaits (`busy`), then the payment manager. -/
inductive StopStage
  | nodes (todo busy : List Nat)
  | managerStacks (todo busy : List Nat)
  | payment
  | over
  deriving DecidableEq, Repr

/-- A run of `Cluster.stop`. -/
structure StopRun where
  callEvents : Bool
  pc : StopStage
  deriving DecidableEq, Repr

/-- A stack that `_get_or_create_manager_stack` created or handed out: for which
parsed configuration and which subnet tag. -/
structure Handed where
  nodeConfig : NodeConfigData
  subnetTag : String
  stack : Nat
  deriving DecidableEq, Repr

/-- A `Cluster` with everything it ever created and all its tasks.  `events`
are the on-stop callbacks of nodes, `stackStops` the child tasks of
`_on_node_stop`, both spawned but not run; `onStop` counts the spawned on-stop
callbacks of the cluster, and `created` and `handed` record what became of the
stacks. -/
structure Cluster where
  state : NodeState := .terminated
  paymentStarted : Bool := false
  allNodes : List NodeView := []
  nodes : Dict Nat Nat := {}
  nodesIdCounter : Nat := 0
  allStacks : List ManagerStack := []
  managerStacks : Dict String Nat := {}
  managerStacksLocks : LockTable String := LockTable.empty
  calls : List Call := []
  stops : List StopRun := []
  events : List Nat := []
  stackStops : List Nat := []
  onStop : Nat := 0
  created : List Handed := []
  handed : List Handed := []

namespace Cluster

open Runs

/-- `Cluster.is_running()`. -/
def isRunning (s : Cluster) : Bool := s.state != .terminated

/-- The state of node `n` is pending or running. -/
def isLive (s : Cluster) (n : Nat) : Bool :=
  match s.allNodes[n]? with
  | some v => v.state.live
  | none => false

/-- `get_non_terminated_nodes()`. -/
def getNonTerminatedNodes (s : Cluster) : List Nat := s.nodes.values.filter s.isLive

/-- Node `n` uses stack `r`. -/
def uses (s : Cluster) (n r : Nat) : Bool :=
  match s.allNodes[n]? with
  | some v => v.managerStacks.contains r
  | none => false

/-- Some `stop()` is in progress. -/
def stopInProgress (s : Cluster) : Bool := s.stops.any fun σ => σ.pc != .over

/-- A call moves to another stage. -/
def setStage (s : Cluster) (t : Nat) (c : Call) (stage : Stage) : Cluster :=
  { s with calls := s.calls.set t { c with stage := stage } }

/-- A node changes. -/
def setNode (s : Cluster) (n : Nat) (v : NodeView) : Cluster :=
  { s with allNodes := s.allNodes.set n v }

/-- A stack changes. -/
def setStack (s : Cluster) (r : Nat) (m : ManagerStack) : Cluster :=
  { s with allStacks := s.allStacks.set r m }

/-- A `stop()` goes on. -/
def setStop (s : Cluster) (i : Nat) (σ : StopRun) (pc : StopStage) : Cluster :=
  { s with stops := s.stops.set i { σ with pc := pc } }

/-! ### `start` -/

/-- `start()` up to its await, followed by the rest of a request. -/
def start (s : Cluster) (q : Request) : Cluster :=
  if s.state = .pending ∨ s.state = .running then
    { s with calls := s.calls ++ [⟨q, q.nodeConfig, .started⟩] }
  else { s with state := .pending, calls := s.calls ++ [⟨q, q.nodeConfig, .starting⟩] }

/-- `request_nodes()` is called on its own. -/
def enter (s : Cluster) (q : Request) : Cluster :=
  { s with calls := s.calls ++ [⟨q, q.nodeConfig, .started⟩] }

/-- `payment_manager.start()` returns. -/
def startDone (s : Cluster) (t : Nat) (c : Call) : Option Cluster :=
  match c.stage with
  | .starting => some ({ s with state := .running, paymentStarted := true }.setStage t c .started)
  | _ => none

/-- `payment_manager.start()` raises. -/
def startRaised (s : Cluster) (t : Nat) (c : Call) : Option Cluster :=
  match c.stage with
  | .starting => some (s.setStage t c .over)
  | _ => none

/-- The caller of `start()` does not call `request_nodes()`. -/
def leave (s : Cluster) (t : Nat) (c : Call) : Option Cluster :=
  match c.stage with
  | .started => some (s.setStage t c .over)
  | _ => none

/-! ### `request_nodes` -/

/-- The subnet tag of the stack a call is after. -/
def Goal.subnetTag (c : NodeConfigData) : Goal → String
  | .priority => c.priority.getD ""
  | .main _ => c.subnetTag

/-- `_get_or_create_manager_stack` computes the hash and asks for its lock. -/
def seek (digest : NodeConfigData → String) (s : Cluster) (t : Nat) (c : Call) (goal : Goal) :
    Cluster :=
  let stackHash := c.nodeConfig.getHash digest (Goal.subnetTag c.nodeConfig goal)
  { s with managerStacksLocks := s.managerStacksLocks.enter t stackHash }.setStage t c
    (.locking goal stackHash)

/-- `_prepare_manager_stacks` begins. -/
def prepare (digest : NodeConfigData → String) (s : Cluster) (t : Nat) (c : Call) :
    Option Cluster :=
  match c.stage with
  | .started =>
      some (s.seek digest t c (if c.nodeConfig.priority.isSome then .priority else .main none))
  | _ => none

/-- Leave the lock. -/
def release (s : Cluster) (t : Nat) : Option Cluster :=
  (s.managerStacksLocks.exit t).map fun L => { s with managerStacksLocks := L }

/-- `_get_or_create_manager_stack` returns stack `r`. -/
def obtained (digest : NodeConfigData → String) (s : Cluster) (t : Nat) (c : Call) (goal : Goal)
    (r : Nat) : Option Cluster :=
  (s.release t).map fun s =>
    let s := { s with
      handed := ⟨c.request.nodeConfig, Goal.subnetTag c.request.nodeConfig goal, r⟩ :: s.handed }
    match goal with
    | .priority => s.seek digest t c (.main (some r))
    | .main p => s.setStage t c (.ready r p)

/-- The lock is held: the stack is found, or `ManagerStack.create` is awaited. -/
def lookup (digest : NodeConfigData → String) (s : Cluster) (t : Nat) (c : Call) :
    Option Cluster :=
  match c.stage, s.managerStacksLocks.phase t with
  | .locking goal stackHash, .holding _ _ =>
      match s.managerStacks.get stackHash with
      | some r => s.obtained digest t c goal r
      | none => some (s.setStage t c (.creating goal stackHash))
  | _, _ => none

/-- A waiter gets the lock. -/
def wake (s : Cluster) (t : Nat) (c : Call) : Option Cluster :=
  match c.stage with
  | .locking _ _ =>
      (s.managerStacksLocks.resume t).map fun L => { s with managerStacksLocks := L }
  | _ => none

/-- A waiter for the lock is cancelled. -/
def cancelWait (s : Cluster) (t : Nat) (c : Call) : Option Cluster :=
  match c.stage with
  | .locking _ _ => some { s with managerStacksLocks := s.managerStacksLocks.cancel t }
  | _ => none

/-- A cancelled waiter resumes with `CancelledError`. -/
def unwind (s : Cluster) (t : Nat) (c : Call) : Option Cluster :=
  match c.stage with
  | .locking _ _ =>
      (s.managerStacksLocks.unwind t).map fun L =>
        { s with managerStacksLocks := L }.setStage t c .over
  | _ => none

/-- `ManagerStack.create` returns, having prepared the demand of the call's
configuration; the stack is registered and its `start()` is entered. -/
def create (s : Cluster) (t : Nat) (c : Call) : Option Cluster :=
  match c.stage with
  | .creating goal stackHash =>
      let r := s.allStacks.length
      some ({ s with
        allStacks := s.allStacks ++ [ManagerStack.create.start]
        managerStacks := s.managerStacks.set stackHash r
        created := ⟨c.request.nodeConfig, Goal.subnetTag c.request.nodeConfig goal, r⟩ ::
          s.created }.setStage t { c with nodeConfig := c.nodeConfig.prepared }
            (.startingStack goal stackHash r))
  | _ => none

/-- `ManagerStack.create` raises. -/
def createRaised (s : Cluster) (t : Nat) (c : Call) : Option Cluster :=
  match c.stage with
  | .creating _ _ => (s.release t).map fun s => s.setStage t c .over
  | _ => none

/-- A manager of the new stack is started; after the last one the stack is
handed out. -/
def managerStarted (digest : NodeConfigData → String) (s : Cluster) (t : Nat) (c : Call) :
    Option Cluster :=
  match c.stage with
  | .startingStack goal _ r =>
      match s.allStacks[r]? with
      | some m =>
          match m.managerStarted with
          | some m =>
              let s := s.setStack r m
              if m.startLoop = .returned then s.obtained digest t c goal r else some s
          | none => none
      | none => none
  | _ => none

/-- A manager of the new stack raises in `start()`. -/
def managerStartRaised (s : Cluster) (t : Nat) (c : Call) : Option Cluster :=
  match c.stage with
  | .startingStack _ _ r =>
      match s.allStacks[r]? with
      | some m =>
          match m.managerStartRaised with
          | some m => ((s.setStack r m).release t).map fun s => s.setStage t c .over
          | none => none
      | none => none
  | _ => none

/-- `node{nodes_id_counter}` is created, registered and its start scheduled. -/
def addNode (s : Cluster) (isHead : Bool) (stack : Nat) (priorityStack : Option Nat) : Cluster :=
  { s with
    allNodes := s.allNodes ++ [⟨s.nodesIdCounter, isHead, stack, priorityStack, .pending, none⟩]
    nodes := s.nodes.set s.nodesIdCounter s.allNodes.length
    nodesIdCounter := s.nodesIdCounter + 1 }

/-- `k` iterations of the loop over `range(count)`. -/
def addNodes (isHead : Bool) (stack : Nat) (priorityStack : Option Nat) : Nat → Cluster → Cluster
  | 0, s => s
  | k + 1, s => addNodes isHead stack priorityStack k (s.addNode isHead stack priorityStack)

/-- The end of `request_nodes()`: all nodes, or the `k` that were created before
a constructor raised, which has used up another id. -/
def finishRequest (s : Cluster) (t : Nat) (c : Call) (k : Nat) : Option Cluster :=
  match c.stage with
  | .ready r p =>
      let s := addNodes c.request.isHead r p k s
      if k = c.request.count then some (s.setStage t c .over)
      else if k < c.request.count then
        some ({ s with nodesIdCounter := s.nodesIdCounter + 1 }.setStage t c .over)
      else none
  | _ => none

/-! ### `stop` -/

/-- `stop()` up to its first await. -/
def stop (s : Cluster) (callEvents : Bool) : Cluster :=
  if s.state = .terminating ∨ s.state = .terminated then s
  else
    { s with
      state := .terminating
      stops := s.stops ++ [⟨callEvents, .nodes s.nodes.values []⟩] }

/-- The next child task runs `node.stop(call_events=False)`. -/
def stopNode (s : Cluster) (i : Nat) (σ : StopRun) : Option Cluster :=
  match σ.pc with
  | .nodes (n :: todo) busy =>
      match s.allNodes[n]? with
      | some v =>
          some ((s.setNode n (v.stop false)).setStop i σ
            (.nodes todo (if v.state.live then busy ++ [n] else busy)))
      | none => none
  | _ => none

/-- All nodes are stopped; child tasks for the stacks are made. -/
def nodesDone (s : Cluster) (i : Nat) (σ : StopRun) : Option Cluster :=
  match σ.pc with
  | .nodes [] busy =>
      if ∀ n ∈ busy, (s.allNodes[n]?).map NodeView.state = some .terminated then
        some (s.setStop i σ (.managerStacks s.managerStacks.values []))
      else none
  | _ => none

/-- The next child task runs `stack.stop()`. -/
def stopStack (s : Cluster) (i : Nat) (σ : StopRun) : Option Cluster :=
  match σ.pc with
  | .managerStacks (r :: todo) busy =>
      match s.allStacks[r]? with
      | some m =>
          some ((s.setStack r m.stop).setStop i σ
            (.managerStacks todo (if m.isRunning then busy ++ [r] else busy)))
      | none => none
  | _ => none

/-- All stacks are stopped; `payment_manager.stop()` is awaited. -/
def stacksDone (s : Cluster) (i : Nat) (σ : StopRun) : Option Cluster :=
  match σ.pc with
  | .managerStacks [] busy =>
      if ∀ r ∈ busy, (s.allStacks[r]?).map ManagerStack.stopLoop = some .returned then
        some (s.setStop i σ .payment)
      else none
  | _ => none

/-- `payment_manager.stop()` returns: the end of `stop()`. -/
def paymentStopped (s : Cluster) (i : Nat) (σ : StopRun) : Option Cluster :=
  match σ.pc with
  | .payment =>
      some ({ s with
        paymentStarted := false
        state := .terminated
        nodes := {}
        nodesIdCounter := 0
        managerStacks := {}
        managerStacksLocks := s.managerStacksLocks.clear
        onStop := if σ.callEvents then s.onStop + 1 else s.onStop }.setStop i σ .over)
  | _ => none

/-- `stop()` raises because a node, a stack or the payment manager did. -/
def stopRaised (s : Cluster) (i : Nat) (σ : StopRun) : Option Cluster :=
  match σ.pc with
  | .nodes [] busy =>
      if ∃ n ∈ busy, (s.allNodes[n]?).map (fun v => (v.state, v.stopping)) =
          some (.terminating, none) then
        some (s.setStop i σ .over)
      else none
  | .managerStacks [] busy =>
      if ∃ r ∈ busy, (s.allStacks[r]?).map ManagerStack.stopLoop = some .raised then
        some (s.setStop i σ .over)
      else none
  | .payment => some (s.setStop i σ .over)
  | _ => none

/-! ### Nodes and their callbacks -/

/-- The stacks of a node that no non-terminated node uses. -/
def idleStacks (s : Cluster) (v : NodeView) : List Nat :=
  v.managerStacks.filter fun r => !s.getNonTerminatedNodes.any fun n => s.uses n r

/-- `_on_node_stop(node)` up to its first await. -/
def onNodeStop (s : Cluster) (n : Nat) : Option Cluster :=
  match s.allNodes[n]? with
  | some v =>
      if n ∈ s.events then
        let s := { s with events := s.events.erase n }
        if s.getNonTerminatedNodes = [] ∨ v.isHead then some (s.stop true)
        else some { s with stackStops := s.stackStops ++ s.idleStacks v }
      else none
  | none => none

/-- A child task of `_on_node_stop` runs `manager_stack.stop()`. -/
def runStackStop (s : Cluster) (r : Nat) : Option Cluster :=
  match s.allStacks[r]? with
  | some m =>
      if r ∈ s.stackStops then
        some ({ s with stackStops := s.stackStops.erase r }.setStack r m.stop)
      else none
  | none => none

/-- What a node does: its start ends, `stop()` is called on it by a request or
a monitor, or its `stop()` ends. -/
inductive NodeAct
  | ready
  | startFailed
  | stop
  | stopped
  | stopRaised
  deriving DecidableEq, Repr

/-- A node's step; a `stop()` that was called with events spawns the callback. -/
def stepNode (s : Cluster) (n : Nat) (v : NodeView) : NodeAct → Option Cluster
  | .ready => v.ready.map fun v => s.setNode n v
  | .startFailed => v.startFailed.map fun v => s.setNode n v
  | .stop => some (s.setNode n (v.stop true))
  | .stopped =>
      v.stopped.map fun v' =>
        { s with events := if v.stopping = some true then s.events ++ [n] else s.events }.setNode
          n v'
  | .stopRaised => v.stopRaised.map fun v => s.setNode n v

/-- What a stack does while it is stopped. -/
inductive StackAct
  | managerStopped
  | managerStopRaised
  deriving DecidableEq, Repr

/-- A stack's step. -/
def stepStack (s : Cluster) (r : Nat) (m : ManagerStack) : StackAct → Option Cluster
  | .managerStopped => m.managerStopped.map fun m => s.setStack r m
  | .managerStopRaised => m.managerStopRaised.map fun m => s.setStack r m

/-! ### The step function -/

/-- Steps of a call. -/
inductive CallAct
  | startDone
  | startRaised
  | leave
  | prepare
  | wake
  | cancelWait
  | unwind
  | lookup
  | create
  | createRaised
  | managerStarted
  | managerStartRaised
  | finishRequest (k : Nat)
  deriving DecidableEq, Repr

/-- Steps of a `stop()`. -/
inductive StopAct
  | node
  | nodesDone
  | stack
  | stacksDone
  | paymentStopped
  | raised
  deriving DecidableEq, Repr

/-- A step of call `t`. -/
def stepCall (digest : NodeConfigData → String) (s : Cluster) (t : Nat) (c : Call) :
    CallAct → Option Cluster
  | .startDone => s.startDone t c
  | .startRaised => s.startRaised t c
  | .leave => s.leave t c
  | .prepare => s.prepare digest t c
  | .wake => s.wake t c
  | .cancelWait => s.cancelWait t c
  | .unwind => s.unwind t c
  | .lookup => s.lookup digest t c
  | .create => s.create t c
  | .createRaised => s.createRaised t c
  | .managerStarted => s.managerStarted digest t c
  | .managerStartRaised => s.managerStartRaised t c
  | .finishRequest k => s.finishRequest t c k

/-- A step of `stop()` number `i`. -/
def stepStop (s : Cluster) (i : Nat) (σ : StopRun) : StopAct → Option Cluster
  | .node => s.stopNode i σ
  | .nodesDone => s.nodesDone i σ
  | .stack => s.stopStack i σ
  | .stacksDone => s.stacksDone i σ
  | .paymentStopped => s.paymentStopped i σ
  | .raised => s.stopRaised i σ

/-- What can happen to a cluster: one of its methods is called, or one of its
tasks goes on.  `onStopTaken` runs a spawned on-stop callback of the cluster. -/
inductive Act
  | start (q : Request)
  | enter (q : Request)
  | call (t : Nat) (a : CallAct)
  | stop (callEvents : Bool)
  | stopping (i : Nat) (a : StopAct)
  | node (n : Nat) (a : NodeAct)
  | onNodeStop (n : Nat)
  | stackStop (r : Nat)
  | stack (r : Nat) (a : StackAct)
  | onStopTaken
  deriving DecidableEq, Repr

/-- One step of a cluster. -/
def step (digest : NodeConfigData → String) (s : Cluster) : Act → Option Cluster
  | .start q => some (s.start q)
  | .enter q => some (s.enter q)
  | .call t a =>
      match s.calls[t]? with
      | some c => s.stepCall digest t c a
      | none => none
  | .stop callEvents => some (s.stop callEvents)
  | .stopping i a =>
      match s.stops[i]? with
      | some σ => s.stepStop i σ a
      | none => none
  | .node n a =>
      match s.allNodes[n]? with
      | some v => s.stepNode n v a
      | none => none
  | .onNodeStop n => s.onNodeStop n
  | .stackStop r => s.runStackStop r
  | .stack r a =>
      match s.allStacks[r]? with
      | some m => s.stepStack r m a
      | none => none
  | .onStopTaken => if 0 < s.onStop then some { s with onStop := s.onStop - 1 } else none

/-- A cluster as its constructor leaves it. -/
def Initial (s : Cluster) : Prop := s = {}

end Cluster
