import RayOnGolem.Cluster

/-!
# The service and its registry of clusters

`RayService` keeps clusters by name, takes a lock of that name around nearly
everything it does with one, and removes a stopped cluster after a delay.  A
state holds the registry, the locks, every cluster ever created, and the tasks
of the service: handlers of requests and queries, on-stop callbacks and delayed
removals.

A task is named by its position among the tasks, which is also its name in the
lock table.  The step in which a task holds its lock and goes on to its next
await is `runs`; what happens inside of a cluster is a step of that cluster.  Any
task may be cancelled while it is suspended.
-/

/-- A cluster under the name that `str(cluster)` gives. -/
structure NamedCluster where
  name : String
  cluster : Cluster

/-- What a task of the service runs. -/
inductive TaskKind
  | requestNodes (q : Request)
  | query
  | terminateNode (nodeId : Nat)
  | onClusterStop (c : Nat)
  | removeCluster (c : Nat)
  deriving DecidableEq, Repr

/-- Where a task stands: in `_remove_cluster`'s sleep, at the lock of its name,
at an await inside of the lock, or past its last await in the service. -/
inductive TaskStage
  | sleeping
  | locking
  | cancelling (task : Nat)
  | starting (c call : Nat)
  | stoppingNode (c n : Nat)
  | over
  deriving DecidableEq, Repr

/-- A task.  `cancelled` says that `cancel()` was called on it. -/
structure ServiceTask where
  kind : TaskKind
  name : String
  stage : TaskStage
  cancelled : Bool := false
  deriving DecidableEq, Repr

/-- `RayService.stop`: the iterator over `_clusters.values()` with the size it
was made for and its position, and the run of `Cluster.stop` that is awaited. -/
inductive StopStatus
  | notCalled
  | iterating (size pos : Nat)
  | awaiting (size pos c run : Nat)
  | returned
  | raised
  deriving DecidableEq, Repr

/-- The service.  `heldAtStop` records the clusters that were registered when
`stop` was called. -/
structure RayService where
  clusters : Dict String Nat := {}
  clustersLocks : LockTable String := LockTable.empty
  clustersRemoveTasks : Dict String Nat := {}
  allClusters : List NamedCluster := []
  tasks : List ServiceTask := []
  stopping : StopStatus := .notCalled
  heldAtStop : List Nat := []

namespace RayService

/-- A task moves to another stage. -/
def setStage (s : RayService) (k : Nat) (x : ServiceTask) (stage : TaskStage) : RayService :=
  { s with tasks := s.tasks.set k { x with stage := stage } }

/-- A cluster makes a step of its own. -/
def stepCluster (digest : NodeConfigData → String) (s : RayService) (c : Nat)
    (a : Cluster.Act) : Option RayService :=
  match s.allClusters[c]? with
  | some nc =>
      (nc.cluster.step digest a).map fun cl =>
        { s with allClusters := s.allClusters.set c { nc with cluster := cl } }
  | none => none

/-- A task leaves its lock and is over. -/
def finish (s : RayService) (k : Nat) (x : ServiceTask) : Option RayService :=
  (s.clustersLocks.exit k).map fun L => { s with clustersLocks := L }.setStage k x .over

/-- A task leaves its lock and deletes it when nobody else is at it. -/
def finishCleanup (s : RayService) (k : Nat) (x : ServiceTask) : Option RayService :=
  (s.clustersLocks.exit k).map fun L =>
    { s with clustersLocks := L.cleanup x.name }.setStage k x .over

/-- `is_any_node_running()`. -/
def isAnyNodeRunning (s : RayService) : Bool :=
  s.clusters.values.any fun c =>
    match s.allClusters[c]? with
    | some nc => !nc.cluster.getNonTerminatedNodes.isEmpty
    | none => false

/-! ### Tasks that arrive -/

/-- A new task asks for the lock of its name. -/
def arrive (s : RayService) (kind : TaskKind) (name : String) : RayService :=
  { s with
    tasks := s.tasks ++ [⟨kind, name, .locking, false⟩]
    clustersLocks := s.clustersLocks.enter s.tasks.length name }

/-- A spawned on-stop callback of cluster `c` runs. -/
def onClusterStop (digest : NodeConfigData → String) (s : RayService) (c : Nat) :
    Option RayService :=
  match s.allClusters[c]? with
  | some nc =>
      (s.stepCluster digest c .onStopTaken).map fun s => s.arrive (.onClusterStop c) nc.name
  | none => none

/-! ### `_get_or_create_cluster` -/

/-- The task under `name` in `_clusters_remove_tasks`, when it is not done. -/
def pendingRemoval (s : RayService) (name : String) : Option Nat :=
  match s.clustersRemoveTasks.get name with
  | some j =>
      match s.tasks[j]? with
      | some y => if y.stage = .over then none else some j
      | none => none
  | none => none

/-- `task.cancel()`. -/
def cancelTask (s : RayService) (j : Nat) : RayService :=
  match s.tasks[j]? with
  | some y =>
      { s with
        tasks := s.tasks.set j { y with cancelled := true }
        clustersLocks := s.clustersLocks.cancel j }
  | none => s

/-- `await cluster.start()` up to its first suspension; `start()` of a pending or
running cluster returns at once. -/
def startCluster (digest : NodeConfigData → String) (s : RayService) (k : Nat) (x : ServiceTask)
    (q : Request) (c : Nat) : Option RayService :=
  match s.allClusters[c]? with
  | some nc =>
      (s.stepCluster digest c (.start q)).bind fun s =>
        if nc.cluster.state = .pending ∨ nc.cluster.state = .running then s.finish k x
        else some (s.setStage k x (.starting c nc.cluster.calls.length))
  | none => none

/-- A new cluster is registered, in place of one that may be there, and started. -/
def createCluster (digest : NodeConfigData → String) (s : RayService) (k : Nat) (x : ServiceTask)
    (q : Request) : Option RayService :=
  startCluster digest
    { s with
      allClusters := s.allClusters ++ [⟨x.name, {}⟩]
      clusters := s.clusters.set x.name s.allClusters.length } k x q s.allClusters.length

/-- The lock is held.  A removal that is not done is cancelled and awaited. -/
def getOrCreateCluster (digest : NodeConfigData → String) (s : RayService) (k : Nat)
    (x : ServiceTask) (q : Request) : Option RayService :=
  let removal := s.pendingRemoval x.name
  let s := { s with clustersRemoveTasks := s.clustersRemoveTasks.erase x.name }
  match removal with
  | some j => some ((s.cancelTask j).setStage k x (.cancelling j))
  | none =>
      match s.clusters.get x.name with
      | some c => s.startCluster digest k x q c
      | none => s.createCluster digest k x q

/-- `ensure_cancelled` returns: the removal is done. -/
def ensureCancelled (digest : NodeConfigData → String) (s : RayService) (k : Nat)
    (x : ServiceTask) : Option RayService :=
  match x.stage, x.kind with
  | .cancelling j, .requestNodes q =>
      if (s.tasks[j]?).map ServiceTask.stage = some .over then s.createCluster digest k x q
      else none
  | _, _ => none

/-- `cluster.start()` returns; the call goes on with `request_nodes()`. -/
def startDone (digest : NodeConfigData → String) (s : RayService) (k : Nat) (x : ServiceTask) :
    Option RayService :=
  match x.stage with
  | .starting c t => (s.stepCluster digest c (.call t .startDone)).bind fun s => s.finish k x
  | _ => none

/-- `cluster.start()` raises. -/
def startRaised (digest : NodeConfigData → String) (s : RayService) (k : Nat) (x : ServiceTask) :
    Option RayService :=
  match x.stage with
  | .starting c t => (s.stepCluster digest c (.call t .startRaised)).bind fun s => s.finish k x
  | _ => none

/-! ### `_with_cluster_context` -/

/-- The body of a query has no await. -/
def runQuery (s : RayService) (k : Nat) (x : ServiceTask) : Option RayService :=
  match s.clusters.get x.name with
  | some _ => s.finish k x
  | none => s.finishCleanup k x

/-- `terminate_node` up to its await of `node.stop()`, which returns at once for a
node that is stopped or being stopped. -/
def terminateNode (digest : NodeConfigData → String) (s : RayService) (k : Nat) (x : ServiceTask)
    (nodeId : Nat) : Option RayService :=
  match s.clusters.get x.name with
  | some c =>
      match s.allClusters[c]? with
      | some nc =>
          match nc.cluster.nodes.get nodeId with
          | some n =>
              if nc.cluster.isLive n then
                (s.stepCluster digest c (.node n .stop)).map fun s =>
                  s.setStage k x (.stoppingNode c n)
              else s.finish k x
          | none => s.finish k x
      | none => none
  | none => s.finishCleanup k x

/-- `node.stop()` returns or raises. -/
def nodeStopped (s : RayService) (k : Nat) (x : ServiceTask) : Option RayService :=
  match x.stage with
  | .stoppingNode c n =>
      match s.allClusters[c]? with
      | some nc =>
          match nc.cluster.allNodes[n]? with
          | some v => if v.stopping = none then s.finish k x else none
          | none => none
      | none => none
  | _ => none

/-! ### `_remove_cluster` and `_on_cluster_stop` -/

/-- `_on_cluster_stop` creates the removal task. -/
def registerRemoval (s : RayService) (k : Nat) (x : ServiceTask) (c : Nat) : Option RayService :=
  (s.finish k x).map fun s' =>
    { s' with
      clustersRemoveTasks := s'.clustersRemoveTasks.set x.name s.tasks.length
      tasks := s'.tasks ++ [⟨.removeCluster c, x.name, .sleeping, false⟩] }

/-- `_remove_cluster` with the lock held: the assertion, then the `del`, which
raises when there is nothing to delete. -/
def removeCluster (s : RayService) (k : Nat) (x : ServiceTask) (c : Nat) : Option RayService :=
  match s.allClusters[c]? with
  | some nc =>
      if nc.cluster.isRunning then s.finish k x
      else
        match s.clusters.get x.name with
        | some _ => { s with clusters := s.clusters.erase x.name }.finishCleanup k x
        | none => s.finish k x
  | none => none

/-- The sleep of `_remove_cluster` ends. -/
def wake (s : RayService) (k : Nat) (x : ServiceTask) : Option RayService :=
  if x.stage = .sleeping ∧ x.cancelled = false then
    some ({ s with clustersLocks := s.clustersLocks.enter k x.name }.setStage k x .locking)
  else none

/-! ### Tasks at their lock -/

/-- A waiter gets the lock. -/
def resume (s : RayService) (k : Nat) (x : ServiceTask) : Option RayService :=
  if x.stage = .locking ∧ x.cancelled = false then
    (s.clustersLocks.resume k).map fun L => { s with clustersLocks := L }
  else none

/-- A task that holds its lock goes on. -/
def run (digest : NodeConfigData → String) (s : RayService) (k : Nat) (x : ServiceTask) :
    Option RayService :=
  match x.stage, s.clustersLocks.phase k with
  | .locking, .holding _ _ =>
      match x.kind with
      | .requestNodes q => s.getOrCreateCluster digest k x q
      | .query => s.runQuery k x
      | .terminateNode nodeId => s.terminateNode digest k x nodeId
      | .onClusterStop c => s.registerRemoval k x c
      | .removeCluster c => s.removeCluster k x c
  | _, _ => none

/-- A cancelled task resumes with `CancelledError` in the sleep, in `acquire` or in
`ensure_cancelled`.  In the other awaits it raises through the cluster or node. -/
def unwind (s : RayService) (k : Nat) (x : ServiceTask) : Option RayService :=
  if x.cancelled then
    match x.stage with
    | .sleeping => some (s.setStage k x .over)
    | .locking =>
        (s.clustersLocks.unwind k).map fun L => { s with clustersLocks := L }.setStage k x .over
    | .cancelling _ => s.finish k x
    | _ => none
  else none

/-! ### `RayService.stop` -/

/-- `stop()` is called and makes its iterator. -/
def stop (s : RayService) : Option RayService :=
  match s.stopping with
  | .notCalled =>
      some { s with
        stopping := .iterating s.clusters.items.length 0
        heldAtStop := s.clusters.values }
  | _ => none

/-- The next iteration.  The iterator raises when the dictionary changed its size;
its position is right as long as no key is added after one was deleted. -/
def stopNext (digest : NodeConfigData → String) (s : RayService) : Option RayService :=
  match s.stopping with
  | .iterating size pos =>
      if s.clusters.items.length ≠ size then some { s with stopping := .raised }
      else
        match s.clusters.values[pos]? with
        | some c =>
            match s.allClusters[c]? with
            | some nc =>
                (s.stepCluster digest c (.stop true)).map fun s =>
                  { s with
                    stopping :=
                      if nc.cluster.state.live then
                        .awaiting size (pos + 1) c nc.cluster.stops.length
                      else .iterating size (pos + 1) }
            | none => none
        | none =>
            some { s with
              stopping := .returned
              clusters := {}
              clustersLocks := s.clustersLocks.clear
              clustersRemoveTasks := {} }
  | _ => none

/-- The awaited `cluster.stop()` returns. -/
def clusterStopped (digest : NodeConfigData → String) (s : RayService) : Option RayService :=
  match s.stopping with
  | .awaiting size pos c run =>
      (s.stepCluster digest c (.stopping run .paymentStopped)).map fun s =>
        { s with stopping := .iterating size pos }
  | _ => none

/-- The awaited `cluster.stop()` raises. -/
def clusterStopRaised (digest : NodeConfigData → String) (s : RayService) : Option RayService :=
  match s.stopping with
  | .awaiting _ _ c run =>
      (s.stepCluster digest c (.stopping run .raised)).map fun s => { s with stopping := .raised }
  | _ => none

/-! ### The step function -/

/-- Steps of a task. -/
inductive TaskAct
  | wake
  | cancel
  | unwind
  | resume
  | run
  | ensureCancelled
  | startDone
  | startRaised
  | nodeStopped
  deriving DecidableEq, Repr

/-- What can happen to the service. -/
inductive Act
  | requestNodes (name : String) (q : Request)
  | query (name : String)
  | terminateNode (name : String) (nodeId : Nat)
  | task (k : Nat) (a : TaskAct)
  | cluster (c : Nat) (a : Cluster.Act)
  | onClusterStop (c : Nat)
  | stop
  | stopNext
  | clusterStopped
  | clusterStopRaised
  deriving DecidableEq, Repr

/-- A step of task `k`. -/
def stepTask (digest : NodeConfigData → String) (s : RayService) (k : Nat) (x : ServiceTask) :
    TaskAct → Option RayService
  | .wake => s.wake k x
  | .cancel => if x.stage = .over then none else some (s.cancelTask k)
  | .unwind => s.unwind k x
  | .resume => s.resume k x
  | .run => s.run digest k x
  | .ensureCancelled => s.ensureCancelled digest k x
  | .startDone => s.startDone digest k x
  | .startRaised => s.startRaised digest k x
  | .nodeStopped => s.nodeStopped k x

/-- `stop()` awaits run `i` of cluster `c`. -/
def awaits (s : RayService) (c i : Nat) : Bool :=
  match s.stopping with
  | .awaiting _ _ c' i' => c == c' && i == i'
  | _ => false

/-- The steps that a cluster makes without the service: the service alone calls
`start()` and `request_nodes()`, resumes from `start()`, and runs the on-stop
callback; and it resumes from the `Cluster.stop` that it awaits. -/
def internal (s : RayService) (c : Nat) : Cluster.Act → Bool
  | .start _ => false
  | .enter _ => false
  | .stop _ => false
  | .onStopTaken => false
  | .call _ .startDone => false
  | .call _ .startRaised => false
  | .call _ .leave => false
  | .stopping i .paymentStopped => !s.awaits c i
  | .stopping i .raised => !s.awaits c i
  | _ => true

/-- One step of the service. -/
def step (digest : NodeConfigData → String) (s : RayService) : Act → Option RayService
  | .requestNodes name q => some (s.arrive (.requestNodes q) name)
  | .query name => some (s.arrive .query name)
  | .terminateNode name nodeId => some (s.arrive (.terminateNode nodeId) name)
  | .task k a =>
      match s.tasks[k]? with
      | some x => s.stepTask digest k x a
      | none => none
  | .cluster c a => if s.internal c a then s.stepCluster digest c a else none
  | .onClusterStop c => s.onClusterStop digest c
  | .stop => s.stop
  | .stopNext => s.stopNext digest
  | .clusterStopped => s.clusterStopped digest
  | .clusterStopRaised => s.clusterStopRaised digest

/-- The service as its constructor leaves it. -/
def Initial (s : RayService) : Prop := s = {}

end RayService
