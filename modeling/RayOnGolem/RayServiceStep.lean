import RayOnGolem.ClusterCoverage
import RayOnGolem.Lib.Objects
import RayOnGolem.RayService

/-!
# What a step of the service can do

`Step` lists the effects of the service's steps, as `Cluster.Step` does for a
cluster, and `step_cases` says that the list is complete.  `Step.change` reads off
what a step does to the clusters: it creates one, takes one through a step of its
own, or leaves all as they are.  So whatever holds in every run of a single
cluster holds of every cluster of the service (`Reach.cluster`).
-/

/-- The task goes to `stage`. -/
def ServiceTask.at (x : ServiceTask) (stage : TaskStage) : ServiceTask :=
  { x with stage := stage }

/-- The cluster under its name, changed. -/
def NamedCluster.become (nc : NamedCluster) (cl : Cluster) : NamedCluster :=
  { nc with cluster := cl }

namespace RayService

open Runs

variable {digest : NodeConfigData → String}

/-- The task that a call of the service creates. -/
def Act.arrival : Act → Option (TaskKind × String)
  | .requestNodes name q => some (.requestNodes q, name)
  | .query name => some (.query, name)
  | .terminateNode name nodeId => some (.terminateNode nodeId, name)
  | _ => none

/-- How an await of `cluster.start()` ends, for the task and for the call. -/
inductive StartEnds : TaskAct → Cluster.CallAct → Prop
  | done : StartEnds .startDone .startDone
  | raised : StartEnds .startRaised .startRaised

/-- The effects of the steps. -/
inductive Step (digest : NodeConfigData → String) (s : RayService) : Act → RayService → Prop
  | arrives (a : Act) (kind : TaskKind) (name : String) (ha : a.arrival = some (kind, name)) :
      Step digest s a
        { s with
          tasks := s.tasks ++ [⟨kind, name, .locking, false⟩]
          clustersLocks := s.clustersLocks.enter s.tasks.length name }
  | callback (c : Nat) (nc : NamedCluster) (cl : Cluster) (hnc : s.allClusters[c]? = some nc)
      (hcl : nc.cluster.step digest .onStopTaken = some cl) :
      Step digest s (.onClusterStop c)
        { s with
          allClusters := s.allClusters.set c (nc.become cl)
          tasks := s.tasks ++ [⟨.onClusterStop c, nc.name, .locking, false⟩]
          clustersLocks := s.clustersLocks.enter s.tasks.length nc.name }
  | wakes (k : Nat) (x : ServiceTask) (hx : s.tasks[k]? = some x) (hstage : x.stage = .sleeping)
      (hcancelled : x.cancelled = false) :
      Step digest s (.task k .wake)
        { s with
          tasks := s.tasks.set k (x.at .locking)
          clustersLocks := s.clustersLocks.enter k x.name }
  | cancels (k : Nat) (x : ServiceTask) (hx : s.tasks[k]? = some x) (hstage : x.stage ≠ .over) :
      Step digest s (.task k .cancel)
        { s with
          tasks := s.tasks.set k { x with cancelled := true }
          clustersLocks := s.clustersLocks.cancel k }
  | dies (k : Nat) (x : ServiceTask) (hx : s.tasks[k]? = some x) (hstage : x.stage = .sleeping)
      (hcancelled : x.cancelled = true) :
      Step digest s (.task k .unwind) { s with tasks := s.tasks.set k (x.at .over) }
  | unwinds (k : Nat) (x : ServiceTask) (L : LockTable String) (hx : s.tasks[k]? = some x)
      (hstage : x.stage = .locking) (hcancelled : x.cancelled = true)
      (hL : s.clustersLocks.unwind k = some L) :
      Step digest s (.task k .unwind)
        { s with tasks := s.tasks.set k (x.at .over), clustersLocks := L }
  | resumes (k : Nat) (x : ServiceTask) (L : LockTable String) (hx : s.tasks[k]? = some x)
      (hstage : x.stage = .locking) (hcancelled : x.cancelled = false)
      (hL : s.clustersLocks.resume k = some L) :
      Step digest s (.task k .resume) { s with clustersLocks := L }
  | leaves (a : TaskAct) (k : Nat) (x : ServiceTask) (L : LockTable String)
      (hx : s.tasks[k]? = some x) (hstage : ∀ c t, x.stage ≠ .starting c t)
      (hL : s.clustersLocks.exit k = some L) :
      Step digest s (.task k a)
        { s with tasks := s.tasks.set k (x.at .over), clustersLocks := L }
  | misses (k : Nat) (x : ServiceTask) (L : LockTable String) (hx : s.tasks[k]? = some x)
      (hstage : x.stage = .locking) (hc : s.clusters.get x.name = none)
      (hL : s.clustersLocks.exit k = some L) :
      Step digest s (.task k .run)
        { s with tasks := s.tasks.set k (x.at .over), clustersLocks := L.cleanup x.name }
  | cancelsRemoval (k : Nat) (x : ServiceTask) (q : Request) (name : String) (sem j : Nat)
      (y : ServiceTask) (hx : s.tasks[k]? = some x) (hkind : x.kind = .requestNodes q)
      (hstage : x.stage = .locking) (hheld : s.clustersLocks.phase k = .holding name sem)
      (hj : s.clustersRemoveTasks.get x.name = some j) (hy : s.tasks[j]? = some y)
      (halive : y.stage ≠ .over) :
      Step digest s (.task k .run)
        { s with
          clustersRemoveTasks := s.clustersRemoveTasks.erase x.name
          tasks := (s.tasks.set j { y with cancelled := true }).set k (x.at (.cancelling j))
          clustersLocks := s.clustersLocks.cancel j }
  | joins (k : Nat) (x : ServiceTask) (q : Request) (name : String) (sem c : Nat)
      (nc : NamedCluster) (cl : Cluster) (L : LockTable String) (hx : s.tasks[k]? = some x)
      (hkind : x.kind = .requestNodes q) (hstage : x.stage = .locking)
      (hheld : s.clustersLocks.phase k = .holding name sem)
      (hnone : s.pendingRemoval x.name = none) (hc : s.clusters.get x.name = some c)
      (hnc : s.allClusters[c]? = some nc)
      (hstate : nc.cluster.state = .pending ∨ nc.cluster.state = .running)
      (hcl : nc.cluster.step digest (.start q) = some cl)
      (hL : s.clustersLocks.exit k = some L) :
      Step digest s (.task k .run)
        { s with
          clustersRemoveTasks := s.clustersRemoveTasks.erase x.name
          allClusters := s.allClusters.set c (nc.become cl)
          tasks := s.tasks.set k (x.at .over)
          clustersLocks := L }
  | restarts (k : Nat) (x : ServiceTask) (q : Request) (name : String) (sem c : Nat)
      (nc : NamedCluster) (cl : Cluster) (hx : s.tasks[k]? = some x)
      (hkind : x.kind = .requestNodes q) (hstage : x.stage = .locking)
      (hheld : s.clustersLocks.phase k = .holding name sem)
      (hnone : s.pendingRemoval x.name = none) (hc : s.clusters.get x.name = some c)
      (hnc : s.allClusters[c]? = some nc)
      (hstate : ¬ (nc.cluster.state = .pending ∨ nc.cluster.state = .running))
      (hcl : nc.cluster.step digest (.start q) = some cl) :
      Step digest s (.task k .run)
        { s with
          clustersRemoveTasks := s.clustersRemoveTasks.erase x.name
          allClusters := s.allClusters.set c (nc.become cl)
          tasks := s.tasks.set k (x.at (.starting c nc.cluster.calls.length)) }
  | creates (k : Nat) (x : ServiceTask) (q : Request) (name : String) (sem : Nat)
      (hx : s.tasks[k]? = some x) (hkind : x.kind = .requestNodes q)
      (hstage : x.stage = .locking) (hheld : s.clustersLocks.phase k = .holding name sem)
      (hnone : s.pendingRemoval x.name = none) (hc : s.clusters.get x.name = none) :
      Step digest s (.task k .run)
        { s with
          clusters := s.clusters.set x.name s.allClusters.length
          clustersRemoveTasks := s.clustersRemoveTasks.erase x.name
          allClusters := s.allClusters ++ [⟨x.name, Cluster.start {} q⟩]
          tasks := s.tasks.set k (x.at (.starting s.allClusters.length 0)) }
  | replaces (k : Nat) (x : ServiceTask) (q : Request) (j : Nat) (y : ServiceTask)
      (hx : s.tasks[k]? = some x) (hkind : x.kind = .requestNodes q)
      (hstage : x.stage = .cancelling j) (hy : s.tasks[j]? = some y) (hover : y.stage = .over) :
      Step digest s (.task k .ensureCancelled)
        { s with
          clusters := s.clusters.set x.name s.allClusters.length
          allClusters := s.allClusters ++ [⟨x.name, Cluster.start {} q⟩]
          tasks := s.tasks.set k (x.at (.starting s.allClusters.length 0)) }
  | startEnds (a : TaskAct) (r : Cluster.CallAct) (k : Nat) (x : ServiceTask) (c t : Nat)
      (nc : NamedCluster) (cl : Cluster) (L : LockTable String) (ha : StartEnds a r)
      (hx : s.tasks[k]? = some x) (hstage : x.stage = .starting c t)
      (hnc : s.allClusters[c]? = some nc) (hcl : nc.cluster.step digest (.call t r) = some cl)
      (hL : s.clustersLocks.exit k = some L) :
      Step digest s (.task k a)
        { s with
          allClusters := s.allClusters.set c (nc.become cl)
          tasks := s.tasks.set k (x.at .over)
          clustersLocks := L }
  | terminates (k : Nat) (x : ServiceTask) (nodeId : Nat) (name : String) (sem c n : Nat)
      (nc : NamedCluster) (cl : Cluster) (hx : s.tasks[k]? = some x)
      (hkind : x.kind = .terminateNode nodeId) (hstage : x.stage = .locking)
      (hheld : s.clustersLocks.phase k = .holding name sem)
      (hnc : s.allClusters[c]? = some nc)
      (hcl : nc.cluster.step digest (.node n .stop) = some cl) :
      Step digest s (.task k .run)
        { s with
          allClusters := s.allClusters.set c (nc.become cl)
          tasks := s.tasks.set k (x.at (.stoppingNode c n)) }
  | registers (k : Nat) (x : ServiceTask) (name : String) (sem c : Nat) (L : LockTable String)
      (hx : s.tasks[k]? = some x) (hkind : x.kind = .onClusterStop c) (hstage : x.stage = .locking)
      (hheld : s.clustersLocks.phase k = .holding name sem)
      (hL : s.clustersLocks.exit k = some L) :
      Step digest s (.task k .run)
        { s with
          clustersRemoveTasks := s.clustersRemoveTasks.set x.name s.tasks.length
          tasks := s.tasks.set k (x.at .over) ++ [⟨.removeCluster c, x.name, .sleeping, false⟩]
          clustersLocks := L }
  | removes (k : Nat) (x : ServiceTask) (name : String) (sem c c' : Nat) (nc : NamedCluster)
      (L : LockTable String) (hx : s.tasks[k]? = some x) (hkind : x.kind = .removeCluster c)
      (hstage : x.stage = .locking) (hheld : s.clustersLocks.phase k = .holding name sem)
      (hnc : s.allClusters[c]? = some nc) (hstate : nc.cluster.state = .terminated)
      (hc : s.clusters.get x.name = some c') (hL : s.clustersLocks.exit k = some L) :
      Step digest s (.task k .run)
        { s with
          clusters := s.clusters.erase x.name
          tasks := s.tasks.set k (x.at .over)
          clustersLocks := L.cleanup x.name }
  | cluster (c : Nat) (b : Cluster.Act) (nc : NamedCluster) (cl : Cluster)
      (hb : s.internal c b = true) (hnc : s.allClusters[c]? = some nc)
      (hcl : nc.cluster.step digest b = some cl) :
      Step digest s (.cluster c b) { s with allClusters := s.allClusters.set c (nc.become cl) }
  | stops (h : s.stopping = .notCalled) :
      Step digest s .stop
        { s with
          stopping := .iterating s.clusters.items.length 0
          heldAtStop := s.clusters.values }
  | sizeChanged (size pos : Nat) (h : s.stopping = .iterating size pos)
      (hsize : s.clusters.items.length ≠ size) :
      Step digest s .stopNext { s with stopping := .raised }
  | stopsCluster (size pos c : Nat) (nc : NamedCluster) (cl : Cluster)
      (h : s.stopping = .iterating size pos) (hsize : s.clusters.items.length = size)
      (hc : s.clusters.values[pos]? = some c) (hnc : s.allClusters[c]? = some nc)
      (hcl : nc.cluster.step digest (.stop true) = some cl) :
      Step digest s .stopNext
        { s with
          allClusters := s.allClusters.set c (nc.become cl)
          stopping :=
            if nc.cluster.state.live then .awaiting size (pos + 1) c nc.cluster.stops.length
            else .iterating size (pos + 1) }
  | stopReturns (size pos : Nat) (h : s.stopping = .iterating size pos)
      (hsize : s.clusters.items.length = size) (hend : s.clusters.values[pos]? = none) :
      Step digest s .stopNext
        { s with
          clusters := {}
          clustersLocks := s.clustersLocks.clear
          clustersRemoveTasks := {}
          stopping := .returned }
  | clusterStopped (size pos c run : Nat) (nc : NamedCluster) (cl : Cluster)
      (h : s.stopping = .awaiting size pos c run) (hnc : s.allClusters[c]? = some nc)
      (hcl : nc.cluster.step digest (.stopping run .paymentStopped) = some cl) :
      Step digest s .clusterStopped
        { s with
          allClusters := s.allClusters.set c (nc.become cl)
          stopping := .iterating size pos }
  | clusterStopRaised (size pos c run : Nat) (nc : NamedCluster) (cl : Cluster)
      (h : s.stopping = .awaiting size pos c run) (hnc : s.allClusters[c]? = some nc)
      (hcl : nc.cluster.step digest (.stopping run .raised) = some cl) :
      Step digest s .clusterStopRaised
        { s with
          allClusters := s.allClusters.set c (nc.become cl)
          stopping := .raised }

variable {s s' : RayService} {a : Act}

/-- The steps other than those of `RayService.stop`. -/
def besideServiceStop (_ : RayService) : Act → Bool
  | .stop => false
  | .stopNext => false
  | .clusterStopped => false
  | .clusterStopRaised => false
  | _ => true

theorem besideServiceStop_of_arrival {kind : TaskKind} {name : String}
    (h : a.arrival = some (kind, name)) : besideServiceStop s a = true := by
  cases a <;> simp [Act.arrival] at h <;> rfl

/-! ### The list is complete -/

theorem stepCluster_cases {c : Nat} {b : Cluster.Act} (h : s.stepCluster digest c b = some s') :
    ∃ nc cl, s.allClusters[c]? = some nc ∧ nc.cluster.step digest b = some cl ∧
      s' = { s with allClusters := s.allClusters.set c (nc.become cl) } := by
  unfold stepCluster at h
  split at h
  · rename_i nc hnc
    obtain ⟨cl, hcl, rfl⟩ := Option.map_eq_some_iff.mp h
    exact ⟨nc, cl, hnc, hcl, rfl⟩
  · cases h

theorem finish_cases {k : Nat} {x : ServiceTask} (h : s.finish k x = some s') :
    ∃ L, s.clustersLocks.exit k = some L ∧
      s' = { s with tasks := s.tasks.set k (x.at .over), clustersLocks := L } := by
  obtain ⟨L, hL, rfl⟩ := Option.map_eq_some_iff.mp h
  exact ⟨L, hL, rfl⟩

theorem finishCleanup_cases {k : Nat} {x : ServiceTask} (h : s.finishCleanup k x = some s') :
    ∃ L, s.clustersLocks.exit k = some L ∧
      s' = { s with tasks := s.tasks.set k (x.at .over), clustersLocks := L.cleanup x.name } := by
  obtain ⟨L, hL, rfl⟩ := Option.map_eq_some_iff.mp h
  exact ⟨L, hL, rfl⟩

/-- A cancelled removal is one that is not done. -/
theorem pendingRemoval_cases {name : String} {j : Nat} (h : s.pendingRemoval name = some j) :
    ∃ y, s.clustersRemoveTasks.get name = some j ∧ s.tasks[j]? = some y ∧ y.stage ≠ .over := by
  unfold pendingRemoval at h
  split at h
  · rename_i i hi
    split at h
    · rename_i y hy
      split at h
      · cases h
      · rename_i halive
        cases h
        exact ⟨y, hi, hy, halive⟩
    · cases h
  · cases h

/-- A new cluster is registered and started, under whatever is left of the
removal tasks. -/
theorem createCluster_eq {k : Nat} {x : ServiceTask} {q : Request}
    (h : s.createCluster digest k x q = some s') :
    s' = { s with
      clusters := s.clusters.set x.name s.allClusters.length
      allClusters := s.allClusters ++ [⟨x.name, Cluster.start {} q⟩]
      tasks := s.tasks.set k (x.at (.starting s.allClusters.length 0)) } := by
  simp only [createCluster, startCluster] at h
  split at h
  · rename_i nc hnc
    obtain ⟨m, hm, hrest⟩ := Option.bind_eq_some_iff.mp h
    obtain ⟨nc', cl, hnc', hcl, rfl⟩ := stepCluster_cases hm
    have hnew : (s.allClusters ++ [⟨x.name, ({} : Cluster)⟩])[s.allClusters.length]? =
        some ⟨x.name, {}⟩ := by simp
    obtain rfl : nc = ⟨x.name, {}⟩ := Option.some.inj (hnc.symm.trans hnew)
    obtain rfl : nc' = ⟨x.name, {}⟩ := Option.some.inj (hnc'.symm.trans hnew)
    cases hcl
    cases hrest
    simp [setStage, NamedCluster.become, ServiceTask.at]
  · cases h

theorem run_cases {k : Nat} {x : ServiceTask} (hx : s.tasks[k]? = some x)
    (h : s.run digest k x = some s') : Step digest s (.task k .run) s' := by
  unfold run at h
  split at h
  case h_2 => cases h
  case h_1 name sem hstage hheld =>
    have hnot : ∀ c t, x.stage ≠ .starting c t := by simp [hstage]
    split at h
    case h_1 q hkind =>
      simp only [getOrCreateCluster] at h
      split at h
      · rename_i j hj
        obtain ⟨y, hget, hy, halive⟩ := pendingRemoval_cases hj
        simp only [cancelTask, hy] at h
        cases h
        exact .cancelsRemoval k x q name sem j y hx hkind hstage hheld hget hy halive
      · rename_i hnone
        split at h
        · rename_i c hc
          simp only [startCluster] at h
          split at h
          · rename_i nc hnc
            obtain ⟨m, hm, hrest⟩ := Option.bind_eq_some_iff.mp h
            obtain ⟨nc', cl, hnc', hcl, rfl⟩ := stepCluster_cases hm
            obtain rfl : nc = nc' := Option.some.inj (hnc.symm.trans hnc')
            split at hrest
            · rename_i hstate
              obtain ⟨L, hL, rfl⟩ := finish_cases hrest
              exact .joins k x q name sem c nc cl L hx hkind hstage hheld hnone hc hnc hstate hcl hL
            · rename_i hstate
              cases hrest
              exact .restarts k x q name sem c nc cl hx hkind hstage hheld hnone hc hnc hstate hcl
          · cases h
        · rename_i hc
          obtain rfl := createCluster_eq h
          exact .creates k x q name sem hx hkind hstage hheld hnone hc
    case h_2 hkind =>
      unfold runQuery at h
      split at h
      · obtain ⟨L, hL, rfl⟩ := finish_cases h
        exact .leaves .run k x L hx hnot hL
      · rename_i hc
        obtain ⟨L, hL, rfl⟩ := finishCleanup_cases h
        exact .misses k x L hx hstage hc hL
    case h_3 nodeId hkind =>
      unfold terminateNode at h
      split at h
      · rename_i c hc
        split at h
        · rename_i nc hnc
          split at h
          · rename_i n hn
            split at h
            · obtain ⟨m, hm, rfl⟩ := Option.map_eq_some_iff.mp h
              obtain ⟨nc', cl, hnc', hcl, rfl⟩ := stepCluster_cases hm
              exact .terminates k x nodeId name sem c n nc' cl hx hkind hstage hheld hnc' hcl
            · obtain ⟨L, hL, rfl⟩ := finish_cases h
              exact .leaves .run k x L hx hnot hL
          · obtain ⟨L, hL, rfl⟩ := finish_cases h
            exact .leaves .run k x L hx hnot hL
        · cases h
      · rename_i hc
        obtain ⟨L, hL, rfl⟩ := finishCleanup_cases h
        exact .misses k x L hx hstage hc hL
    case h_4 c hkind =>
      unfold registerRemoval at h
      obtain ⟨m, hm, rfl⟩ := Option.map_eq_some_iff.mp h
      obtain ⟨L, hL, rfl⟩ := finish_cases hm
      exact .registers k x name sem c L hx hkind hstage hheld hL
    case h_5 c hkind =>
      unfold removeCluster at h
      split at h
      · rename_i nc hnc
        split at h
        · obtain ⟨L, hL, rfl⟩ := finish_cases h
          exact .leaves .run k x L hx hnot hL
        · rename_i hrunning
          split at h
          · rename_i c' hc
            obtain ⟨L, hL, rfl⟩ := finishCleanup_cases h
            have hstate : nc.cluster.state = .terminated := by
              simpa [Cluster.isRunning] using hrunning
            exact .removes k x name sem c c' nc L hx hkind hstage hheld hnc hstate hc hL
          · obtain ⟨L, hL, rfl⟩ := finish_cases h
            exact .leaves .run k x L hx hnot hL
      · cases h

theorem stepTask_cases {k : Nat} {x : ServiceTask} {b : TaskAct} (hx : s.tasks[k]? = some x)
    (h : s.stepTask digest k x b = some s') : Step digest s (.task k b) s' := by
  cases b with
  | wake =>
      simp only [stepTask, wake] at h
      split at h
      · rename_i hwake
        cases h
        exact .wakes k x hx hwake.1 hwake.2
      · cases h
  | cancel =>
      simp only [stepTask, cancelTask, hx] at h
      split at h
      · cases h
      · cases h
        exact .cancels k x hx ‹_›
  | unwind =>
      simp only [stepTask, unwind] at h
      split at h
      · rename_i hcancelled
        split at h
        · rename_i hstage
          cases h
          exact .dies k x hx hstage hcancelled
        · rename_i hstage
          obtain ⟨L, hL, rfl⟩ := Option.map_eq_some_iff.mp h
          exact .unwinds k x L hx hstage hcancelled hL
        · rename_i j hstage
          obtain ⟨L, hL, rfl⟩ := finish_cases h
          exact .leaves .unwind k x L hx (by simp [hstage]) hL
        · cases h
      · cases h
  | resume =>
      simp only [stepTask, resume] at h
      split at h
      · rename_i hresume
        obtain ⟨L, hL, rfl⟩ := Option.map_eq_some_iff.mp h
        exact .resumes k x L hx hresume.1 hresume.2 hL
      · cases h
  | run => exact run_cases hx h
  | ensureCancelled =>
      simp only [stepTask, ensureCancelled] at h
      split at h
      · rename_i j q hstage hkind
        split at h
        · rename_i hover
          obtain ⟨y, hy, hover⟩ := Option.map_eq_some_iff.mp hover
          obtain rfl := createCluster_eq h
          exact .replaces k x q j y hx hkind hstage hy hover
        · cases h
      · cases h
  | startDone =>
      simp only [stepTask, startDone] at h
      split at h
      · rename_i c t hstage
        obtain ⟨m, hm, hrest⟩ := Option.bind_eq_some_iff.mp h
        obtain ⟨nc, cl, hnc, hcl, rfl⟩ := stepCluster_cases hm
        obtain ⟨L, hL, rfl⟩ := finish_cases hrest
        exact .startEnds .startDone .startDone k x c t nc cl L .done hx hstage hnc hcl hL
      · cases h
  | startRaised =>
      simp only [stepTask, startRaised] at h
      split at h
      · rename_i c t hstage
        obtain ⟨m, hm, hrest⟩ := Option.bind_eq_some_iff.mp h
        obtain ⟨nc, cl, hnc, hcl, rfl⟩ := stepCluster_cases hm
        obtain ⟨L, hL, rfl⟩ := finish_cases hrest
        exact .startEnds .startRaised .startRaised k x c t nc cl L .raised hx hstage hnc hcl hL
      · cases h
  | nodeStopped =>
      simp only [stepTask, nodeStopped] at h
      split at h
      · rename_i c n hstage
        split at h
        · split at h
          · split at h
            · obtain ⟨L, hL, rfl⟩ := finish_cases h
              exact .leaves .nodeStopped k x L hx (by simp [hstage]) hL
            · cases h
          · cases h
        · cases h
      · cases h

theorem stopNext_cases (h : s.stopNext digest = some s') : Step digest s .stopNext s' := by
  unfold stopNext at h
  split at h
  · rename_i size pos hstopping
    split at h
    · rename_i hsize
      cases h
      exact .sizeChanged size pos hstopping hsize
    · rename_i hsize
      have hsize : s.clusters.items.length = size := not_not.mp hsize
      split at h
      · rename_i c hc
        split at h
        · rename_i nc hnc
          obtain ⟨m, hm, rfl⟩ := Option.map_eq_some_iff.mp h
          obtain ⟨nc', cl, hnc', hcl, rfl⟩ := stepCluster_cases hm
          obtain rfl : nc = nc' := Option.some.inj (hnc.symm.trans hnc')
          exact .stopsCluster size pos c nc cl hstopping hsize hc hnc hcl
        · cases h
      · rename_i hend
        cases h
        exact .stopReturns size pos hstopping hsize hend
  · cases h

/-- **The list of effects is complete.** -/
theorem step_cases (h : step digest s a = some s') : Step digest s a s' := by
  cases a with
  | requestNodes name q => cases h; exact .arrives _ _ _ rfl
  | query name => cases h; exact .arrives _ _ _ rfl
  | terminateNode name nodeId => cases h; exact .arrives _ _ _ rfl
  | task k b =>
      simp only [step] at h
      split at h
      · exact stepTask_cases ‹_› h
      · cases h
  | cluster c b =>
      simp only [step] at h
      split at h
      · rename_i hb
        obtain ⟨nc, cl, hnc, hcl, rfl⟩ := stepCluster_cases h
        exact .cluster c b nc cl hb hnc hcl
      · cases h
  | onClusterStop c =>
      simp only [step, onClusterStop] at h
      split at h
      · rename_i nc hnc
        obtain ⟨m, hm, rfl⟩ := Option.map_eq_some_iff.mp h
        obtain ⟨nc', cl, hnc', hcl, rfl⟩ := stepCluster_cases hm
        obtain rfl : nc = nc' := Option.some.inj (hnc.symm.trans hnc')
        exact .callback c nc cl hnc hcl
      · cases h
  | stop =>
      simp only [step, stop] at h
      split at h
      · rename_i hstopping
        cases h
        exact .stops hstopping
      · cases h
  | stopNext => exact stopNext_cases h
  | clusterStopped =>
      simp only [step, clusterStopped] at h
      split at h
      · rename_i size pos c run hstopping
        obtain ⟨m, hm, rfl⟩ := Option.map_eq_some_iff.mp h
        obtain ⟨nc, cl, hnc, hcl, rfl⟩ := stepCluster_cases hm
        exact .clusterStopped size pos c run nc cl hstopping hnc hcl
      · cases h
  | clusterStopRaised =>
      simp only [step, clusterStopRaised] at h
      split at h
      · rename_i size pos c run hstopping
        obtain ⟨m, hm, rfl⟩ := Option.map_eq_some_iff.mp h
        obtain ⟨nc, cl, hnc, hcl, rfl⟩ := stepCluster_cases hm
        exact .clusterStopRaised size pos c run nc cl hstopping hnc hcl
      · cases h

/-! ### The clusters -/

/-- The steps that the service takes a cluster through. -/
def byService : Cluster.Act → Bool
  | .start _ => true
  | .stop _ => true
  | .onStopTaken => true
  | .call _ .startDone => true
  | .call _ .startRaised => true
  | .node _ .stop => true
  | .stopping _ .paymentStopped => true
  | .stopping _ .raised => true
  | _ => false

/-- What a step does to the clusters. -/
inductive Change (digest : NodeConfigData → String) (s : RayService) (a : Act) (s' : RayService) :
    Prop
  | same (h : s'.allClusters = s.allClusters)
  | moves (c : Nat) (b : Cluster.Act) (nc : NamedCluster) (cl : Cluster)
      (hb : a = .cluster c b ∨ byService b = true) (hnc : s.allClusters[c]? = some nc)
      (hcl : nc.cluster.step digest b = some cl)
      (h : s'.allClusters = s.allClusters.set c (nc.become cl))
  | creates (name : String) (q : Request)
      (h : s'.allClusters = s.allClusters ++ [⟨name, Cluster.start {} q⟩])

theorem Step.change (hs : Step digest s a s') : Change digest s a s' := by
  cases hs with
  | callback c nc cl hnc hcl => exact .moves c _ nc cl (.inr rfl) hnc hcl rfl
  | joins k x q name sem c nc cl L hx hkind hstage hheld hnone hc hnc hstate hcl =>
      exact .moves c _ nc cl (.inr rfl) hnc hcl rfl
  | restarts k x q name sem c nc cl hx hkind hstage hheld hnone hc hnc hstate hcl =>
      exact .moves c _ nc cl (.inr rfl) hnc hcl rfl
  | creates k x q => exact .creates x.name q rfl
  | replaces k x q => exact .creates x.name q rfl
  | startEnds b r k x c t nc cl L ha hx hstage hnc hcl =>
      exact .moves c _ nc cl (.inr (by cases ha <;> rfl)) hnc hcl rfl
  | terminates k x nodeId name sem c n nc cl hx hkind hstage hheld hnc hcl =>
      exact .moves c _ nc cl (.inr rfl) hnc hcl rfl
  | cluster c b nc cl hb hnc hcl => exact .moves c b nc cl (.inl rfl) hnc hcl rfl
  | stopsCluster size pos c nc cl h hsize hc hnc hcl =>
      exact .moves c _ nc cl (.inr rfl) hnc hcl rfl
  | clusterStopped size pos c run nc cl h hnc hcl => exact .moves c _ nc cl (.inr rfl) hnc hcl rfl
  | clusterStopRaised size pos c run nc cl h hnc hcl =>
      exact .moves c _ nc cl (.inr rfl) hnc hcl rfl
  | _ => exact .same rfl

/-- A cluster after a step is an old one, an old one that made one step of its
own, or a new one that is being started. -/
theorem Step.cluster_cases (hs : Step digest s a s') {c : Nat} {nc' : NamedCluster}
    (hnc' : s'.allClusters[c]? = some nc') :
    s.allClusters[c]? = some nc' ∨
      (∃ b nc, (a = .cluster c b ∨ byService b = true) ∧ s.allClusters[c]? = some nc ∧
        nc'.name = nc.name ∧ nc.cluster.step digest b = some nc'.cluster) ∨
      (c = s.allClusters.length ∧ ∃ q, nc'.cluster = Cluster.start {} q) := by
  cases hs.change with
  | same h =>
      rw [h] at hnc'
      exact .inl hnc'
  | moves d b nc cl hb hnc hcl h =>
      rw [h] at hnc'
      rcases Objects.set_cases hnc' with ⟨rfl, rfl, -⟩ | ⟨-, hold⟩
      · exact .inr (.inl ⟨b, nc, hb, hnc, rfl, hcl⟩)
      · exact .inl hold
  | creates name q h =>
      rw [h] at hnc'
      rcases Objects.append_cases hnc' with hold | ⟨hc, rfl⟩
      · exact .inl hold
      · exact .inr (.inr ⟨hc, q, rfl⟩)

/-- **Every cluster of the service is a cluster.**  If the service's own steps of a
cluster meet a guard and the others do whenever the run's guard holds, then each
cluster in a state of the run is reached by a guarded run of its own. -/
theorem Reach.cluster {ok : RayService → Act → Prop} {okc : Cluster → Cluster.Act → Prop}
    (hown : ∀ s c nc b, ok s (.cluster c b) → s.allClusters[c]? = some nc → okc nc.cluster b)
    (hservice : ∀ cl b, byService b = true → okc cl b)
    (h : Reach Initial (step digest) ok s) :
    ∀ (c : Nat) (nc : NamedCluster), s.allClusters[c]? = some nc →
      Reach Cluster.Initial (Cluster.step digest) okc nc.cluster := by
  induction h with
  | start h =>
      subst h
      intro c nc hnc
      simp at hnc
  | next before hok hstep ih =>
      intro c nc' hnc'
      rcases (step_cases hstep).cluster_cases hnc' with hold | ⟨b, nc, hb, hnc, -, hcl⟩ | ⟨-, q, hq⟩
      · exact ih c nc' hold
      · have hb : okc nc.cluster b := by
          rcases hb with rfl | hb
          · exact hown _ c nc b hok hnc
          · exact hservice _ b hb
        exact .next (ih c nc hnc) hb hcl
      · have hnew : Cluster.step digest {} (.start q) = some nc'.cluster := by rw [hq]; rfl
        exact .next (.start rfl) (hservice _ _ rfl) hnew

/-! ### Nodes that are registered in time -/

/-- Nodes are registered on a cluster that runs and is not being stopped. -/
def registersInTime (s : RayService) : Act → Bool
  | .cluster c b =>
      match s.allClusters[c]? with
      | some nc => nc.cluster.inTime b
      | none => true
  | _ => true

/-- The service itself registers no nodes. -/
theorem inTime_byService (cl : Cluster) (b : Cluster.Act) (hb : byService b = true) :
    cl.inTime b = true := by
  have hnot : Cluster.registersNodes b = false := by
    cases b with
    | call t r => cases r <;> simp [byService, Cluster.registersNodes] at hb ⊢
    | _ => rfl
  simp [Cluster.inTime, Cluster.besideStop, Cluster.whileRunning, hnot]

/-- **Live nodes are covered** in every cluster of the service, as long as nodes are
registered in time, whatever else the service does. -/
theorem live_nodes_covered (h : Reach Initial (step digest) (fun s a => registersInTime s a) s)
    (c : Nat) (nc : NamedCluster) (hnc : s.allClusters[c]? = some nc) :
    Cluster.NodesCovered (fun st => st.live = true) nc.cluster ∧
      Cluster.NodesGone (fun st => st.live = true) nc.cluster := by
  have hreach :
      Reach Cluster.Initial (Cluster.step digest) (fun cl b => cl.inTime b) nc.cluster := by
    refine Reach.cluster (fun s c nc b hok hnc => ?_) inTime_byService h c nc hnc
    simpa [registersInTime, hnc] using hok
  exact Cluster.live_nodes_covered hreach

end RayService
