import RayOnGolem.ClusterTerminated
import RayOnGolem.RayServiceLocks
import RayOnGolem.RayServiceRegistry

/-!
# Live clusters stay registered

No condition of the code keeps a request from starting a cluster again while its
stop, its on-stop callback or its removal is still to come.  As long as requests
only restart a cluster that is at rest, what is dropped from the registry is
terminated.

Main results:

* `live_clusters_registered` -- in every run in which requests restart a stopped
  cluster only at rest (`restartsAtRest`) and nodes are registered only on a
  cluster that runs and is not being stopped (`registersInTime`), only clusters
  without live nodes are dropped, and live nodes are found by their cluster's name;
* `live_cluster_dropped` -- a request that restarts a cluster before its on-stop
  callback got the lock makes the next request drop it with its nodes.
-/

namespace RayService

open Runs

variable {digest : NodeConfigData → String} {s s' : RayService} {a : Act}

/-! ### The condition -/

/-- The existing cluster that request `k` finds, when it has nothing to cancel. -/
def found (s : RayService) (k : Nat) : Option Nat :=
  match s.tasks[k]? with
  | some x =>
      match x.kind, s.pendingRemoval x.name with
      | .requestNodes _, none => s.clusters.get x.name
      | _, _ => none
  | none => none

/-- Nothing of cluster `c` is going on, its callbacks and removals included. -/
def atRest (s : RayService) (c : Nat) (nc : NamedCluster) : Bool :=
  nc.cluster.atRest && s.tasks.all fun x => x.stage == .over || !x.kind.concerns c

/-- A request finds a pending or running cluster, or one at rest. -/
def restartsAtRest (s : RayService) : Act → Bool
  | .task k .run =>
      match s.found k with
      | some c =>
          match s.allClusters[c]? with
          | some nc => nc.cluster.state.live || s.atRest c nc
          | none => true
      | none => true
  | _ => true

/-- **The condition** on the state before a step. -/
def keepsRegistry (s : RayService) (a : Act) : Bool :=
  besideServiceStop s a && restartsAtRest s a && registersInTime s a

/-! ### The claimed property -/

/-- A cluster that a step drops is terminated and has no live node. -/
def DropsNoLive (s s' : RayService) : Prop :=
  ∀ (name : String) (c : Nat) (nc : NamedCluster), s.clusters.get name = some c →
    s'.clusters.get name ≠ some c → s.allClusters[c]? = some nc →
      nc.cluster.state = .terminated ∧ ∀ v ∈ nc.cluster.allNodes, v.state.live = false

/-- Every live node is found by the name of its cluster. -/
def LiveNodesFound (s : RayService) : Prop :=
  ∀ (c : Nat) (nc : NamedCluster) (n : Nat), s.allClusters[c]? = some nc →
    nc.cluster.isLive n = true → s.clusters.get nc.name = some c ∧ n ∈ nc.cluster.nodes.values

theorem keepsRegistry_iff : keepsRegistry s a = true ↔ besideServiceStop s a = true ∧
    restartsAtRest s a = true ∧ registersInTime s a = true := by
  simp only [keepsRegistry, Bool.and_eq_true, and_assoc]

/-! ### The lock keeps other tasks out -/

/-- While a task holds its lock and was not yet let on, nobody is inside. -/
theorem LocksFollow.nobody_inside (h : LocksFollow s) {k sem : Nat} {x : ServiceTask}
    {name : String} (hx : s.tasks[k]? = some x) (hstage : x.stage = .locking)
    (hheld : s.clustersLocks.phase k = .holding name sem) {u : Nat} {y : ServiceTask}
    (hy : s.tasks[u]? = some y) : y.position ≠ .inside x.name := by
  intro hinside
  have hk : InCritical s k x.name := ⟨x, hx, rfl, .inr ⟨hstage, name, sem, hheld⟩⟩
  have hu : InCritical s u x.name := ⟨y, hy, name_of_inside hinside, .inl hinside⟩
  obtain rfl : k = u := hk.unique h hu
  obtain rfl : x = y := Option.some.inj (hx.symm.trans hy)
  rw [position_locking hstage] at hinside
  cases hinside

theorem LocksFollow.nobodyCancels (h : LocksFollow s) {k sem : Nat} {x : ServiceTask}
    {name : String} (hx : s.tasks[k]? = some x) (hstage : x.stage = .locking)
    (hheld : s.clustersLocks.phase k = .holding name sem) : NobodyCancels s x.name := by
  intro u y j hy hj hname
  apply h.nobody_inside hx hstage hheld hy
  rw [ServiceTask.position, hj, hname]

/-- A cluster is not being started by others than the task that holds its lock. -/
theorem Registry.noStarting (h : Registry s) (hlocks : LocksFollow s) {k sem : Nat}
    {x : ServiceTask} {name : String} (hx : s.tasks[k]? = some x) (hstage : x.stage = .locking)
    (hheld : s.clustersLocks.phase k = .holding name sem) {c : Nat} {nc : NamedCluster}
    (hc : s.clusters.get x.name = some c) (hnc : s.allClusters[c]? = some nc) :
    nc.cluster.NoStarting := by
  intro t call hcall hst
  obtain ⟨u, y, hy, hystage, hyname⟩ := h.watched c nc t call hnc hcall hst
  obtain ⟨nc', hnc', hname⟩ := h.known x.name c hc
  obtain rfl : nc = nc' := Option.some.inj (hnc.symm.trans hnc')
  apply hlocks.nobody_inside hx hstage hheld hy
  rw [ServiceTask.position, hystage, hyname, hname]

/-! ### The invariant holds -/

/-- A request forgets the removal of its name. -/
theorem Registry.eraseRemovals (h : Registry s) (name : String) :
    Registry { s with clustersRemoveTasks := s.clustersRemoveTasks.erase name } := by
  apply h.setRemovals _
  intro name' j hj
  by_cases hn : name' = name
  · rw [hn, Dict.get_erase_self] at hj
    cases hj
  · rw [Dict.get_erase_ne _ hn] at hj
    exact .inl hj

/-- A cluster makes a step that is no start. -/
theorem Registry.moves (h : Registry s) {c : Nat} {nc : NamedCluster} {cl : Cluster}
    {b : Cluster.Act} (hnc : s.allClusters[c]? = some nc)
    (hcl : nc.cluster.step digest b = some cl) (hcarries : nc.cluster.Carries b)
    (hstart : ∀ q, b ≠ .start q) :
    Registry { s with allClusters := s.allClusters.set c (nc.become cl) } := by
  have hlife := h.life c nc hnc
  have hstep := Cluster.step_cases hcl
  refine h.moveCluster hnc (hlife.step hcarries hstep) (hlife.callback_made hstep) ?_ ?_
  · exact fun hterm hne => absurd (hlife.terminated hstep hstart hterm) hne
  · exact fun t call hcall hst => h.watched c nc t call hnc (hstep.starting hstart hcall hst) hst

/-- A task that starts nothing and cancels nothing goes on. -/
theorem Registry.goesOn (h : Registry s) {k : Nat} {x : ServiceTask} (stage : TaskStage)
    (hx : s.tasks[k]? = some x) (halive : x.stage = .over → stage = .over)
    (hnot : ∀ c t, x.stage ≠ .starting c t) (hcancelling : ∀ j, stage ≠ .cancelling j) :
    Registry { s with tasks := s.tasks.set k (x.at stage) } :=
  h.setTask hx rfl rfl halive (fun j hj => absurd hj (hcancelling j))
    fun c t hst => absurd hst (hnot c t)

/-- An on-stop callback becomes a task. -/
theorem Registry.callback (h : Registry s) {c : Nat} {nc : NamedCluster} {cl : Cluster}
    (hnc : s.allClusters[c]? = some nc) (hcl : nc.cluster.step digest .onStopTaken = some cl) :
    Registry { s with
      allClusters := s.allClusters.set c (nc.become cl)
      tasks := s.tasks ++ [⟨.onClusterStop c, nc.name, .locking, false⟩] } := by
  have hmoved := h.moves hnc hcl trivial (by simp)
  have hspawned :
      0 < nc.cluster.onStop ∧ cl = { nc.cluster with onStop := nc.cluster.onStop - 1 } := by
    cases Cluster.step_cases hcl with
    | onStopTaken hpos => exact ⟨hpos, rfl⟩
  obtain ⟨hpos, rfl⟩ := hspawned
  have htoken : Token s c none := .spawned nc hnc hpos
  obtain ⟨hterm, hreg⟩ := h.token c nc none hnc htoken
  apply hmoved.addTask (by simp)
  intro d hd
  obtain rfl : c = d := by simpa [TaskKind.concerns] using hd
  refine ⟨⟨_, Objects.set_self hnc, rfl, hterm, hreg⟩, ?_, ?_⟩
  · -- the callback was the only token, and it is gone
    intro p hp
    cases hp with
    | spawned mc hmc hpos' =>
        obtain rfl : mc = _ := Option.some.inj (hmc.symm.trans (Objects.set_self hnc))
        have hone := (h.life c nc hnc).oneCallback
        have hpos' : 0 < nc.cluster.onStop - 1 := hpos'
        omega
    | task k x hx halive hkind =>
        cases h.oneToken c _ _ htoken (.task k x hx halive hkind)
  · intro k x j hx hj hname
    have hname : x.name = nc.name := hname
    obtain ⟨-, htokens⟩ := (h.cancelling k x j hx hj).registered c nc (hname ▸ hreg) hnc
    cases htokens none htoken

/-- A removal is about to be cancelled. -/
theorem Registry.cancelsRemoval (h : Registry s) {k j : Nat} {x y : ServiceTask} {q : Request}
    (hx : s.tasks[k]? = some x) (hkind : x.kind = .requestNodes q) (hstage : x.stage = .locking)
    (hj : s.clustersRemoveTasks.get x.name = some j) (hy : s.tasks[j]? = some y)
    (halive : y.stage ≠ .over) :
    Registry { s with
      clustersRemoveTasks := s.clustersRemoveTasks.erase x.name
      tasks := (s.tasks.set j { y with cancelled := true }).set k (x.at (.cancelling j)) } := by
  obtain ⟨y', c, hy', hykind, hname⟩ := h.removals x.name j hj
  obtain rfl : y = y' := Option.some.inj (hy.symm.trans hy')
  have hconcerns : y.kind.concerns c = true := by simp [hykind, TaskKind.concerns]
  have htoken : Token s c (some j) := .task j y hy halive hconcerns
  obtain ⟨nc, hnc, hncname⟩ := h.named j y c hy hconcerns
  obtain ⟨hterm, hreg⟩ := h.token c nc _ hnc htoken
  rw [hncname, hname] at hreg
  have hkj : k ≠ j := by
    rintro rfl
    obtain rfl : x = y := Option.some.inj (hx.symm.trans hy)
    rw [hkind] at hykind
    cases hykind
  -- the removal itself only gets its flag
  have hflag : Registry { s with tasks := s.tasks.set j { y with cancelled := true } } :=
    h.setTask hy rfl rfl id (fun i hi => h.cancelling j y i hy hi) fun d t _ => .inl rfl
  have hx' : (s.tasks.set j { y with cancelled := true })[k]? = some x :=
    Objects.set_old hkj hx
  have hback : ∀ {d p}, Token { s with tasks := s.tasks.set j { y with cancelled := true } } d p →
      Token s d p := by
    intro d p hp
    refine hp.back rfl fun u z hz hzalive hzkind => ?_
    rcases Objects.set_cases hz with ⟨rfl, rfl, -⟩ | ⟨-, hold⟩
    · exact ⟨y, hy, hzalive, hzkind⟩
    · exact ⟨z, hold, hzalive, hzkind⟩
  have hcancelling : Cancelling { s with tasks := s.tasks.set j { y with cancelled := true } }
      x.name j := by
    refine ⟨⟨_, c, Objects.set_self hy, hykind⟩, fun d mc hd hmc => ?_⟩
    obtain rfl : c = d := Option.some.inj (hreg.symm.trans hd)
    obtain rfl : nc = mc := Option.some.inj (hnc.symm.trans hmc)
    exact ⟨hterm, fun p hp => h.oneToken c p _ (hback hp) htoken⟩
  have hset := hflag.setTask (y := x.at (.cancelling j)) hx' rfl rfl (by simp [hstage])
    (fun i hi => by cases hi; exact hcancelling) (by simp [hstage])
  exact hset.eraseRemovals x.name

/-- A request joins a live cluster. -/
theorem Registry.joins (h : Registry s) {c : Nat} {nc : NamedCluster} {cl : Cluster} {q : Request}
    (hnc : s.allClusters[c]? = some nc) (hnone : nc.cluster.NoStarting)
    (hstate : nc.cluster.state = .pending ∨ nc.cluster.state = .running)
    (hcl : nc.cluster.step digest (.start q) = some cl) :
    Registry { s with allClusters := s.allClusters.set c (nc.become cl) } := by
  have hlive : nc.cluster.state.live = true := by
    rcases hstate with hst | hst <;> rw [hst] <;> rfl
  have hlife := h.life c nc hnc
  have hstep := Cluster.step_cases hcl
  have hcarries : nc.cluster.Carries (.start q) := Or.inr ⟨hlive, hnone⟩
  refine h.moveCluster hnc (hlife.step hcarries hstep) (hlife.callback_made hstep) ?_ ?_
  · intro hterm
    rw [hterm] at hlive
    cases hlive
  · intro t call hcall hst
    cases hstep with
    | startPasses _ hpending hrunning => exact absurd hstate (by simp [hpending, hrunning])
    | startSkips =>
        rcases Objects.append_cases hcall with hold | ⟨-, rfl⟩
        · exact absurd hst (hnone t call hold)
        · cases hst

/-- Nothing of a cluster at rest is left, so it may be started again. -/
theorem no_token_of_atRest {c : Nat} {nc : NamedCluster} (hnc : s.allClusters[c]? = some nc)
    (hrest : s.atRest c nc = true) (p : Option Nat) : ¬ Token s c p := by
  rw [atRest, Bool.and_eq_true] at hrest
  obtain ⟨hcluster, htasks⟩ := hrest
  rintro (⟨mc, hmc, hpos⟩ | ⟨k, x, hx, halive, hkind⟩)
  · obtain rfl : nc = mc := Option.some.inj (hnc.symm.trans hmc)
    have hzero := (Cluster.resting_of_atRest hcluster).2
    omega
  · have hover := List.all_eq_true.mp htasks x (List.mem_of_getElem? hx)
    simp [halive, hkind] at hover

/-- A request starts a cluster at rest again. -/
theorem Registry.restarts (h : Registry s) (hlocks : LocksFollow s) {k sem c : Nat}
    {x : ServiceTask} {name : String} {nc : NamedCluster} {cl : Cluster} {q : Request}
    (hx : s.tasks[k]? = some x) (hstage : x.stage = .locking)
    (hheld : s.clustersLocks.phase k = .holding name sem) (hc : s.clusters.get x.name = some c)
    (hnc : s.allClusters[c]? = some nc) (hrest : s.atRest c nc = true)
    (hcl : nc.cluster.step digest (.start q) = some cl) :
    Registry { s with
      allClusters := s.allClusters.set c (nc.become cl)
      tasks := s.tasks.set k (x.at (.starting c nc.cluster.calls.length)) } := by
  have hname : nc.name = x.name := by
    obtain ⟨mc, hmc, hname⟩ := h.known x.name c hc
    obtain rfl : nc = mc := Option.some.inj (hnc.symm.trans hmc)
    exact hname
  have hcluster : nc.cluster.atRest = true := by
    rw [atRest, Bool.and_eq_true] at hrest
    exact hrest.1
  have hstep := Cluster.step_cases hcl
  have hlife := h.life c nc hnc
  -- the task first, so that it watches the start
  have htask := h.goesOn (.starting c nc.cluster.calls.length) hx (by simp [hstage])
    (by simp [hstage]) (by simp)
  have hself : (s.tasks.set k (x.at (.starting c nc.cluster.calls.length)))[k]? =
      some (x.at (.starting c nc.cluster.calls.length)) := Objects.set_self hx
  have hcarries : nc.cluster.Carries (.start q) := Or.inl hcluster
  refine htask.moveCluster hnc (hlife.step hcarries hstep) (hlife.callback_made hstep)
    (fun _ _ => ⟨hname ▸ hc, fun p hp => ?_, ?_⟩) ?_
  · refine no_token_of_atRest hnc hrest p (hp.back rfl fun u z hz hzalive hzkind => ?_)
    rcases Objects.set_cases hz with ⟨rfl, rfl, -⟩ | ⟨-, hold⟩
    · exact ⟨x, hx, by simp [hstage], hzkind⟩
    · exact ⟨z, hold, hzalive, hzkind⟩
  · intro u z j hz hj
    rcases Objects.set_cases hz with ⟨rfl, rfl, -⟩ | ⟨-, hold⟩
    · cases hj
    · rw [hname]
      exact hlocks.nobodyCancels hx hstage hheld u z j hold hj
  · intro t call hcall hst
    have hlast : t = nc.cluster.calls.length := by
      have hresting := (Cluster.resting_of_atRest hcluster).1
      have hold : nc.cluster.calls[t]? = some call → t = nc.cluster.calls.length := by
        intro hold
        by_contra hne
        rw [hresting.calls t call hold hne] at hst
        cases hst
      cases hstep with
      | startPasses =>
          rcases Objects.append_cases hcall with hcall | ⟨ht, -⟩
          · exact hold hcall
          · exact ht
      | startSkips =>
          rcases Objects.append_cases hcall with hcall | ⟨ht, -⟩
          · exact hold hcall
          · exact ht
    exact ⟨k, _, hself, by rw [hlast]; rfl, hname.symm⟩

/-- A new cluster is registered under a name that is vacant. -/
theorem Registry.creates (h : Registry s) {k : Nat} {x : ServiceTask} (q : Request)
    (hx : s.tasks[k]? = some x) (halive : x.stage ≠ .over)
    (hnot : ∀ c t, x.stage ≠ .starting c t)
    (hvacant : ∀ (c : Nat) (nc : NamedCluster), s.clusters.get x.name = some c →
      s.allClusters[c]? = some nc → nc.cluster.state = .terminated ∧ ∀ p, ¬ Token s c p)
    (hnobody : ∀ (u : Nat) (y : ServiceTask) (j : Nat), u ≠ k → s.tasks[u]? = some y →
      y.stage = .cancelling j → y.name ≠ x.name) :
    Registry { s with
      clusters := s.clusters.set x.name s.allClusters.length
      allClusters := s.allClusters ++ [⟨x.name, Cluster.start {} q⟩]
      tasks := s.tasks.set k (x.at (.starting s.allClusters.length 0)) } := by
  have htask := h.goesOn (.starting s.allClusters.length 0) hx (fun hover => absurd hover halive)
    hnot (by simp)
  refine htask.addCluster ⟨fun c nc hc hnc => ?_, fun u y j hy hj => ?_⟩
    (Objects.set_self hx) rfl rfl
  · obtain ⟨hterm, htokens⟩ := hvacant c nc hc hnc
    refine ⟨hterm, fun p hp => htokens p (hp.back rfl fun u z hz hzalive hzkind => ?_)⟩
    rcases Objects.set_cases hz with ⟨rfl, rfl, -⟩ | ⟨-, hold⟩
    · exact ⟨x, hx, halive, hzkind⟩
    · exact ⟨z, hold, hzalive, hzkind⟩
  · rcases Objects.set_cases hy with ⟨rfl, rfl, -⟩ | ⟨hne, hold⟩
    · cases hj
    · exact hnobody u y j hne hold hj

/-- The start that a task awaits ends, and the task leaves its lock. -/
theorem Registry.startEnds (h : Registry s) {b : TaskAct} {r : Cluster.CallAct} {k c t : Nat}
    {x : ServiceTask} {nc : NamedCluster} {cl : Cluster} (hb : StartEnds b r)
    (hx : s.tasks[k]? = some x) (hstage : x.stage = .starting c t)
    (hnc : s.allClusters[c]? = some nc) (hcl : nc.cluster.step digest (.call t r) = some cl) :
    Registry { s with
      allClusters := s.allClusters.set c (nc.become cl)
      tasks := s.tasks.set k (x.at .over) } := by
  have hr : r = .startDone ∨ r = .startRaised := by cases hb <;> simp
  have hmoved := h.moves hnc hcl trivial (by simp)
  refine hmoved.setTask hx rfl rfl (by simp [hstage]) (by simp [ServiceTask.at]) ?_
  intro d u hst
  obtain ⟨rfl, rfl⟩ : c = d ∧ t = u := by simpa [hstage] using hst
  refine .inr fun mc call hmc hcall => ?_
  obtain rfl : mc = nc.become cl := Option.some.inj (hmc.symm.trans (Objects.set_self hnc))
  exact (Cluster.step_cases hcl).started hr hcall

/-- The token of a task that is over is gone. -/
theorem no_token_after {k c : Nat} {x : ServiceTask} (h : Registry s) (hx : s.tasks[k]? = some x)
    (halive : x.stage ≠ .over) (hkind : x.kind.concerns c = true) (p : Option Nat) :
    ¬ Token { s with tasks := s.tasks.set k (x.at .over) } c p := by
  have htoken : Token s c (some k) := .task k x hx halive hkind
  intro hp
  cases hp with
  | spawned nc hnc hpos => cases h.oneToken c _ _ htoken (.spawned nc hnc hpos)
  | task u y hy hyalive hykind =>
      rcases Objects.set_cases hy with ⟨rfl, rfl, -⟩ | ⟨hne, hold⟩
      · exact hyalive rfl
      · cases h.oneToken c _ _ htoken (.task u y hold hyalive hykind)
        exact hne rfl

/-- `_on_cluster_stop` puts a removal in the place of its callback. -/
theorem Registry.registers (h : Registry s) (hlocks : LocksFollow s) {k sem c : Nat}
    {x : ServiceTask} {name : String} (hx : s.tasks[k]? = some x)
    (hkind : x.kind = .onClusterStop c) (hstage : x.stage = .locking)
    (hheld : s.clustersLocks.phase k = .holding name sem) :
    Registry { s with
      clustersRemoveTasks := s.clustersRemoveTasks.set x.name s.tasks.length
      tasks := s.tasks.set k (x.at .over) ++ [⟨.removeCluster c, x.name, .sleeping, false⟩] } := by
  have halive : x.stage ≠ .over := by simp [hstage]
  have hconcerns : x.kind.concerns c = true := by simp [hkind, TaskKind.concerns]
  obtain ⟨nc, hnc, hname⟩ := h.named k x c hx hconcerns
  obtain ⟨hterm, hreg⟩ := h.token c nc _ hnc (.task k x hx halive hconcerns)
  have hover := h.goesOn .over hx (fun _ => rfl) (by simp [hstage]) (by simp)
  have hadded := hover.addTask (y := ⟨.removeCluster c, x.name, .sleeping, false⟩) (by simp)
    fun d hd => by
      obtain rfl : c = d := by simpa [TaskKind.concerns] using hd
      refine ⟨⟨nc, hnc, hname, hterm, hreg⟩, no_token_after h hx halive hconcerns, ?_⟩
      intro u y j hy hj
      rcases Objects.set_cases hy with ⟨rfl, rfl, -⟩ | ⟨-, hold⟩
      · cases hj
      · exact hlocks.nobodyCancels hx hstage hheld u y j hold hj
  apply hadded.setRemovals _
  intro name' j hj
  by_cases hn : name' = x.name
  · subst hn
    rw [Dict.get_set_self] at hj
    obtain rfl := Option.some.inj hj
    refine .inr ⟨⟨.removeCluster c, x.name, .sleeping, false⟩, c, ?_, rfl, rfl⟩
    have hlast : (s.tasks.set k (x.at .over)).length = s.tasks.length := List.length_set
    rw [← hlast]
    exact List.getElem?_concat_length
  · rw [Dict.get_set_ne _ hn] at hj
    exact .inl hj

/-- The removal of a stopped cluster deletes it. -/
theorem Registry.removes (h : Registry s) (hlocks : LocksFollow s) {k sem c : Nat}
    {x : ServiceTask} {name : String} (hx : s.tasks[k]? = some x)
    (hkind : x.kind = .removeCluster c) (hstage : x.stage = .locking)
    (hheld : s.clustersLocks.phase k = .holding name sem) :
    Registry { s with
      clusters := s.clusters.erase x.name
      tasks := s.tasks.set k (x.at .over) } := by
  have halive : x.stage ≠ .over := by simp [hstage]
  have hconcerns : x.kind.concerns c = true := by simp [hkind, TaskKind.concerns]
  obtain ⟨nc, hnc, hname⟩ := h.named k x c hx hconcerns
  obtain ⟨hterm, hreg⟩ := h.token c nc _ hnc (.task k x hx halive hconcerns)
  have hover := h.goesOn .over hx (fun _ => rfl) (by simp [hstage]) (by simp)
  refine hover.erase ⟨fun d mc hd hmc => ?_, fun u y j hy hj => ?_⟩
  · -- the cluster of the removal is the registered one
    rw [hname] at hreg
    obtain rfl : c = d := Option.some.inj (hreg.symm.trans hd)
    obtain rfl : nc = mc := Option.some.inj (hnc.symm.trans hmc)
    exact ⟨hterm, no_token_after h hx halive hconcerns⟩
  · rcases Objects.set_cases hy with ⟨rfl, rfl, -⟩ | ⟨-, hold⟩
    · cases hj
    · exact hlocks.nobodyCancels hx hstage hheld u y j hold hj

/-- A request that has nothing to cancel finds what is registered. -/
theorem found_eq {k : Nat} {x : ServiceTask} {q : Request} (hx : s.tasks[k]? = some x)
    (hkind : x.kind = .requestNodes q) (hnone : s.pendingRemoval x.name = none) :
    s.found k = s.clusters.get x.name := by
  simp [found, hx, hkind, hnone]

/-- **One step under the condition keeps the invariant.** -/
theorem Registry.step (h : Registry s) (hlocks : LocksFollow s) (hok : keepsRegistry s a = true)
    (hs : Step digest s a s') : Registry s' := by
  obtain ⟨hbeside, hrest, -⟩ := keepsRegistry_iff.mp hok
  cases hs with
  | arrives _ kind name ha =>
      have hkind : ∀ c, kind.concerns c = false := by
        intro c
        cases a <;> simp only [Act.arrival, Option.some.injEq, Prod.mk.injEq, reduceCtorEq] at ha
        all_goals
          obtain ⟨rfl, -⟩ := ha
          rfl
      have hadded := h.addTask (y := ⟨kind, name, .locking, false⟩) (by simp)
        fun c hc => absurd hc (by simp [hkind])
      exact hadded.frame rfl rfl rfl rfl
  | callback c nc cl hnc hcl => exact (h.callback hnc hcl).frame rfl rfl rfl rfl
  | wakes k x hx hstage =>
      have hnext := h.goesOn .locking hx (by simp [hstage]) (by simp [hstage]) (by simp)
      exact hnext.frame rfl rfl rfl rfl
  | cancels k x hx =>
      have hflag := h.setTask (y := { x with cancelled := true }) hx rfl rfl id
        (fun j hj => h.cancelling k x j hx hj) fun c t _ => .inl rfl
      exact hflag.frame rfl rfl rfl rfl
  | dies k x hx hstage => exact h.goesOn .over hx (fun _ => rfl) (by simp [hstage]) (by simp)
  | unwinds k x L hx hstage =>
      have hnext := h.goesOn .over hx (fun _ => rfl) (by simp [hstage]) (by simp)
      exact hnext.frame rfl rfl rfl rfl
  | resumes k x L => exact h.frame rfl rfl rfl rfl
  | leaves b k x L hx hstage =>
      have hnext := h.goesOn .over hx (fun _ => rfl) hstage (by simp)
      exact hnext.frame rfl rfl rfl rfl
  | misses k x L hx hstage =>
      have hnext := h.goesOn .over hx (fun _ => rfl) (by simp [hstage]) (by simp)
      exact hnext.frame rfl rfl rfl rfl
  | cancelsRemoval k x q name sem j y hx hkind hstage hheld hj hy halive =>
      exact (h.cancelsRemoval hx hkind hstage hj hy halive).frame rfl rfl rfl rfl
  | joins k x q name sem c nc cl L hx hkind hstage hheld hnone hc hnc hstate hcl =>
      have hjoined := h.joins hnc (h.noStarting hlocks hx hstage hheld hc hnc) hstate hcl
      have hover := hjoined.goesOn .over hx (fun _ => rfl) (by simp [hstage]) (by simp)
      exact (hover.eraseRemovals x.name).frame rfl rfl rfl rfl
  | restarts k x q name sem c nc cl hx hkind hstage hheld hnone hc hnc hstate hcl =>
      have hatRest : s.atRest c nc = true := by
        have hnot : nc.cluster.state.live = false := by grind
        simpa [restartsAtRest, found_eq hx hkind hnone, hc, hnc, hnot] using hrest
      have hstarted := h.restarts hlocks hx hstage hheld hc hnc hatRest hcl
      exact (hstarted.eraseRemovals x.name).frame rfl rfl rfl rfl
  | creates k x q name sem hx hkind hstage hheld hnone hc =>
      have hcreated := h.creates q hx (by simp [hstage]) (by simp [hstage]) (by simp [hc])
        fun u y j _ hy hj => hlocks.nobodyCancels hx hstage hheld u y j hy hj
      exact (hcreated.eraseRemovals x.name).frame rfl rfl rfl rfl
  | replaces k x q j y hx hkind hstage hy hover =>
      obtain ⟨-, hregistered⟩ := h.cancelling k x j hx hstage
      refine h.creates q hx (by simp [hstage]) (by simp [hstage]) (fun c nc hc hnc => ?_) ?_
      · obtain ⟨hterm, htokens⟩ := hregistered c nc hc hnc
        refine ⟨hterm, fun p hp => ?_⟩
        -- the only token was the removal, and it is over
        obtain rfl := htokens p hp
        cases hp with
        | task _ z hz halive =>
            obtain rfl : y = z := Option.some.inj (hy.symm.trans hz)
            exact halive hover
      · intro u z i hne hz hi hname
        have hk : x.position = .inside x.name := by rw [ServiceTask.position, hstage]
        have hu : z.position = .inside x.name := by rw [ServiceTask.position, hi, hname]
        exact hne (hlocks.mutex hz hx hu hk)
  | startEnds b r k x c t nc cl L hb hx hstage hnc hcl =>
      exact (h.startEnds hb hx hstage hnc hcl).frame rfl rfl rfl rfl
  | terminates k x nodeId name sem c n nc cl hx hkind hstage hheld hnc hcl =>
      have hmoved := h.moves hnc hcl trivial (by simp)
      exact hmoved.goesOn (.stoppingNode c n) hx (by simp [hstage]) (by simp [hstage]) (by simp)
  | registers k x name sem c L hx hkind hstage hheld =>
      exact (h.registers hlocks hx hkind hstage hheld).frame rfl rfl rfl rfl
  | removes k x name sem c c' nc L hx hkind hstage hheld =>
      exact (h.removes hlocks hx hkind hstage hheld).frame rfl rfl rfl rfl
  | cluster c b nc cl hb hnc hcl =>
      have hinternal : nc.cluster.Carries b ∧ ∀ q, b ≠ .start q := by
        cases b <;> simp [internal, Cluster.Carries] at hb ⊢
      exact h.moves hnc hcl hinternal.1 hinternal.2
  | stops => cases hbeside
  | sizeChanged => cases hbeside
  | stopsCluster => cases hbeside
  | stopReturns => cases hbeside
  | clusterStopped => cases hbeside
  | clusterStopRaised => cases hbeside

/-! ### What is dropped -/

/-- **A step under the condition drops only stopped clusters.** -/
theorem Registry.dropsNoLive (h : Registry s) (hok : keepsRegistry s a = true)
    (hgone : ∀ (c : Nat) (nc : NamedCluster), s.allClusters[c]? = some nc →
      Cluster.NodesGone (fun st => st.live = true) nc.cluster)
    (hs : Step digest s a s') : DropsNoLive s s' := by
  obtain ⟨hbeside, -, -⟩ := keepsRegistry_iff.mp hok
  have hdead : ∀ {c : Nat} {nc : NamedCluster}, s.allClusters[c]? = some nc →
      nc.cluster.state = .terminated →
        nc.cluster.state = .terminated ∧ ∀ v ∈ nc.cluster.allNodes, v.state.live = false := by
    intro c nc hnc hterm
    refine ⟨hterm, fun v hv => ?_⟩
    obtain ⟨n, hn⟩ := List.mem_iff_getElem?.mp hv
    simpa using hgone c nc hnc hterm n v hn
  cases hs with
  | creates k x q name sem hx hkind hstage hheld hnone hc =>
      intro name' c nc hreg hdropped
      have hdropped : (s.clusters.set x.name s.allClusters.length).get name' ≠ some c := hdropped
      by_cases hn : name' = x.name
      · rw [hn, hc] at hreg
        cases hreg
      · rw [Dict.get_set_ne _ hn] at hdropped
        exact absurd hreg hdropped
  | replaces k x q j y hx hkind hstage =>
      intro name' c nc hreg hdropped hnc
      have hdropped : (s.clusters.set x.name s.allClusters.length).get name' ≠ some c := hdropped
      by_cases hn : name' = x.name
      · subst hn
        exact hdead hnc ((h.cancelling k x j hx hstage).registered c nc hreg hnc).1
      · rw [Dict.get_set_ne _ hn] at hdropped
        exact absurd hreg hdropped
  | removes k x name sem c c' mc L hx hkind hstage =>
      intro name' d nc hreg hdropped hnc
      have hdropped : (s.clusters.erase x.name).get name' ≠ some d := hdropped
      by_cases hn : name' = x.name
      · subst hn
        have hconcerns : x.kind.concerns c = true := by simp [hkind, TaskKind.concerns]
        obtain ⟨mc, hmc, hname⟩ := h.named k x c hx hconcerns
        obtain ⟨hterm, hregc⟩ := h.token c mc _ hmc (.task k x hx (by simp [hstage]) hconcerns)
        rw [hname] at hregc
        obtain rfl : c = d := Option.some.inj (hregc.symm.trans hreg)
        obtain rfl : mc = nc := Option.some.inj (hmc.symm.trans hnc)
        exact hdead hnc hterm
      · rw [Dict.get_erase_ne _ hn] at hdropped
        exact absurd hreg hdropped
  | stops => cases hbeside
  | sizeChanged => cases hbeside
  | stopsCluster => cases hbeside
  | stopReturns => cases hbeside
  | clusterStopped => cases hbeside
  | clusterStopRaised => cases hbeside
  | _ => exact fun name c nc hreg hdropped => absurd hreg hdropped

/-- Live nodes are registered with their cluster, and it with the service. -/
theorem Registry.liveNodesFound (h : Registry s)
    (hcovered : ∀ (c : Nat) (nc : NamedCluster), s.allClusters[c]? = some nc →
      Cluster.NodesCovered (fun st => st.live = true) nc.cluster ∧
        Cluster.NodesGone (fun st => st.live = true) nc.cluster) : LiveNodesFound s := by
  intro c nc n hnc hlive
  obtain ⟨hcov, hgone⟩ := hcovered c nc hnc
  obtain ⟨v, hv, hvlive⟩ : ∃ v, nc.cluster.allNodes[n]? = some v ∧ v.state.live = true := by
    unfold Cluster.isLive at hlive
    split at hlive
    · exact ⟨_, ‹_›, hlive⟩
    · cases hlive
  refine ⟨h.registered c nc hnc fun hterm => ?_, hcov.registered n v hv hvlive⟩
  exact hgone hterm n v hv hvlive

/-- What the condition keeps up in a run. -/
theorem registry_of_reach (h : Reach Initial (step digest) (fun s a => keepsRegistry s a) s) :
    LocksFollow s ∧ Registry s :=
  Reach.invariant (I := fun s => LocksFollow s ∧ Registry s)
    (fun _ hinit => ⟨locksFollow_initial hinit, registry_initial hinit⟩)
    (fun _ _ _ hi hok hstep => ⟨hi.1.step (keepsRegistry_iff.mp hok).1 (step_cases hstep),
      hi.2.step hi.1 hok (step_cases hstep)⟩) h

/-- **No live cluster is dropped** in a run whose steps all meet the condition: what
its next step drops is a stopped cluster, and every live node is found by the name
of its cluster. -/
theorem live_clusters_registered
    (h : Reach Initial (step digest) (fun s a => keepsRegistry s a) s) :
    LiveNodesFound s ∧
      ∀ a s', keepsRegistry s a = true → step digest s a = some s' → DropsNoLive s s' := by
  obtain ⟨-, hreg⟩ := registry_of_reach h
  have hcovered := live_nodes_covered
    (h.mono fun s a (hok : keepsRegistry s a = true) => (keepsRegistry_iff.mp hok).2.2)
  refine ⟨hreg.liveNodesFound hcovered, fun a s' hok hstep => ?_⟩
  exact hreg.dropsNoLive hok (fun c nc hnc => (hcovered c nc hnc).2) (step_cases hstep)

/-! ### Two runs -/

/-- A request for one worker, up to the moment when its node is registered. -/
def requestOneNode (c call : Nat) : List Act :=
  let acts : List Cluster.Act := [.call call .prepare, .call call .lookup]
  (acts ++ Cluster.requestAfterCreate call 1).map (.cluster c)

/-- The request that creates the first cluster, whose only node runs. -/
def firstRequest : List Act :=
  [.requestNodes "cluster" ⟨Cluster.publicConfig, 1, false⟩, .task 0 .run, .task 0 .startDone] ++
    requestOneNode 0 0 ++ [.cluster 0 (.node 0 .ready)]

/-- The cluster stops, its callback registers the removal, and a request that comes
then cancels it and creates another cluster. -/
def replacedAtRest : List Act :=
  firstRequest ++ (Cluster.stopLastNode 0 0 1).map (.cluster 0) ++
    [.onClusterStop 0, .task 1 .run,
      .requestNodes "cluster" ⟨Cluster.publicConfig, 1, false⟩, .task 3 .run, .task 2 .unwind,
      .task 3 .ensureCancelled, .task 3 .startDone] ++ requestOneNode 1 0

theorem live_clusters_registered_replaced :
    ∃ s, exec (guarded (step Cluster.exampleDigest) keepsRegistry) replacedAtRest {} = some s ∧
      s.clusters.get "cluster" = some 1 ∧ LiveNodesFound s := by
  refine ⟨_, rfl, rfl, ?_⟩
  have hreach : Reach Initial (step Cluster.exampleDigest) (fun s a => keepsRegistry s a) _ :=
    Reach.execGuarded replacedAtRest (.start rfl) rfl
  exact (live_clusters_registered hreach).1

/-- A request gets the lock before the on-stop callback and starts the cluster
again; the callback registers the removal of a running cluster, and the next
request cancels it. -/
def restartedBeforeCallback : List Act :=
  firstRequest ++ (Cluster.stopLastNode 0 0 1).map (.cluster 0) ++
    [.requestNodes "cluster" ⟨Cluster.publicConfig, 1, false⟩, .task 1 .run, .onClusterStop 0,
      .task 1 .startDone] ++ requestOneNode 0 1 ++
    [.task 2 .resume, .task 2 .run,
      .requestNodes "cluster" ⟨Cluster.publicConfig, 1, false⟩, .task 4 .run, .task 3 .unwind]

/-- **A running cluster with a pending node is dropped** by the second request after
its restart. -/
theorem live_cluster_dropped :
    ¬ ∀ s a s', Reach Initial (step Cluster.exampleDigest) (fun s a => besideServiceStop s a) s →
      step Cluster.exampleDigest s a = some s' → DropsNoLive s s' := by
  intro hall
  have hrun : ∃ s s' nc,
      exec (guarded (step Cluster.exampleDigest) besideServiceStop) restartedBeforeCallback {} =
        some s ∧
      step Cluster.exampleDigest s (.task 4 .ensureCancelled) = some s' ∧
      s.allClusters[0]? = some nc ∧ nc.cluster.state = .running ∧
      (nc.cluster.allNodes[1]?).map NodeView.state = some .pending ∧
      s.clusters.get "cluster" = some 0 ∧ s'.clusters.get "cluster" = some 1 :=
    ⟨_, _, _, rfl, rfl, rfl, rfl, rfl, rfl, rfl⟩
  obtain ⟨s, s', nc, hs, hs', hnc, hrunning, -, hget, hget'⟩ := hrun
  have hreach : Reach Initial (step Cluster.exampleDigest) (fun s a => besideServiceStop s a) s :=
    Reach.execGuarded restartedBeforeCallback (.start rfl) hs
  have hdropped : s'.clusters.get "cluster" ≠ some 0 := by simp [hget']
  have hterm := (hall s _ s' hreach hs' "cluster" 0 nc hget hdropped hnc).1
  rw [hrunning] at hterm
  cases hterm

end RayService
