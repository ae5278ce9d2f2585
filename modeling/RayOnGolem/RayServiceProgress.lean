import Mathlib.Logic.Relation
import RayOnGolem.Lib.LockOwners
import RayOnGolem.RayServiceLive
import RayOnGolem.RayServiceOrder

/-!
# No task of the service is stuck

A task of the service waits for others in two ways: for a lock that another task
has, and, with its own lock held, for a removal task that it cancelled.  Both can
be combined, and a lock is handed over, cancelled and deleted in any order.

`Orderly` is the invariant.  A semaphore without permit has an owner, and futures
are cancelled along with their tasks (`Lib/LockOwners`); the stage of a task fits
its kind; and the removals, clusters, calls and nodes that a task refers to are
there, a call that is awaited being in `start()`.

Main result: `no_deadlock` -- in every run without `RayService.stop`, from every
task that is not over a chain of waiting tasks leads to one that can go on by
itself or that awaits a node's `stop()` in progress, and no chain is a cycle.
-/

namespace RayService

open Runs
open LockTable (Follows Sound Tended)

variable {digest : NodeConfigData → String} {s s' : RayService} {a : Act}

/-! ### The locks -/

/-- The lock table follows the tasks, nobody is forgotten in it, and futures are cancelled
along with their tasks. -/
structure LocksTended (s : RayService) : Prop where
  follows : LocksFollow s
  sound : s.clustersLocks.Sound
  tended : Tended ServiceTask.cancelled s.clustersLocks s.tasks

theorem locksTended_initial (h : Initial s) : LocksTended s := by
  refine ⟨locksFollow_initial h, ?_, ?_⟩
  · subst h
    exact LockTable.sound_empty
  · subst h
    exact LockTable.tended_empty _

/-- A task that is not there yet is at no lock. -/
theorem LocksFollow.idle_new (h : LocksFollow s) :
    s.clustersLocks.phase s.tasks.length = .idle :=
  LockTable.Phase.place_eq_none.mp (h.outside _ (Nat.le_refl _))

/-- A sleeping task is at no lock. -/
theorem LocksFollow.idle_sleeping (h : LocksFollow s) {k : Nat} {x : ServiceTask}
    (hx : s.tasks[k]? = some x) (hstage : x.stage = .sleeping) :
    s.clustersLocks.phase k = .idle := by
  have hplace := h.agrees k x hx
  rw [ServiceTask.position, hstage] at hplace
  exact LockTable.Phase.place_eq_none.mp hplace

theorem LocksTended.step (h : LocksTended s) (hok : besideServiceStop s a = true)
    (hs : Step digest s a s') : LocksTended s' := by
  refine ⟨h.follows.step hok hs, ?_, ?_⟩
  · have hsound := h.sound
    cases hs with
    | arrives b kind name => exact hsound.enter h.follows.idle_new name
    | callback c nc => exact hsound.enter h.follows.idle_new nc.name
    | wakes k x hx hstage => exact hsound.enter (h.follows.idle_sleeping hx hstage) x.name
    | cancels k => exact hsound.cancel k
    | unwinds k x L hx hstage hcancelled hL => exact hsound.unwind hL
    | resumes k x L hx hstage hcancelled hL => exact hsound.resume hL
    | leaves b k x L hx hstage hL => exact hsound.exit hL
    | misses k x L hx hstage hc hL => exact (hsound.exit hL).cleanup x.name
    | cancelsRemoval k x q name sem j => exact hsound.cancel j
    | joins k x q name sem c nc cl L hx hkind hstage hheld hnone hc hnc hstate hcl hL =>
        exact hsound.exit hL
    | startEnds b r k x c t nc cl L ha hx hstage hnc hcl hL => exact hsound.exit hL
    | registers k x name sem c L hx hkind hstage hheld hL => exact hsound.exit hL
    | removes k x name sem c c' nc L hx hkind hstage hheld hnc hstate hc hL =>
        exact (hsound.exit hL).cleanup x.name
    | stopReturns => cases hok
    | _ => exact hsound
  · have htended := h.tended
    cases hs with
    | arrives b kind name => exact htended.enterNew rfl name
    | callback c nc => exact htended.enterNew rfl nc.name
    | wakes k x hx hstage hcancelled =>
        exact htended.enter (y := x.at .locking) hcancelled x.name
    | cancels k => exact htended.cancel rfl
    | dies k x hx => exact htended.stay hx rfl
    | unwinds k x L hx hstage hcancelled hL => exact htended.unwind hL
    | resumes k x L hx hstage hcancelled hL => exact htended.resume hL
    | leaves b k x L hx hstage hL => exact htended.exit hL
    | misses k x L hx hstage hc hL => exact (htended.exit hL).cleanup x.name
    | cancelsRemoval k x q name sem j y hx hkind hstage hheld =>
        have hcancel : Tended ServiceTask.cancelled (s.clustersLocks.cancel j)
            (s.tasks.set j { y with cancelled := true }) := htended.cancel rfl
        by_cases hkj : k = j
        · subst hkj
          -- a task that holds its lock has no future
          refine hcancel.set (fun key sem' f hp => ?_) fun u key sem' f _ _ hp => hp
          simp [LockTable.cancel, hheld] at hp
        · exact hcancel.stay (Objects.set_old hkj hx) rfl
    | joins k x q name sem c nc cl L hx hkind hstage hheld hnone hc hnc hstate hcl hL =>
        exact htended.exit hL
    | restarts k x q name sem c nc cl hx => exact htended.stay hx rfl
    | creates k x q name sem hx => exact htended.stay hx rfl
    | replaces k x q j y hx => exact htended.stay hx rfl
    | startEnds b r k x c t nc cl L ha hx hstage hnc hcl hL => exact htended.exit hL
    | terminates k x nodeId name sem c n nc cl hx => exact htended.stay hx rfl
    | registers k x name sem c L hx hkind hstage hheld hL =>
        refine (htended.exit hL).append (LockTable.Phase.place_eq_none.mp ?_)
        obtain ⟨hlt, -⟩ := List.getElem?_eq_some_iff.mp hx
        rw [List.length_set, (LockTable.place_exit hL).2.2 _ (Nat.ne_of_gt hlt)]
        exact h.follows.outside _ (Nat.le_refl _)
    | removes k x name sem c c' nc L hx hkind hstage hheld hnc hstate hc hL =>
        exact (htended.exit hL).cleanup x.name
    | stopReturns => cases hok
    | _ => exact htended

/-- The locks are tended in every run without `RayService.stop`. -/
theorem locksTended_of_reach
    (h : Reach Initial (step digest) (fun s a => besideServiceStop s a) s) : LocksTended s :=
  Reach.invariant (I := LocksTended) (fun _ => locksTended_initial)
    (fun _ _ _ hi hok hstep => hi.step hok (step_cases hstep)) h

/-! ### Who waits, and who can go on -/

/-- Task `k` waits for task `u`: for the permit that `u` has, or for the end of the removal
`u` that it cancelled. -/
inductive WaitsFor (s : RayService) (k u : Nat) : Prop
  | lock (name : String) (sem : Nat)
      (hp : s.clustersLocks.phase k = .waiting name sem .pending)
      (howns : (s.clustersLocks.phase u).Owns sem)
  | removal (x y : ServiceTask) (hx : s.tasks[k]? = some x) (hstage : x.stage = .cancelling u)
      (hy : s.tasks[u]? = some y) (halive : y.stage ≠ .over)

/-- Task `k` has a step of its own, without being cancelled now. -/
def CanGoOn (digest : NodeConfigData → String) (s : RayService) (k : Nat) : Prop :=
  ∃ b, b ≠ .cancel ∧ (s.step digest (.task k b)).isSome

/-- Task `k` awaits the `stop()` of a node, which is in progress. -/
def AwaitsNode (s : RayService) (k : Nat) : Prop :=
  ∃ x c n nc v, s.tasks[k]? = some x ∧ x.stage = .stoppingNode c n ∧
    s.allClusters[c]? = some nc ∧ nc.cluster.allNodes[n]? = some v ∧ v.stopping ≠ none

theorem canGoOn_of_stepTask {k : Nat} {x : ServiceTask} (b : TaskAct) (hb : b ≠ .cancel)
    (hx : s.tasks[k]? = some x) (h : (s.stepTask digest k x b).isSome) : CanGoOn digest s k :=
  ⟨b, hb, by simpa [step, hx] using h⟩

/-- A task that holds its lock can leave it. -/
theorem finish_isSome {k sem : Nat} {name : String} (x : ServiceTask)
    (hheld : s.clustersLocks.phase k = .holding name sem) : (s.finish k x).isSome := by
  simp [finish, LockTable.exit, hheld]

theorem finishCleanup_isSome {k sem : Nat} {name : String} (x : ServiceTask)
    (hheld : s.clustersLocks.phase k = .holding name sem) : (s.finishCleanup k x).isSome := by
  simp [finishCleanup, LockTable.exit, hheld]

theorem stepCluster_isSome {c : Nat} {b : Cluster.Act} {nc : NamedCluster}
    (hnc : s.allClusters[c]? = some nc) (h : (nc.cluster.step digest b).isSome) :
    (s.stepCluster digest c b).isSome := by
  simp [stepCluster, hnc, h]

/-- The start of a request's cluster is begun, or the request leaves the lock. -/
theorem startCluster_isSome {k sem c : Nat} {name : String} {q : Request} {nc : NamedCluster}
    (x : ServiceTask) (hheld : s.clustersLocks.phase k = .holding name sem)
    (hnc : s.allClusters[c]? = some nc) : (s.startCluster digest k x q c).isSome := by
  simp only [startCluster, hnc, stepCluster, Cluster.step, Option.map_some, Option.bind_some]
  split
  · exact finish_isSome x hheld
  · rfl

theorem createCluster_isSome {k sem : Nat} {name : String} (q : Request) (x : ServiceTask)
    (hheld : s.clustersLocks.phase k = .holding name sem) :
    (s.createCluster digest k x q).isSome := by
  have hnew : (s.allClusters ++ [⟨x.name, ({} : Cluster)⟩])[s.allClusters.length]? =
      some ⟨x.name, {}⟩ := by simp
  exact startCluster_isSome (s := { s with
    allClusters := s.allClusters ++ [⟨x.name, {}⟩]
    clusters := s.clusters.set x.name s.allClusters.length }) x hheld hnew

/-- A task that has just got its lock can go on, whatever it runs. -/
theorem Orderly.run_isSome (h : Orderly s) {k sem : Nat} {x : ServiceTask} {name : String}
    (hx : s.tasks[k]? = some x) (hstage : x.stage = .locking)
    (hheld : s.clustersLocks.phase k = .holding name sem) : (s.run digest k x).isSome := by
  simp only [run, hstage, hheld]
  cases hkind : x.kind with
  | requestNodes q =>
      simp only [getOrCreateCluster]
      cases s.pendingRemoval x.name with
      | some j => rfl
      | none =>
          cases hc : s.clusters.get x.name with
          | none =>
              exact createCluster_isSome
                (s := { s with clustersRemoveTasks := s.clustersRemoveTasks.erase x.name })
                q x hheld
          | some c =>
              obtain ⟨nc, hnc, -⟩ := h.registered x.name c hc
              exact startCluster_isSome
                (s := { s with clustersRemoveTasks := s.clustersRemoveTasks.erase x.name })
                x hheld hnc
  | query =>
      simp only [runQuery]
      cases s.clusters.get x.name with
      | some c => exact finish_isSome x hheld
      | none => exact finishCleanup_isSome x hheld
  | terminateNode nodeId =>
      simp only [terminateNode]
      cases hc : s.clusters.get x.name with
      | none => exact finishCleanup_isSome x hheld
      | some c =>
          obtain ⟨nc, hnc, -⟩ := h.registered x.name c hc
          simp only [hnc]
          cases nc.cluster.nodes.get nodeId with
          | none => exact finish_isSome x hheld
          | some n =>
              by_cases hlive : nc.cluster.isLive n = true
              · -- a live node is a node
                have hv : ∃ v, nc.cluster.allNodes[n]? = some v := by
                  cases hv : nc.cluster.allNodes[n]? with
                  | some v => exact ⟨v, rfl⟩
                  | none => simp [Cluster.isLive, hv] at hlive
                obtain ⟨v, hv⟩ := hv
                have hstep : (nc.cluster.step digest (.node n .stop)).isSome := by
                  simp [Cluster.step, hv, Cluster.stepNode]
                simpa [hlive] using stepCluster_isSome hnc hstep
              · simpa [hlive] using finish_isSome x hheld
  | onClusterStop c =>
      simp only [registerRemoval, Option.isSome_map]
      exact finish_isSome x hheld
  | removeCluster c =>
      obtain ⟨nc, hnc, -⟩ := h.concerned k x c hx (by simp [hkind, TaskKind.concerns])
      simp only [removeCluster, hnc]
      by_cases hrunning : nc.cluster.isRunning = true
      · simpa [hrunning] using finish_isSome x hheld
      · cases s.clusters.get x.name with
        | none => simpa [hrunning] using finish_isSome x hheld
        | some c' =>
            have hcleanup := finishCleanup_isSome
              (s := { s with clusters := s.clusters.erase x.name }) x hheld
            simpa [hrunning] using hcleanup

/-- A task at its lock can go on, or waits for the task that has the permit. -/
theorem Orderly.locking_goes_on (h : Orderly s) (hlocks : LocksTended s) {k : Nat}
    {x : ServiceTask} (hx : s.tasks[k]? = some x) (hstage : x.stage = .locking) :
    CanGoOn digest s k ∨ ∃ u, s.WaitsFor k u := by
  have hplace := hlocks.follows.agrees k x hx
  rw [position_locking hstage] at hplace
  obtain ⟨sem, b, hplace⟩ := hplace
  cases hp : s.clustersLocks.phase k with
  | idle => simp [hp, LockTable.Phase.place] at hplace
  | holding key sem' =>
      exact .inl (canGoOn_of_stepTask .run (by simp) hx (h.run_isSome hx hstage hp))
  | waiting key sem' f =>
      rcases hlocks.tended.goesOn hlocks.sound hx hp with
        ⟨hc, hresume⟩ | ⟨hc, hunwind⟩ | ⟨rfl, u, -, howns⟩
      · refine .inl (canGoOn_of_stepTask .resume (by simp) hx ?_)
        simpa [stepTask, resume, hstage, hc] using hresume
      · refine .inl (canGoOn_of_stepTask .unwind (by simp) hx ?_)
        simpa [stepTask, unwind, hstage, hc] using hunwind
      · exact .inr ⟨u, .lock key sem' hp howns⟩

/-- Every task that is not over can go on, waits for another one, or awaits a node. -/
theorem Orderly.goes_on (h : Orderly s) (hlocks : LocksTended s) {k : Nat} {x : ServiceTask}
    (hx : s.tasks[k]? = some x) (halive : x.stage ≠ .over) :
    CanGoOn digest s k ∨ (∃ u, s.WaitsFor k u) ∨ s.AwaitsNode k := by
  have hinside : x.position = .inside x.name →
      ∃ sem, s.clustersLocks.phase k = .holding x.name sem := hlocks.follows.holding hx
  cases hstage : x.stage with
  | sleeping =>
      cases hc : x.cancelled with
      | false =>
          refine .inl (canGoOn_of_stepTask .wake (by simp) hx ?_)
          simp [stepTask, wake, hstage, hc]
      | true =>
          refine .inl (canGoOn_of_stepTask .unwind (by simp) hx ?_)
          simp [stepTask, unwind, hstage, hc]
  | locking =>
      rcases h.locking_goes_on hlocks hx hstage with hgo | hwait
      · exact .inl hgo
      · exact .inr (.inl hwait)
  | cancelling j =>
      obtain ⟨⟨y, c, hy, -⟩, -⟩ := h.cancelling k x j hx hstage
      by_cases hover : y.stage = .over
      · obtain ⟨q, hq⟩ : ∃ q, x.kind = .requestNodes q := by
          simpa [ServiceTask.Proper, hstage] using h.proper k x hx
        obtain ⟨sem, hheld⟩ := hinside (by rw [ServiceTask.position, hstage])
        refine .inl (canGoOn_of_stepTask .ensureCancelled (by simp) hx ?_)
        simpa [stepTask, ensureCancelled, hstage, hq, hy, hover] using
          createCluster_isSome q x hheld
      · exact .inr (.inl ⟨j, .removal x y hx hstage hy hover⟩)
  | starting c t =>
      obtain ⟨nc, call, hnc, -, hcall, hst⟩ := h.starting k x c t hx hstage
      obtain ⟨sem, hheld⟩ := hinside (by rw [ServiceTask.position, hstage])
      refine .inl (canGoOn_of_stepTask .startDone (by simp) hx ?_)
      have hdone : (nc.cluster.step digest (.call t .startDone)).isSome := by
        simp [Cluster.step, hcall, Cluster.stepCall, Cluster.startDone, hst]
      obtain ⟨m, hm⟩ := Option.isSome_iff_exists.mp (stepCluster_isSome hnc hdone)
      obtain ⟨nc', cl, -, -, rfl⟩ := stepCluster_cases hm
      simp only [stepTask, startDone, hstage, hm, Option.bind_some]
      exact finish_isSome x hheld
  | stoppingNode c n =>
      obtain ⟨nc, hnc, hn⟩ := h.stoppingNode k x c n hx hstage
      have hv : nc.cluster.allNodes[n]? = some nc.cluster.allNodes[n] :=
        List.getElem?_eq_getElem hn
      by_cases hstopping : nc.cluster.allNodes[n].stopping = none
      · obtain ⟨sem, hheld⟩ := hinside (by rw [ServiceTask.position, hstage])
        refine .inl (canGoOn_of_stepTask .nodeStopped (by simp) hx ?_)
        simpa [stepTask, nodeStopped, hstage, hnc, hv, hstopping] using finish_isSome x hheld
      · exact .inr (.inr ⟨x, c, n, nc, _, hx, hstage, hnc, hv, hstopping⟩)
  | _ => exact absurd hstage halive

/-! ### No deadlock -/

/-- A removal that is being cancelled waits for nobody. -/
theorem Orderly.removal_waits_not (h : Orderly s) (hlocks : LocksTended s) {j v : Nat}
    {name : String} (hj : s.IsRemoval j name)
    (hmarked : ∀ y, s.tasks[j]? = some y → y.cancelled = true) : ¬ s.WaitsFor j v := by
  obtain ⟨y, c, hy, hkind, -⟩ := hj
  rintro (⟨key, sem, hp, -⟩ | ⟨x, z, hx, hstage, -⟩)
  · -- its future would have been cancelled with it
    have hnot := (hlocks.tended j y hy key sem _ hp).1 rfl
    rw [hmarked y hy] at hnot
    cases hnot
  · obtain rfl : y = x := Option.some.inj (hy.symm.trans hx)
    obtain ⟨q, hq⟩ : ∃ q, y.kind = .requestNodes q := by
      simpa [ServiceTask.Proper, hstage] using h.proper j y hy
    rw [hkind] at hq
    cases hq

/-- Whom a task waits for waits at most for a removal that it cancelled. -/
theorem Orderly.waits_twice (h : Orderly s) (hlocks : LocksTended s) {k u v w : Nat}
    (hku : s.WaitsFor k u) (huv : s.WaitsFor u v) : ¬ s.WaitsFor v w := by
  cases huv with
  | removal x y hx hstage =>
      obtain ⟨hj, hmarked⟩ := h.cancelling u x v hx hstage
      exact h.removal_waits_not hlocks hj hmarked
  | lock name sem hp =>
      exfalso
      cases hku with
      | lock name' sem' hp' howns => simp [hp, LockTable.Phase.Owns] at howns
      | removal x y hx hstage =>
          obtain ⟨hj, hmarked⟩ := h.cancelling k x u hx hstage
          exact h.removal_waits_not hlocks hj hmarked (.lock name sem hp ‹_›)

/-- Whoever is waited for is a task that is not over. -/
theorem LocksFollow.waited_for (h : LocksFollow s) {k u : Nat} (hku : s.WaitsFor k u) :
    ∃ y, s.tasks[u]? = some y ∧ y.stage ≠ .over := by
  cases hku with
  | removal x y hx hstage hy halive => exact ⟨y, hy, halive⟩
  | lock name sem hp howns =>
      have hplace : (s.clustersLocks.phase u).place ≠ none := by
        rcases howns with ⟨key, hu⟩ | ⟨key, hu⟩ <;> simp [hu]
      cases hu : s.tasks[u]? with
      | none =>
          exact absurd (h.outside u (List.getElem?_eq_none_iff.mp hu)) hplace
      | some y =>
          refine ⟨y, rfl, fun hover => hplace ?_⟩
          have hagrees := h.agrees u y hu
          rwa [ServiceTask.position, hover] at hagrees

/-- What is proved of the waiting tasks. -/
structure NoDeadlock (digest : NodeConfigData → String) (s : RayService) : Prop where
  progress : ∀ (k : Nat) (x : ServiceTask), s.tasks[k]? = some x → x.stage ≠ .over →
    ∃ u, Relation.ReflTransGen s.WaitsFor k u ∧ (CanGoOn digest s u ∨ s.AwaitsNode u)
  acyclic : ∀ k, ¬ Relation.TransGen s.WaitsFor k k

/-- **No deadlock**, in every run without `RayService.stop`, with any number of requests,
queries, stops and cancellations: from every task that is not over a chain of waiting tasks
leads to one that can go on or that awaits a node's `stop()` in progress, and no task waits
for itself. -/
theorem no_deadlock (h : Reach Initial (step digest) (fun s a => besideServiceStop s a) s) :
    NoDeadlock digest s := by
  have horder := orderly_of_reach h
  have hlocks := locksTended_of_reach h
  -- one link of the chain: the task goes on, or the next link is a task again
  have hlink : ∀ {k : Nat} {x : ServiceTask}, s.tasks[k]? = some x → x.stage ≠ .over →
      (CanGoOn digest s k ∨ s.AwaitsNode k) ∨ ∃ u, s.WaitsFor k u := by
    intro k x hx halive
    rcases horder.goes_on hlocks hx halive with hgo | hwait | hnode
    · exact .inl (.inl hgo)
    · exact .inr hwait
    · exact .inl (.inr hnode)
  constructor
  · intro k x hx halive
    rcases hlink hx halive with hgo | ⟨u, hku⟩
    · exact ⟨k, .refl, hgo⟩
    · obtain ⟨y, hy, hyalive⟩ := hlocks.follows.waited_for hku
      rcases hlink hy hyalive with hgo | ⟨v, huv⟩
      · exact ⟨u, .single hku, hgo⟩
      · obtain ⟨z, hz, hzalive⟩ := hlocks.follows.waited_for huv
        rcases hlink hz hzalive with hgo | ⟨w, hvw⟩
        · exact ⟨v, .tail (.single hku) huv, hgo⟩
        · exact absurd hvw (horder.waits_twice hlocks hku huv)
  · intro k hk
    obtain ⟨u, hku, huk⟩ := Relation.TransGen.head'_iff.mp hk
    -- three links of the cycle, repeated if it is shorter, are one too many
    rcases Relation.ReflTransGen.cases_head huk with rfl | ⟨v, huv, hvk⟩
    · exact horder.waits_twice hlocks hku hku hku
    · rcases Relation.ReflTransGen.cases_head hvk with rfl | ⟨w, hvw, -⟩
      · exact horder.waits_twice hlocks hku huv hku
      · exact horder.waits_twice hlocks hku huv hvw

/-- A stopped cluster is about to be removed; a request cancels the removal, and a query
comes and waits for the request. -/
def waitingTwice : List Act :=
  firstRequest ++ (Cluster.stopLastNode 0 0 1).map (.cluster 0) ++
    [.onClusterStop 0, .task 1 .run,
      .requestNodes "cluster" ⟨Cluster.publicConfig, 1, false⟩, .task 3 .run, .query "cluster"]

theorem no_deadlock_waitingTwice :
    ∃ s, exec (guarded (step Cluster.exampleDigest) besideServiceStop) waitingTwice {} = some s ∧
      s.tasks.map ServiceTask.stage = [.over, .over, .sleeping, .cancelling 2, .locking] ∧
      NoDeadlock Cluster.exampleDigest s := by
  refine ⟨_, rfl, rfl, ?_⟩
  have hreach : Reach Initial (step Cluster.exampleDigest) (fun s a => besideServiceStop s a) _ :=
    Reach.execGuarded waitingTwice (.start rfl) rfl
  exact no_deadlock hreach

end RayService
