import RayOnGolem.Lib.LockPositions
import RayOnGolem.RayServiceStep

/-!
# One task at a time for each cluster name

The service deletes entries of `_clusters_locks` on three paths, each after it
left the lock and only when the semaphore is not `locked()`.  The lock table
follows the stages of the tasks through every step but the end of
`RayService.stop`, so that deleting an entry never takes it from a task.

Main result: `mutual_exclusion` -- in every run without `RayService.stop`, two
tasks are never past the lock of the same name, and the semaphore that a task
holds, or waits for, is the current entry of its name.
-/

/-- Where a task stands at the lock of its name. -/
def ServiceTask.position (x : ServiceTask) : LockTable.Position String :=
  match x.stage with
  | .sleeping => .outside
  | .locking => .at x.name
  | .cancelling _ => .inside x.name
  | .starting _ _ => .inside x.name
  | .stoppingNode _ _ => .inside x.name
  | .over => .outside

namespace RayService

open Runs
open LockTable (Follows)

variable {digest : NodeConfigData → String} {s s' : RayService} {a : Act}

/-- The lock table follows the stages of the tasks. -/
abbrev LocksFollow (s : RayService) : Prop :=
  Follows ServiceTask.position s.clustersLocks s.tasks

theorem locksFollow_initial (h : Initial s) : LocksFollow s := by
  subst h
  exact LockTable.follows_empty _

theorem position_locking {x : ServiceTask} (h : x.stage = .locking) : x.position = .at x.name := by
  rw [ServiceTask.position, h]

/-- A task is inside of the lock of its own name. -/
theorem name_of_inside {x : ServiceTask} {name : String} (h : x.position = .inside name) :
    x.name = name := by
  cases hstage : x.stage <;> simp [ServiceTask.position, hstage] at h <;> exact h

/-- A task cancels another one, or itself, and goes inside its lock. -/
theorem LocksFollow.cancelsRemoval (h : LocksFollow s) {k j sem : Nat} {x y : ServiceTask}
    {name : String} (hx : s.tasks[k]? = some x) (hstage : x.stage = .locking)
    (hheld : s.clustersLocks.phase k = .holding name sem) (hy : s.tasks[j]? = some y) :
    Follows ServiceTask.position (s.clustersLocks.cancel j)
      ((s.tasks.set j { y with cancelled := true }).set k (x.at (.cancelling j))) := by
  have hcancel := (Follows.cancel h j).stay hy (y := { y with cancelled := true }) rfl
  have hholds : (s.clustersLocks.cancel j).phase k = .holding name sem := by
    rw [← LockTable.Phase.place_eq_holding, LockTable.place_cancel]
    exact LockTable.Phase.place_eq_holding.mpr hheld
  by_cases hkj : k = j
  · subst hkj
    obtain rfl : x = y := Option.some.inj (hx.symm.trans hy)
    exact hcancel.goInside (Objects.set_self hy) (position_locking hstage) hholds rfl
  · have hx' : (s.tasks.set j { y with cancelled := true })[k]? = some x :=
      Objects.set_old hkj hx
    exact hcancel.goInside hx' (position_locking hstage) hholds rfl

/-- **The lock table follows the tasks** through every step. -/
theorem LocksFollow.step (h : LocksFollow s) (hok : besideServiceStop s a = true)
    (hs : Step digest s a s') : LocksFollow s' := by
  cases hs with
  | arrives => exact Follows.enterNew h rfl
  | callback => exact Follows.enterNew h rfl
  | wakes k x hx hstage =>
      exact Follows.enter h hx (by rw [ServiceTask.position, hstage]) rfl
  | cancels k x hx => exact (Follows.cancel h k).stay hx rfl
  | dies k x hx hstage =>
      apply Follows.stay h hx
      show (x.at .over).position = x.position
      rw [ServiceTask.position, ServiceTask.position, hstage, ServiceTask.at]
  | unwinds k x L hx hstage hcancelled hL => exact Follows.unwind h hx hL rfl
  | resumes k x L hx hstage hcancelled hL =>
      exact Follows.resume h hx (position_locking hstage) hL
  | leaves b k x L hx hstage hL => exact Follows.exit h hx hL rfl
  | misses k x L hx hstage hc hL => exact (Follows.exit h hx hL rfl).cleanup _
  | cancelsRemoval k x q name sem j y hx hkind hstage hheld hj hy =>
      exact h.cancelsRemoval hx hstage hheld hy
  | joins k x q name sem c nc cl L hx hkind hstage hheld hnone hc hnc hstate hcl hL =>
      exact Follows.exit h hx hL rfl
  | restarts k x q name sem c nc cl hx hkind hstage hheld =>
      exact Follows.goInside h hx (position_locking hstage) hheld rfl
  | creates k x q name sem hx hkind hstage hheld =>
      exact Follows.goInside h hx (position_locking hstage) hheld rfl
  | replaces k x q j y hx hkind hstage =>
      apply Follows.stay h hx
      show (x.at _).position = x.position
      rw [ServiceTask.position, ServiceTask.position, hstage, ServiceTask.at]
  | startEnds b r k x c t nc cl L ha hx hstage hnc hcl hL => exact Follows.exit h hx hL rfl
  | terminates k x nodeId name sem c n nc cl hx hkind hstage hheld =>
      exact Follows.goInside h hx (position_locking hstage) hheld rfl
  | registers k x name sem c L hx hkind hstage hheld hL =>
      exact (Follows.exit h hx hL rfl).append rfl
  | removes k x name sem c c' nc L hx hkind hstage hheld hnc hstate hc hL =>
      exact (Follows.exit h hx hL rfl).cleanup _
  | cluster c b => exact h
  | stops => cases hok
  | sizeChanged => cases hok
  | stopsCluster => cases hok
  | stopReturns => cases hok
  | clusterStopped => cases hok
  | clusterStopRaised => cases hok

/-- Task `k` is past the lock of `name`: it is at an await inside of the critical
section, or it has the lock and was not yet let on. -/
def InCritical (s : RayService) (k : Nat) (name : String) : Prop :=
  ∃ x, s.tasks[k]? = some x ∧ x.name = name ∧
    (x.position = .inside name ∨
      x.stage = .locking ∧ ∃ key sem, s.clustersLocks.phase k = .holding key sem)

/-- A task in its critical section holds a semaphore of its name. -/
theorem InCritical.holding (h : LocksFollow s) {k : Nat} {name : String}
    (hk : InCritical s k name) : ∃ sem, s.clustersLocks.phase k = .holding name sem := by
  obtain ⟨x, hx, rfl, hinside | ⟨hstage, key, sem, hheld⟩⟩ := hk
  · exact h.holding hx hinside
  · -- a task at the lock of its name is at no other one
    have hplace := h.agrees k x hx
    rw [position_locking hstage, hheld] at hplace
    obtain ⟨sem', b, hplace⟩ := hplace
    have hkey : key = x.name := by
      simpa [LockTable.Phase.place] using congrArg (Option.map Prod.fst) hplace
    exact ⟨sem, by rw [hheld, hkey]⟩

/-- A task that holds its lock excludes all others from the name. -/
theorem InCritical.unique (h : LocksFollow s) {k u : Nat} {name : String}
    (hk : InCritical s k name) (hu : InCritical s u name) : k = u := by
  obtain ⟨sem, hk⟩ := hk.holding h
  obtain ⟨sem', hu⟩ := hu.holding h
  exact h.wf.mutex hk hu

/-- The claimed property. -/
structure MutualExclusion (s : RayService) : Prop where
  exclusive : ∀ (name : String) (k u : Nat), InCritical s k name → InCritical s u name → k = u
  current : ∀ (name : String) (k sem : Nat),
    (s.clustersLocks.phase k).Uses name sem → s.clustersLocks.dict name = some sem

/-- **Mutual exclusion survives the deletion of locks**, in every run without
`RayService.stop`, with any number of tasks and any cancellations. -/
theorem mutual_exclusion (h : Reach Initial (step digest) (fun s a => besideServiceStop s a) s) :
    MutualExclusion s := by
  have hlocks : LocksFollow s :=
    Reach.invariant (I := LocksFollow) (fun _ => locksFollow_initial)
      (fun _ _ _ hi hok hstep => hi.step hok (step_cases hstep)) h
  refine ⟨fun name k u hk hu => hk.unique hlocks hu, fun name k sem huses => ?_⟩
  exact hlocks.wf.current k name sem huses

/-! ### A run -/

/-- Two requests and a query for one name: the first creates the cluster, the
query is cancelled while it waits, and the second goes on. -/
def threeTasks : List Act :=
  let q : Request := ⟨{ subnetTag := "public" }, 1, false⟩
  [.query "cluster", .task 0 .run, .requestNodes "cluster" q, .task 1 .run, .query "cluster",
    .requestNodes "cluster" q, .task 2 .cancel, .task 2 .unwind, .task 1 .startDone,
    .task 3 .resume]

theorem mutual_exclusion_threeTasks :
    ∃ s, exec (guarded (step fun _ => "") besideServiceStop) threeTasks {} = some s ∧
      s.tasks.map ServiceTask.stage = [.over, .over, .over, .locking] ∧
      s.clustersLocks.dict "cluster" = some 1 ∧ MutualExclusion s := by
  refine ⟨_, rfl, rfl, rfl, ?_⟩
  have hreach : Reach Initial (step fun _ => "") (fun s a => besideServiceStop s a) _ :=
    Reach.execGuarded threeTasks (.start rfl) rfl
  exact mutual_exclusion hreach

end RayService
