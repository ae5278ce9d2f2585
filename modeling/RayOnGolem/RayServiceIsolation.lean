import RayOnGolem.RayServiceProgress

/-!
# Clusters do not touch each other

Everything the service keeps is kept by cluster name: the registered cluster, the
removal task, the lock, the tasks that work on them, and the clusters that were
ever created under the name.  A removed cluster's number, a cancelled removal and
a woken waiter come from entries, so it takes `Orderly` and the lock table's
invariant to see that they are always found under the acting name.

Main result: `clusters_isolated` -- in every run without `RayService.stop`, steps
that do not act for a name leave everything under that name exactly as it is.
-/

namespace RayService

open Runs
open LockTable (Aside)

variable {digest : NodeConfigData → String} {s s' s'' : RayService} {a : Act} {name : String}

/-- The cluster name that a step acts for; `RayService.stop` acts for all. -/
def actsFor (s : RayService) : Act → Option String
  | .requestNodes name _ => some name
  | .query name => some name
  | .terminateNode name _ => some name
  | .task k _ => (s.tasks[k]?).map ServiceTask.name
  | .cluster c _ => (s.allClusters[c]?).map NamedCluster.name
  | .onClusterStop c => (s.allClusters[c]?).map NamedCluster.name
  | .stop | .stopNext | .clusterStopped | .clusterStopRaised => none

/-- From `s` to `s'` nothing under `name` changed. -/
structure Untouched (s s' : RayService) (name : String) : Prop where
  registered : s'.clusters.get name = s.clusters.get name
  removal : s'.clustersRemoveTasks.get name = s.clustersRemoveTasks.get name
  lock : Aside s.clustersLocks s'.clustersLocks name
  clusters : ∀ (c : Nat) (nc : NamedCluster), nc.name = name →
    (s'.allClusters[c]? = some nc ↔ s.allClusters[c]? = some nc)
  tasks : ∀ (k : Nat) (x : ServiceTask), x.name = name →
    (s'.tasks[k]? = some x ↔ s.tasks[k]? = some x)

theorem Untouched.refl (s : RayService) (name : String) : Untouched s s name :=
  ⟨rfl, rfl, .refl _ _, fun _ _ _ => Iff.rfl, fun _ _ _ => Iff.rfl⟩

theorem Untouched.trans (h : Untouched s s' name) (h' : Untouched s' s'' name) :
    Untouched s s'' name :=
  ⟨h'.registered.trans h.registered, h'.removal.trans h.removal, h.lock.trans h'.lock,
    fun c nc hnc => (h'.clusters c nc hnc).trans (h.clusters c nc hnc),
    fun k x hx => (h'.tasks k x hx).trans (h.tasks k x hx)⟩

/-! ### Objects of other names -/

/-- An object of another name is replaced. -/
theorem untouched_of_set {α : Type*} {f : α → String} {l : List α} {i k : Nat} {x y z : α}
    (hx : l[i]? = some x) (hxn : f x ≠ name) (hyn : f y ≠ name) (hz : f z = name) :
    (l.set i y)[k]? = some z ↔ l[k]? = some z := by
  constructor
  · intro h
    rcases Objects.set_cases h with ⟨-, rfl, -⟩ | ⟨-, hold⟩
    · exact absurd hz hyn
    · exact hold
  · intro h
    refine Objects.set_old ?_ h
    rintro rfl
    obtain rfl : x = z := Option.some.inj (hx.symm.trans h)
    exact hxn hz

/-- An object of another name is created. -/
theorem untouched_of_append {α : Type*} {f : α → String} {l : List α} {k : Nat} {y z : α}
    (hyn : f y ≠ name) (hz : f z = name) : (l ++ [y])[k]? = some z ↔ l[k]? = some z := by
  constructor
  · intro h
    rcases Objects.append_cases h with hold | ⟨-, rfl⟩
    · exact hold
    · exact absurd hz hyn
  · exact Objects.append_old

/-- What a step does to the clusters, with the name it does it for. -/
inductive NamedChange (s s' : RayService) (a : Act) : Prop
  | same (h : s'.allClusters = s.allClusters)
  | moves (c : Nat) (nc : NamedCluster) (cl : Cluster) (hnc : s.allClusters[c]? = some nc)
      (hname : s.actsFor a = some nc.name)
      (h : s'.allClusters = s.allClusters.set c (nc.become cl))
  | creates (nc : NamedCluster) (hname : s.actsFor a = some nc.name)
      (h : s'.allClusters = s.allClusters ++ [nc])

theorem NamedChange.untouched (h : NamedChange s s' a) (ha : s.actsFor a ≠ some name) (c : Nat)
    (nc : NamedCluster) (hnc : nc.name = name) :
    s'.allClusters[c]? = some nc ↔ s.allClusters[c]? = some nc := by
  cases h with
  | same h => rw [h]
  | moves d nd cl hnd hname h =>
      have hne : nd.name ≠ name := fun heq => ha (hname.trans (congrArg some heq))
      rw [h]
      exact untouched_of_set (f := NamedCluster.name) hnd hne hne hnc
  | creates nd hname h =>
      rw [h]
      exact untouched_of_append (f := NamedCluster.name)
        (fun heq => ha (hname.trans (congrArg some heq))) hnc

/-- `terminate_node` stops a node of the cluster that is registered under its name. -/
theorem terminateNode_cases {k nodeId : Nat} {x : ServiceTask}
    (h : s.terminateNode digest k x nodeId = some s') :
    s'.allClusters = s.allClusters ∨ ∃ c nc cl, s.clusters.get x.name = some c ∧
      s.allClusters[c]? = some nc ∧ s'.allClusters = s.allClusters.set c (nc.become cl) := by
  unfold terminateNode at h
  split at h
  · rename_i c hc
    split at h
    · split at h
      · split at h
        · obtain ⟨m, hm, rfl⟩ := Option.map_eq_some_iff.mp h
          obtain ⟨nc, cl, hnc, -, rfl⟩ := stepCluster_cases hm
          exact .inr ⟨c, nc, cl, hc, hnc, rfl⟩
        · obtain ⟨L, -, rfl⟩ := finish_cases h
          exact .inl rfl
      · obtain ⟨L, -, rfl⟩ := finish_cases h
        exact .inl rfl
    · cases h
  · obtain ⟨L, -, rfl⟩ := finishCleanup_cases h
    exact .inl rfl

theorem Orderly.name_eq (h : Orderly s) {key : String} {c : Nat} {nc : NamedCluster}
    (hc : s.clusters.get key = some c) (hnc : s.allClusters[c]? = some nc) : nc.name = key := by
  obtain ⟨nd, hnd, hname⟩ := h.registered key c hc
  obtain rfl : nc = nd := Option.some.inj (hnc.symm.trans hnd)
  exact hname

/-- A step changes and creates only clusters of the name that it acts for. -/
theorem Orderly.namedChange (h : Orderly s) (hok : besideServiceStop s a = true)
    (hstep : RayService.step digest s a = some s') : NamedChange s s' a := by
  cases step_cases hstep with
  | callback c nc cl hnc => exact .moves c nc cl hnc (by simp [actsFor, hnc]) rfl
  | joins k x q key sem c nc cl L hx hkind hstage hheld hnone hc hnc =>
      exact .moves c nc cl hnc (by simp [actsFor, hx, h.name_eq hc hnc]) rfl
  | restarts k x q key sem c nc cl hx hkind hstage hheld hnone hc hnc =>
      exact .moves c nc cl hnc (by simp [actsFor, hx, h.name_eq hc hnc]) rfl
  | creates k x q key sem hx => exact .creates _ (by simp [actsFor, hx]) rfl
  | replaces k x q j y hx => exact .creates _ (by simp [actsFor, hx]) rfl
  | startEnds b r k x c t nc cl L hb hx hstage hnc =>
      obtain ⟨nd, call, hnd, hname, -⟩ := h.starting k x c t hx hstage
      obtain rfl : nc = nd := Option.some.inj (hnc.symm.trans hnd)
      exact .moves c nc cl hnc (by simp [actsFor, hx, hname]) rfl
  | terminates k x nodeId key sem c n nc cl hx hkind hstage hheld =>
      obtain ⟨t, ht⟩ : ∃ t, t = RayService.step digest s (.task k .run) := ⟨_, rfl⟩
      have hrun := ht.symm
      simp only [RayService.step, hx, stepTask, run, hstage, hheld, hkind] at hrun
      rw [← ht] at hstep
      rw [hstep] at hrun
      rcases terminateNode_cases hrun with hsame | ⟨d, nd, dl, hd, hnd, heq⟩
      · exact .same hsame
      · exact .moves d nd dl hnd (by simp [actsFor, hx, h.name_eq hd hnd]) heq
  | cluster c b nc cl hb hnc => exact .moves c nc cl hnc (by simp [actsFor, hnc]) rfl
  | stops => cases hok
  | sizeChanged => cases hok
  | stopsCluster => cases hok
  | stopReturns => cases hok
  | clusterStopped => cases hok
  | clusterStopRaised => cases hok
  | _ => exact .same rfl

/-! ### Tasks and entries of other names -/

theorem ne_of_task {k : Nat} {x : ServiceTask} {b : TaskAct} (hx : s.tasks[k]? = some x)
    (ha : s.actsFor (.task k b) ≠ some name) : x.name ≠ name := by
  simpa [actsFor, hx] using ha

/-- The tasks of other names stay, and new ones have the name of the step. -/
theorem Orderly.tasks_untouched (h : Orderly s) (hs : Step digest s a s')
    (ha : s.actsFor a ≠ some name) (k : Nat) (x : ServiceTask) (hxname : x.name = name) :
    s'.tasks[k]? = some x ↔ s.tasks[k]? = some x := by
  have hset : ∀ {u : Nat} {y z : ServiceTask}, s.tasks[u]? = some y → y.name ≠ name →
      z.name = y.name → ((s.tasks.set u z)[k]? = some x ↔ s.tasks[k]? = some x) := by
    intro u y z hy hne hz
    exact untouched_of_set (f := ServiceTask.name) hy hne (hz ▸ hne) hxname
  cases hs with
  | arrives b kind key hb =>
      refine untouched_of_append (f := ServiceTask.name) (fun heq => ha ?_) hxname
      have heq : key = name := heq
      cases a <;> simp [Act.arrival] at hb <;> simp [actsFor, hb, heq]
  | callback c nc cl hnc =>
      refine untouched_of_append (f := ServiceTask.name) (fun heq => ha ?_) hxname
      have heq : nc.name = name := heq
      simp [actsFor, hnc, heq]
  | wakes u y hy => exact hset hy (ne_of_task hy ha) rfl
  | cancels u y hy => exact hset hy (ne_of_task hy ha) rfl
  | dies u y hy => exact hset hy (ne_of_task hy ha) rfl
  | unwinds u y L hy => exact hset hy (ne_of_task hy ha) rfl
  | leaves b u y L hy => exact hset hy (ne_of_task hy ha) rfl
  | misses u y L hy => exact hset hy (ne_of_task hy ha) rfl
  | cancelsRemoval u y q key sem j z hy hkind hstage hheld hj hz =>
      have hne := ne_of_task hy ha
      obtain ⟨w, c, hw, -, hwname⟩ := h.removals y.name j hj
      obtain rfl : z = w := Option.some.inj (hz.symm.trans hw)
      have hmarked := hset (z := { z with cancelled := true }) hz (hwname ▸ hne) rfl
      by_cases huj : u = j
      · subst huj
        obtain rfl : y = z := Option.some.inj (hy.symm.trans hz)
        rw [List.set_set]
        exact hset hy hne rfl
      · exact (untouched_of_set (f := ServiceTask.name) (y := y.at (.cancelling j))
          (Objects.set_old huj hy) hne hne hxname).trans hmarked
  | joins u y q key sem c nc cl L hy => exact hset hy (ne_of_task hy ha) rfl
  | restarts u y q key sem c nc cl hy => exact hset hy (ne_of_task hy ha) rfl
  | creates u y q key sem hy => exact hset hy (ne_of_task hy ha) rfl
  | replaces u y q j z hy => exact hset hy (ne_of_task hy ha) rfl
  | startEnds b r u y c t nc cl L hb hy => exact hset hy (ne_of_task hy ha) rfl
  | terminates u y nodeId key sem c n nc cl hy => exact hset hy (ne_of_task hy ha) rfl
  | registers u y key sem c L hy =>
      have hne := ne_of_task hy ha
      exact (untouched_of_append (f := ServiceTask.name)
        (y := ⟨.removeCluster c, y.name, .sleeping, false⟩) hne hxname).trans
          (hset (z := y.at .over) hy hne rfl)
  | removes u y key sem c c' nc L hy => exact hset hy (ne_of_task hy ha) rfl
  | _ => rfl

/-- The entries of other names stay. -/
theorem entries_untouched (hok : besideServiceStop s a = true) (hs : Step digest s a s')
    (ha : s.actsFor a ≠ some name) :
    s'.clusters.get name = s.clusters.get name ∧
      s'.clustersRemoveTasks.get name = s.clustersRemoveTasks.get name := by
  have hne : ∀ {k : Nat} {x : ServiceTask} {b : TaskAct}, s.tasks[k]? = some x →
      a = .task k b → name ≠ x.name := by
    rintro k x b hx rfl
    exact (ne_of_task hx ha).symm
  cases hs with
  | cancelsRemoval k x q key sem j y hx => exact ⟨rfl, Dict.get_erase_ne _ (hne hx rfl)⟩
  | joins k x q key sem c nc cl L hx => exact ⟨rfl, Dict.get_erase_ne _ (hne hx rfl)⟩
  | restarts k x q key sem c nc cl hx => exact ⟨rfl, Dict.get_erase_ne _ (hne hx rfl)⟩
  | creates k x q key sem hx =>
      exact ⟨Dict.get_set_ne _ (hne hx rfl) _, Dict.get_erase_ne _ (hne hx rfl)⟩
  | replaces k x q j y hx => exact ⟨Dict.get_set_ne _ (hne hx rfl) _, rfl⟩
  | registers k x key sem c L hx => exact ⟨rfl, Dict.get_set_ne _ (hne hx rfl) _⟩
  | removes k x key sem c c' nc L hx => exact ⟨Dict.get_erase_ne _ (hne hx rfl), rfl⟩
  | stopReturns => cases hok
  | _ => exact ⟨rfl, rfl⟩

/-! ### Locks of other names -/

/-- A task is at no lock but that of its name. -/
theorem LocksFollow.key_eq (h : LocksFollow s) {k : Nat} {x : ServiceTask} {key : String}
    (hx : s.tasks[k]? = some x) (hkey : (s.clustersLocks.phase k).key = some key) :
    key = x.name := by
  have hplace := h.agrees k x hx
  have hof : ∀ {sem : Nat} {b : Bool},
      (s.clustersLocks.phase k).place = some (x.name, sem, b) → key = x.name := by
    intro sem b hp
    cases hphase : s.clustersLocks.phase k <;>
      simp_all [LockTable.Phase.place, LockTable.Phase.key]
  cases hstage : x.stage with
  | sleeping =>
      rw [LocksFollow.idle_sleeping h hx hstage] at hkey
      cases hkey
  | locking =>
      rw [position_locking hstage] at hplace
      obtain ⟨sem, b, hp⟩ := hplace
      exact hof hp
  | cancelling j =>
      rw [ServiceTask.position, hstage] at hplace
      obtain ⟨sem, hp⟩ := hplace
      exact hof hp
  | starting c t =>
      rw [ServiceTask.position, hstage] at hplace
      obtain ⟨sem, hp⟩ := hplace
      exact hof hp
  | stoppingNode c n =>
      rw [ServiceTask.position, hstage] at hplace
      obtain ⟨sem, hp⟩ := hplace
      exact hof hp
  | _ =>
      rw [ServiceTask.position, hstage] at hplace
      rw [LockTable.Phase.place_eq_none.mp hplace] at hkey
      cases hkey

/-- What tasks do at their lock leaves the locks of other names alone. -/
theorem LocksTended.lock_untouched (h : LocksTended s) (horder : Orderly s)
    (hok : besideServiceStop s a = true) (hs : Step digest s a s')
    (ha : s.actsFor a ≠ some name) : Aside s.clustersLocks s'.clustersLocks name := by
  have hidle : (s.clustersLocks.phase s.tasks.length).key ≠ some name := by
    rw [h.follows.idle_new]
    simp [LockTable.Phase.key]
  have hkey : ∀ {k : Nat} {x : ServiceTask}, s.tasks[k]? = some x → x.name ≠ name →
      (s.clustersLocks.phase k).key ≠ some name := by
    intro k x hx hne hk
    exact hne (h.follows.key_eq hx hk).symm
  have hexit : ∀ {k : Nat} {x : ServiceTask} {L : LockTable String}, s.tasks[k]? = some x →
      x.name ≠ name → s.clustersLocks.exit k = some L → Aside s.clustersLocks L name := by
    intro k x L hx hne hL
    obtain ⟨⟨key, sem, hheld⟩, -⟩ := LockTable.place_exit hL
    have hk : (s.clustersLocks.phase k).key = some key := by simp [hheld, LockTable.Phase.key]
    exact h.sound.aside_exit (h.follows.key_eq hx hk ▸ hne) hk hL
  cases hs with
  | arrives b kind key hb =>
      refine h.sound.aside_enter (fun heq => ha ?_) hidle
      cases a <;> simp [Act.arrival] at hb <;> simp [actsFor, hb, heq]
  | callback c nc cl hnc =>
      refine h.sound.aside_enter (fun heq => ha ?_) hidle
      simp [actsFor, hnc, heq]
  | wakes k x hx => exact h.sound.aside_enter (ne_of_task hx ha) (hkey hx (ne_of_task hx ha))
  | cancels k x hx => exact h.sound.aside_cancel (hkey hx (ne_of_task hx ha))
  | unwinds k x L hx hstage hcancelled hL =>
      obtain ⟨⟨key, sem, hplace⟩, -⟩ := LockTable.place_unwind hL
      have hk : (s.clustersLocks.phase k).key = some key := by
        cases hphase : s.clustersLocks.phase k <;>
          simp_all [LockTable.Phase.place, LockTable.Phase.key]
      exact h.sound.aside_unwind (h.follows.key_eq hx hk ▸ ne_of_task hx ha) hk hL
  | resumes k x L hx hstage hcancelled hL =>
      obtain ⟨⟨key, sem, hplace, -⟩, -⟩ := LockTable.place_resume hL
      have hk : (s.clustersLocks.phase k).key = some key := by
        cases hphase : s.clustersLocks.phase k <;>
          simp_all [LockTable.Phase.place, LockTable.Phase.key]
      exact h.sound.aside_resume (h.follows.key_eq hx hk ▸ ne_of_task hx ha) hk hL
  | leaves b k x L hx hstage hL => exact hexit hx (ne_of_task hx ha) hL
  | misses k x L hx hstage hc hL =>
      exact (hexit hx (ne_of_task hx ha) hL).trans
        (LockTable.aside_cleanup L (ne_of_task hx ha))
  | cancelsRemoval k x q key sem j y hx hkind hstage hheld hj hy =>
      obtain ⟨w, c, hw, -, hwname⟩ := horder.removals x.name j hj
      exact h.sound.aside_cancel (hkey hw (hwname ▸ ne_of_task hx ha))
  | joins k x q key sem c nc cl L hx hkind hstage hheld hnone hc hnc hstate hcl hL =>
      exact hexit hx (ne_of_task hx ha) hL
  | startEnds b r k x c t nc cl L hb hx hstage hnc hcl hL => exact hexit hx (ne_of_task hx ha) hL
  | registers k x key sem c L hx hkind hstage hheld hL => exact hexit hx (ne_of_task hx ha) hL
  | removes k x key sem c c' nc L hx hkind hstage hheld hnc hstate hc hL =>
      exact (hexit hx (ne_of_task hx ha) hL).trans
        (LockTable.aside_cleanup L (ne_of_task hx ha))
  | stopReturns => cases hok
  | _ => exact .refl _ _

/-- A step leaves everything alone that is not under the name it acts for. -/
theorem untouched_of_step (horder : Orderly s) (hlocks : LocksTended s)
    (hok : besideServiceStop s a = true) (hstep : step digest s a = some s')
    (ha : s.actsFor a ≠ some name) : Untouched s s' name := by
  have hs := step_cases hstep
  obtain ⟨hregistered, hremoval⟩ := entries_untouched hok hs ha
  exact ⟨hregistered, hremoval, hlocks.lock_untouched horder hok hs ha,
    (horder.namedChange hok hstep).untouched ha, horder.tasks_untouched hs ha⟩

/-- **Clusters are isolated.**  From any state of a run without `RayService.stop`, however
the run goes on, as long as no step acts for a name, everything under that name stays
exactly as it is: its entries, its lock, its tasks and their places at the lock, and its
clusters with all their nodes and stacks. -/
theorem clusters_isolated
    (h : Reach Initial (step digest) (fun s a => besideServiceStop s a) s)
    (hrun : Reach (fun t => t = s) (step digest)
      (fun t a => besideServiceStop t a = true ∧ t.actsFor a ≠ some name) s') :
    Untouched s s' name := by
  have hall : Untouched s s' name ∧ Orderly s' ∧ LocksTended s' := by
    refine Reach.invariant
      (I := fun t => Untouched s t name ∧ Orderly t ∧ LocksTended t) ?_ ?_ hrun
    · rintro t rfl
      exact ⟨.refl t name, orderly_of_reach h, locksTended_of_reach h⟩
    · rintro t b t' ⟨huntouched, horder, hlocks⟩ ⟨hok, hb⟩ hstep
      exact ⟨huntouched.trans (untouched_of_step horder hlocks hok hstep hb),
        horder.step hok (step_cases hstep), hlocks.step hok (step_cases hstep)⟩
  exact hall.1

/-- Steps beside `RayService.stop` that do not act for the example's cluster. -/
def besideExample (s : RayService) (a : Act) : Bool :=
  besideServiceStop s a && s.actsFor a != some "cluster"

/-- A request for another cluster, started and done. -/
def otherRequest : List Act :=
  [.requestNodes "other" ⟨Cluster.publicConfig, 1, true⟩, .task 5 .run, .task 5 .startDone]

theorem clusters_isolated_otherRequest :
    ∃ s s', exec (guarded (step Cluster.exampleDigest) besideServiceStop) waitingTwice {} =
        some s ∧
      exec (guarded (step Cluster.exampleDigest) besideExample) otherRequest s = some s' ∧
      s'.clusters.get "other" = some 1 ∧ Untouched s s' "cluster" := by
  have hrun : ((exec (guarded (step Cluster.exampleDigest) besideServiceStop) waitingTwice {}).bind
      (exec (guarded (step Cluster.exampleDigest) besideExample) otherRequest)).map
        (fun s => s.clusters.get "other") = some (some 1) := rfl
  obtain ⟨s', hboth, hother⟩ := Option.map_eq_some_iff.mp hrun
  obtain ⟨s, hs, hs'⟩ := Option.bind_eq_some_iff.mp hboth
  have hrest : Reach (fun t => t = s) (step Cluster.exampleDigest)
      (fun t a => besideExample t a) s' := Reach.execGuarded otherRequest (.start rfl) hs'
  refine ⟨s, s', hs, hs', hother,
    clusters_isolated (Reach.execGuarded waitingTwice (.start rfl) hs) (hrest.mono ?_)⟩
  intro t b hb
  simpa [besideExample] using hb

end RayService
