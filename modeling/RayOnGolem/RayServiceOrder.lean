import RayOnGolem.ClusterLife
import RayOnGolem.RayServiceRegistry

/-!
# What the tasks of the service refer to

`Orderly` is an invariant of every run without `RayService.stop`: the stage of a
task fits its kind, and the removals, clusters, calls and nodes that tasks and
entries refer to are there and have the name under which they are referred to.  A
call whose `start()` a task awaits is in `start()`, and no other task awaits it.

As in `RayServiceRegistry`, each kind of change has a lemma that says what it
needs: a task goes on (`setTask`) or is created (`addTask`), a cluster goes on
(`stepCluster`) or is created (`addCluster`), an entry is set or deleted.
-/

/-! ### What a cluster's step leaves -/

namespace Cluster

variable {digest : NodeConfigData → String} {s s' : Cluster} {a : Act}

/-- A call in `start()` stays there until the payment manager's `start()` ends. -/
theorem Step.stillStarting (hs : Step digest s a s') {t : Nat} {c : Call}
    (hc : s.calls[t]? = some c) (hstage : c.stage = .starting)
    (hdone : a ≠ .call t .startDone) (hraised : a ≠ .call t .startRaised) :
    s'.calls[t]? = some c := by
  have hset : ∀ {u : Nat} {d e : Call}, s.calls[u]? = some d → d.stage ≠ .starting →
      (s.calls.set u e)[t]? = some c := by
    intro u d e hd hne
    refine Objects.set_old ?_ hc
    rintro rfl
    obtain rfl : c = d := Option.some.inj (hc.symm.trans hd)
    exact hne hstage
  cases hs with
  | startPasses q => exact Objects.append_old hc
  | startSkips q => exact Objects.append_old hc
  | enters q => exact Objects.append_old hc
  | startDone u d =>
      refine Objects.set_old ?_ hc
      rintro rfl
      exact hdone rfl
  | startRaised u d =>
      refine Objects.set_old ?_ hc
      rintro rfl
      exact hraised rfl
  | leaves u d hd hst => exact hset hd (by simp [hst])
  | prepares u d goal hash hd hst => exact hset hd (by simp [hst])
  | unwinds u d goal hash L hd hst => exact hset hd (by simp [hst])
  | finds u d goal hash k sem r stage L hd hst => exact hset hd (by simp [hst])
  | misses u d goal hash k sem hd hst => exact hset hd (by simp [hst])
  | creates u d goal hash hd hst => exact hset hd (by simp [hst])
  | createRaised u d goal hash L hd hst => exact hset hd (by simp [hst])
  | handsOut u d goal hash r m m' stage L hd hst => exact hset hd (by simp [hst])
  | managerStartRaised u d goal hash r m m' L hd hst => exact hset hd (by simp [hst])
  | finishes u k d r p id hd hst => exact hset hd (by simp [hst])
  | _ => exact hc

theorem le_addNodes (hd : Bool) (r : Nat) (p : Option Nat) (k : Nat) (s : Cluster) :
    s.allNodes.length ≤ (addNodes hd r p k s).allNodes.length := by
  induction k generalizing s with
  | zero => exact Nat.le_refl _
  | succ k ih => exact Nat.le_trans (by simp [addNode]) (ih (s.addNode hd r p))

/-- Nodes are never forgotten. -/
theorem Step.nodes_le (hs : Step digest s a s') : s.allNodes.length ≤ s'.allNodes.length := by
  cases hs with
  | finishes t k c r p id => exact le_addNodes _ _ _ _ _
  | stopsNode => simp
  | nodeReady => simp
  | nodeStartFailed => simp
  | nodeStop => simp
  | nodeStopped => simp
  | nodeStopRaised => simp
  | _ => exact Nat.le_refl _

end Cluster

/-! ### The invariant -/

/-- The stage of a task fits its kind. -/
def ServiceTask.Proper (x : ServiceTask) : Prop :=
  match x.stage with
  | .sleeping => ∃ c, x.kind = .removeCluster c
  | .cancelling _ | .starting _ _ => ∃ q, x.kind = .requestNodes q
  | .stoppingNode _ _ => ∃ nodeId, x.kind = .terminateNode nodeId
  | .locking | .over => True

namespace RayService

open Runs

variable {digest : NodeConfigData → String} {s s' : RayService} {a : Act}

/-- `c` is a cluster of that name. -/
def Named (s : RayService) (c : Nat) (name : String) : Prop :=
  ∃ nc, s.allClusters[c]? = some nc ∧ nc.name = name

/-- Task `k` awaits the `start()` of cluster `c` that call `t` of it runs. -/
def Starts (s : RayService) (k c t : Nat) : Prop :=
  ∃ x, s.tasks[k]? = some x ∧ x.stage = .starting c t

/-- Call `t` of cluster `c`, which has that name, is in `start()`. -/
def InStart (s : RayService) (c t : Nat) (name : String) : Prop :=
  ∃ nc call, s.allClusters[c]? = some nc ∧ nc.name = name ∧
    nc.cluster.calls[t]? = some call ∧ call.stage = .starting

/-- Task `j` is a removal under that name. -/
def IsRemoval (s : RayService) (j : Nat) (name : String) : Prop :=
  ∃ y c, s.tasks[j]? = some y ∧ y.kind = .removeCluster c ∧ y.name = name

/-- The invariant: what a task or an entry refers to is there, and under the same name. -/
structure Orderly (s : RayService) : Prop where
  proper : ∀ (k : Nat) (x : ServiceTask), s.tasks[k]? = some x → x.Proper
  registered : ∀ (name : String) (c : Nat), s.clusters.get name = some c → s.Named c name
  concerned : ∀ (k : Nat) (x : ServiceTask) (c : Nat), s.tasks[k]? = some x →
    x.kind.concerns c = true → s.Named c x.name
  removals : ∀ (name : String) (j : Nat), s.clustersRemoveTasks.get name = some j →
    s.IsRemoval j name
  cancelling : ∀ (k : Nat) (x : ServiceTask) (j : Nat), s.tasks[k]? = some x →
    x.stage = .cancelling j → s.IsRemoval j x.name ∧
      ∀ y, s.tasks[j]? = some y → y.cancelled = true
  starting : ∀ (k : Nat) (x : ServiceTask) (c t : Nat), s.tasks[k]? = some x →
    x.stage = .starting c t → s.InStart c t x.name
  startedOnce : ∀ (k u c t : Nat), s.Starts k c t → s.Starts u c t → k = u
  stoppingNode : ∀ (k : Nat) (x : ServiceTask) (c n : Nat), s.tasks[k]? = some x →
    x.stage = .stoppingNode c n → ∃ nc, s.allClusters[c]? = some nc ∧
      n < nc.cluster.allNodes.length

theorem orderly_initial (h : Initial s) : Orderly s := by
  subst h
  constructor <;> simp [Dict.get, Starts]

/-- The locks do not matter. -/
theorem Orderly.setLocks (h : Orderly s) (L : LockTable String) :
    Orderly { s with clustersLocks := L } :=
  ⟨h.proper, h.registered, h.concerned, h.removals, h.cancelling, h.starting, h.startedOnce,
    h.stoppingNode⟩

theorem Orderly.setClusters (h : Orderly s) (d : Dict String Nat)
    (hd : ∀ name c, d.get name = some c → s.Named c name) : Orderly { s with clusters := d } :=
  ⟨h.proper, hd, h.concerned, h.removals, h.cancelling, h.starting, h.startedOnce,
    h.stoppingNode⟩

theorem Orderly.setRemovals (h : Orderly s) (d : Dict String Nat)
    (hd : ∀ name j, d.get name = some j → s.IsRemoval j name) :
    Orderly { s with clustersRemoveTasks := d } :=
  ⟨h.proper, h.registered, h.concerned, hd, h.cancelling, h.starting, h.startedOnce,
    h.stoppingNode⟩

/-- An entry after one was set is the new one or an old one. -/
theorem get_of_set {d : Dict String Nat} {name key : String} {v w : Nat}
    (h : (d.set name v).get key = some w) : (key = name ∧ w = v) ∨ d.get key = some w := by
  by_cases hkey : key = name
  · subst hkey
    rw [Dict.get_set_self] at h
    exact .inl ⟨rfl, (Option.some.inj h).symm⟩
  · rw [Dict.get_set_ne _ hkey] at h
    exact .inr h

/-- Entries that are left after one was deleted. -/
theorem get_of_erase {d : Dict String Nat} {name key : String} {v : Nat}
    (h : (d.erase name).get key = some v) : d.get key = some v := by
  by_cases hkey : key = name
  · simp [hkey] at h
  · rwa [Dict.get_erase_ne _ hkey] at h

/-- A cluster is registered under its name. -/
theorem Orderly.register (h : Orderly s) {c : Nat} (name : String) (hc : s.Named c name) :
    Orderly { s with clusters := s.clusters.set name c } := by
  refine h.setClusters (s.clusters.set name c) fun key d hd => ?_
  rcases get_of_set hd with ⟨rfl, rfl⟩ | hold
  · exact hc
  · exact h.registered key d hold

/-- A removal is registered under its name. -/
theorem Orderly.setRemoval (h : Orderly s) (name : String) (j : Nat)
    (hj : s.IsRemoval j name) :
    Orderly { s with clustersRemoveTasks := s.clustersRemoveTasks.set name j } := by
  refine h.setRemovals (s.clustersRemoveTasks.set name j) fun key i hi => ?_
  rcases get_of_set hi with ⟨rfl, rfl⟩ | hold
  · exact hj
  · exact h.removals key i hold

theorem Orderly.eraseRemovals (h : Orderly s) (name : String) :
    Orderly { s with clustersRemoveTasks := s.clustersRemoveTasks.erase name } :=
  h.setRemovals (s.clustersRemoveTasks.erase name) fun key j hj =>
    h.removals key j (get_of_erase hj)

/-- A task goes on, or is marked as cancelled. -/
theorem Orderly.setTask (h : Orderly s) {k : Nat} {x y : ServiceTask} (hx : s.tasks[k]? = some x)
    (hkind : y.kind = x.kind) (hname : y.name = x.name)
    (hcancelled : x.cancelled = true → y.cancelled = true) (hproper : y.Proper)
    (hcancelling : ∀ j, y.stage = .cancelling j → s.IsRemoval j y.name ∧
      ∀ z, s.tasks[j]? = some z → z.cancelled = true)
    (hstarting : ∀ c t, y.stage = .starting c t → s.InStart c t y.name ∧
      ∀ u, s.Starts u c t → u = k)
    (hstopping : ∀ c n, y.stage = .stoppingNode c n → ∃ nc, s.allClusters[c]? = some nc ∧
      n < nc.cluster.allNodes.length) :
    Orderly { s with tasks := s.tasks.set k y } := by
  have hremoval : ∀ {j : Nat} {name : String}, s.IsRemoval j name →
      IsRemoval { s with tasks := s.tasks.set k y } j name := by
    rintro j name ⟨z, c, hz, hzkind, hzname⟩
    obtain ⟨z', hz', hkind', hname'⟩ := Objects.kept_of_set
      (p := fun z z' : ServiceTask => z'.kind = z.kind ∧ z'.name = z.name)
      (fun _ => ⟨rfl, rfl⟩) hx ⟨hkind, hname⟩ hz
    exact ⟨z', c, hz', hkind'.trans hzkind, hname'.trans hzname⟩
  refine ⟨?_, h.registered, ?_, fun name j hj => hremoval (h.removals name j hj), ?_, ?_, ?_, ?_⟩
  · intro u z hz
    rcases Objects.set_cases hz with ⟨rfl, rfl, -⟩ | ⟨-, hold⟩
    · exact hproper
    · exact h.proper u z hold
  · intro u z c hz hc
    rcases Objects.set_cases hz with ⟨rfl, rfl, -⟩ | ⟨-, hold⟩
    · rw [hname]
      exact h.concerned u x c hx (hkind ▸ hc)
    · exact h.concerned u z c hold hc
  · intro u z j hz hj
    have hmarked : ∀ {name : String}, s.IsRemoval j name →
        (∀ w, s.tasks[j]? = some w → w.cancelled = true) →
        IsRemoval { s with tasks := s.tasks.set k y } j name ∧
          ∀ w, (s.tasks.set k y)[j]? = some w → w.cancelled = true := by
      intro name hr hall
      refine ⟨hremoval hr, fun w hw => ?_⟩
      rcases Objects.set_cases hw with ⟨rfl, rfl, -⟩ | ⟨-, hold⟩
      · exact hcancelled (hall x hx)
      · exact hall w hold
    rcases Objects.set_cases hz with ⟨rfl, rfl, -⟩ | ⟨-, hold⟩
    · obtain ⟨hr, hall⟩ := hcancelling j hj
      exact hmarked hr hall
    · obtain ⟨hr, hall⟩ := h.cancelling u z j hold hj
      exact hmarked hr hall
  · intro u z c t hz hst
    rcases Objects.set_cases hz with ⟨rfl, rfl, -⟩ | ⟨-, hold⟩
    · exact (hstarting c t hst).1
    · exact h.starting u z c t hold hst
  · rintro u w c t ⟨z, hz, hst⟩ ⟨z', hz', hst'⟩
    rcases Objects.set_cases hz with ⟨rfl, rfl, -⟩ | ⟨-, hold⟩ <;>
      rcases Objects.set_cases hz' with ⟨rfl, rfl, -⟩ | ⟨-, hold'⟩
    · rfl
    · exact ((hstarting c t hst).2 w ⟨z', hold', hst'⟩).symm
    · exact (hstarting c t hst').2 u ⟨z, hold, hst⟩
    · exact h.startedOnce u w c t ⟨z, hold, hst⟩ ⟨z', hold', hst'⟩
  · intro u z c n hz hst
    rcases Objects.set_cases hz with ⟨rfl, rfl, -⟩ | ⟨-, hold⟩
    · exact hstopping c n hst
    · exact h.stoppingNode u z c n hold hst

/-- A task goes on to a stage that refers to nothing. -/
theorem Orderly.at (h : Orderly s) {k : Nat} {x : ServiceTask} {stage : TaskStage}
    (hx : s.tasks[k]? = some x) (hstage : stage = .locking ∨ stage = .over) :
    Orderly { s with tasks := s.tasks.set k (x.at stage) } := by
  rcases hstage with rfl | rfl <;>
    exact h.setTask hx rfl rfl id trivial (by simp [ServiceTask.at]) (by simp [ServiceTask.at])
      (by simp [ServiceTask.at])

/-- A task is created, at its lock or asleep. -/
theorem Orderly.addTask (h : Orderly s) {y : ServiceTask} (hproper : y.Proper)
    (hstage : y.stage = .locking ∨ y.stage = .sleeping)
    (hconcerned : ∀ c, y.kind.concerns c = true → s.Named c y.name) :
    Orderly { s with tasks := s.tasks ++ [y] } := by
  have hnot : (∀ j, y.stage ≠ .cancelling j) ∧ (∀ c t, y.stage ≠ .starting c t) ∧
      ∀ c n, y.stage ≠ .stoppingNode c n := by
    rcases hstage with hst | hst <;> simp [hst]
  obtain ⟨hcanc, hstart, hstop⟩ := hnot
  have hremoval : ∀ {j : Nat} {name : String}, s.IsRemoval j name →
      IsRemoval { s with tasks := s.tasks ++ [y] } j name := by
    rintro j name ⟨z, c, hz, hzkind⟩
    exact ⟨z, c, Objects.append_old hz, hzkind⟩
  have hold : ∀ {k : Nat} {z : ServiceTask}, (s.tasks ++ [y])[k]? = some z → z ≠ y →
      s.tasks[k]? = some z := by
    intro k z hz hne
    rcases Objects.append_cases hz with hold | ⟨-, rfl⟩
    · exact hold
    · exact absurd rfl hne
  refine ⟨?_, h.registered, ?_, fun name j hj => hremoval (h.removals name j hj), ?_, ?_, ?_, ?_⟩
  · intro k z hz
    rcases Objects.append_cases hz with hold | ⟨-, rfl⟩
    · exact h.proper k z hold
    · exact hproper
  · intro k z c hz hc
    rcases Objects.append_cases hz with hold | ⟨-, rfl⟩
    · exact h.concerned k z c hold hc
    · exact hconcerned c hc
  · intro k z j hz hj
    have hz := hold hz fun heq => hcanc j (heq ▸ hj)
    obtain ⟨hr, hall⟩ := h.cancelling k z j hz hj
    refine ⟨hremoval hr, fun w hw => ?_⟩
    rcases Objects.append_cases hw with hold | ⟨rfl, -⟩
    · exact hall w hold
    · obtain ⟨v, c, hv, -⟩ := hr
      simp at hv
  · exact fun k z c t hz hst => h.starting k z c t (hold hz fun heq => hstart c t (heq ▸ hst)) hst
  · rintro k u c t ⟨z, hz, hst⟩ ⟨z', hz', hst'⟩
    exact h.startedOnce k u c t ⟨z, hold hz fun heq => hstart c t (heq ▸ hst), hst⟩
      ⟨z', hold hz' fun heq => hstart c t (heq ▸ hst'), hst'⟩
  · exact fun k z c n hz hst =>
      h.stoppingNode k z c n (hold hz fun heq => hstop c n (heq ▸ hst)) hst

/-- A cluster goes on; its calls that are awaited stay in `start()`. -/
theorem Orderly.moveCluster (h : Orderly s) {c : Nat} {nc : NamedCluster} {cl : Cluster}
    (hnc : s.allClusters[c]? = some nc)
    (hcalls : ∀ k t call, s.Starts k c t → nc.cluster.calls[t]? = some call →
      call.stage = .starting → cl.calls[t]? = some call)
    (hnodes : nc.cluster.allNodes.length ≤ cl.allNodes.length) :
    Orderly { s with allClusters := s.allClusters.set c (nc.become cl) } := by
  have hnamed : ∀ {d : Nat} {name : String}, s.Named d name →
      Named { s with allClusters := s.allClusters.set c (nc.become cl) } d name := by
    rintro d name ⟨nd, hnd, rfl⟩
    exact Objects.kept_of_set (p := fun nd nd' : NamedCluster => nd'.name = nd.name)
      (fun _ => rfl) hnc rfl hnd
  refine ⟨h.proper, fun name d hd => hnamed (h.registered name d hd),
    fun k x d hx hd => hnamed (h.concerned k x d hx hd), h.removals, h.cancelling, ?_,
    h.startedOnce, ?_⟩
  · intro k x d t hx hst
    obtain ⟨nd, call, hnd, hname, hcall, hstage⟩ := h.starting k x d t hx hst
    by_cases hdc : d = c
    · subst hdc
      obtain rfl : nc = nd := Option.some.inj (hnc.symm.trans hnd)
      exact ⟨nc.become cl, call, Objects.set_self hnc, hname,
        hcalls k t call ⟨x, hx, hst⟩ hcall hstage, hstage⟩
    · exact ⟨nd, call, Objects.set_old hdc hnd, hname, hcall, hstage⟩
  · intro k x d n hx hst
    obtain ⟨nd, hnd, hn⟩ := h.stoppingNode k x d n hx hst
    obtain ⟨nd', hnd', hle⟩ := Objects.kept_of_set
      (p := fun nd nd' : NamedCluster =>
        nd.cluster.allNodes.length ≤ nd'.cluster.allNodes.length)
      (y := nc.become cl) (fun _ => Nat.le_refl _) hnc hnodes hnd
    exact ⟨nd', hnd', Nat.lt_of_lt_of_le hn hle⟩

/-- A cluster makes a step that does not end a `start()` that is awaited. -/
theorem Orderly.stepCluster (h : Orderly s) {c : Nat} {b : Cluster.Act} {nc : NamedCluster}
    {cl : Cluster} (hnc : s.allClusters[c]? = some nc) (hcl : nc.cluster.step digest b = some cl)
    (hb : ∀ k t, s.Starts k c t → b ≠ .call t .startDone ∧ b ≠ .call t .startRaised) :
    Orderly { s with allClusters := s.allClusters.set c (nc.become cl) } := by
  have hstep := Cluster.step_cases hcl
  refine h.moveCluster hnc (fun k t call hk hcall hst => ?_) hstep.nodes_le
  exact hstep.stillStarting hcall hst (hb k t hk).1 (hb k t hk).2

/-- A cluster is created. -/
theorem Orderly.addCluster (h : Orderly s) (nc : NamedCluster) :
    Orderly { s with allClusters := s.allClusters ++ [nc] } := by
  have hnamed : ∀ {d : Nat} {name : String}, s.Named d name →
      Named { s with allClusters := s.allClusters ++ [nc] } d name := by
    rintro d name ⟨nd, hnd, hname⟩
    exact ⟨nd, Objects.append_old hnd, hname⟩
  refine ⟨h.proper, fun name d hd => hnamed (h.registered name d hd),
    fun k x d hx hd => hnamed (h.concerned k x d hx hd), h.removals, h.cancelling, ?_,
    h.startedOnce, ?_⟩
  · intro k x d t hx hst
    obtain ⟨nd, call, hnd, hrest⟩ := h.starting k x d t hx hst
    exact ⟨nd, call, Objects.append_old hnd, hrest⟩
  · intro k x d n hx hst
    obtain ⟨nd, hnd, hn⟩ := h.stoppingNode k x d n hx hst
    exact ⟨nd, Objects.append_old hnd, hn⟩

/-! ### Every step keeps the order -/

/-- The task that a call of the service creates concerns no cluster. -/
theorem concerns_of_arrival {kind : TaskKind} {name : String}
    (h : a.arrival = some (kind, name)) (c : Nat) : kind.concerns c = false := by
  cases a <;> simp [Act.arrival] at h <;> (obtain ⟨rfl, -⟩ := h; rfl)

/-- A task is marked as cancelled. -/
theorem Orderly.cancelTask (h : Orderly s) {k : Nat} {x : ServiceTask}
    (hx : s.tasks[k]? = some x) :
    Orderly { s with tasks := s.tasks.set k { x with cancelled := true } } :=
  h.setTask hx rfl rfl (fun _ => rfl) (h.proper k x hx) (fun j hj => h.cancelling k x j hx hj)
    (fun c t hst => ⟨h.starting k x c t hx hst, fun u hu => h.startedOnce u k c t hu ⟨x, hx, hst⟩⟩)
    (fun c n hst => h.stoppingNode k x c n hx hst)

/-- A request cancels the removal under its name. -/
theorem Orderly.cancelsRemoval (h : Orderly s) {k j : Nat} {x y : ServiceTask} {q : Request}
    (hx : s.tasks[k]? = some x) (hkind : x.kind = .requestNodes q)
    (hj : s.clustersRemoveTasks.get x.name = some j) (hy : s.tasks[j]? = some y) :
    Orderly { s with
      tasks := (s.tasks.set j { y with cancelled := true }).set k (x.at (.cancelling j)) } := by
  obtain ⟨z, c, hz, hzkind, hzname⟩ := h.removals x.name j hj
  obtain rfl : y = z := Option.some.inj (hy.symm.trans hz)
  have hkj : k ≠ j := by
    rintro rfl
    obtain rfl : x = y := Option.some.inj (hx.symm.trans hy)
    rw [hkind] at hzkind
    cases hzkind
  have hmarked : (s.tasks.set j { y with cancelled := true })[j]? =
      some { y with cancelled := true } := Objects.set_self hy
  refine (h.cancelTask hy).setTask (Objects.set_old hkj hx) rfl rfl id ⟨q, hkind⟩ ?_
    (by simp [ServiceTask.at]) (by simp [ServiceTask.at])
  rintro i hi
  obtain rfl : j = i := by simpa [ServiceTask.at] using hi
  refine ⟨⟨_, c, hmarked, hzkind, hzname⟩, fun w hw => ?_⟩
  obtain rfl := Option.some.inj (hmarked.symm.trans hw)
  rfl

/-- A request awaits the `start()` that it began with call `t` of cluster `c`. -/
theorem Orderly.begins (h : Orderly s) {k c t : Nat} {x : ServiceTask} {q : Request}
    (hx : s.tasks[k]? = some x) (hkind : x.kind = .requestNodes q) (hin : s.InStart c t x.name)
    (hnew : ∀ u, ¬ s.Starts u c t) :
    Orderly { s with tasks := s.tasks.set k (x.at (.starting c t)) } := by
  refine h.setTask hx rfl rfl id ⟨q, hkind⟩ (by simp [ServiceTask.at]) ?_
    (by simp [ServiceTask.at])
  intro c' t' hst
  obtain ⟨rfl, rfl⟩ : c = c' ∧ t = t' := by simpa [ServiceTask.at] using hst
  exact ⟨hin, fun u hu => absurd hu (hnew u)⟩

/-- A call that a task awaits is one of its cluster's. -/
theorem Orderly.starts_lt (h : Orderly s) {k c t : Nat} {nc : NamedCluster}
    (hk : s.Starts k c t) (hnc : s.allClusters[c]? = some nc) : t < nc.cluster.calls.length := by
  obtain ⟨x, hx, hst⟩ := hk
  obtain ⟨nd, call, hnd, -, hcall, -⟩ := h.starting k x c t hx hst
  obtain rfl : nc = nd := Option.some.inj (hnc.symm.trans hnd)
  exact (List.getElem?_eq_some_iff.mp hcall).1

/-- A request creates a cluster and awaits its `start()`. -/
theorem Orderly.creates (h : Orderly s) {k : Nat} {x : ServiceTask} {q : Request}
    (hx : s.tasks[k]? = some x) (hkind : x.kind = .requestNodes q) :
    Orderly { s with
      clusters := s.clusters.set x.name s.allClusters.length
      allClusters := s.allClusters ++ [⟨x.name, Cluster.start {} q⟩]
      tasks := s.tasks.set k (x.at (.starting s.allClusters.length 0)) } := by
  have hnew : (s.allClusters ++ [⟨x.name, Cluster.start {} q⟩])[s.allClusters.length]? =
      some ⟨x.name, Cluster.start {} q⟩ := by simp
  have hfresh : ∀ u, ¬ s.Starts u s.allClusters.length 0 := by
    rintro u ⟨z, hz, hst⟩
    obtain ⟨nd, call, hnd, -⟩ := h.starting u z _ _ hz hst
    simp at hnd
  have hadded := h.addCluster ⟨x.name, Cluster.start {} q⟩
  exact (hadded.register x.name ⟨_, hnew, rfl⟩).begins hx hkind
    ⟨_, _, hnew, rfl, rfl, rfl⟩ hfresh

/-- **Every step keeps the order**, but those of `RayService.stop`. -/
theorem Orderly.step (h : Orderly s) (hok : besideServiceStop s a = true)
    (hs : Step digest s a s') : Orderly s' := by
  cases hs with
  | arrives b kind name ha =>
      refine (h.addTask (y := ⟨kind, name, .locking, false⟩) trivial (.inl rfl) ?_).setLocks _
      intro c hc
      rw [concerns_of_arrival ha c] at hc
      cases hc
  | callback c nc cl hnc hcl =>
      have hmoved := h.stepCluster hnc hcl (by simp)
      refine (hmoved.addTask (y := ⟨.onClusterStop c, nc.name, .locking, false⟩) trivial
        (.inl rfl) ?_).setLocks _
      intro d hd
      obtain rfl : c = d := by simpa [TaskKind.concerns] using hd
      exact ⟨nc.become cl, Objects.set_self hnc, rfl⟩
  | wakes k x hx => exact (h.at hx (.inl rfl)).setLocks _
  | cancels k x hx => exact (h.cancelTask hx).setLocks _
  | dies k x hx => exact h.at hx (.inr rfl)
  | unwinds k x L hx => exact (h.at hx (.inr rfl)).setLocks L
  | resumes k x L => exact h.setLocks L
  | leaves b k x L hx => exact (h.at hx (.inr rfl)).setLocks L
  | misses k x L hx => exact (h.at hx (.inr rfl)).setLocks _
  | cancelsRemoval k x q name sem j y hx hkind hstage hheld hj hy =>
      exact ((h.cancelsRemoval hx hkind hj hy).eraseRemovals x.name).setLocks _
  | joins k x q name sem c nc cl L hx hkind hstage hheld hnone hc hnc hstate hcl =>
      have hmoved := h.stepCluster hnc hcl (by simp)
      exact ((hmoved.at hx (.inr rfl)).eraseRemovals x.name).setLocks L
  | restarts k x q name sem c nc cl hx hkind hstage hheld hnone hc hnc hstate hcl =>
      have hmoved := h.stepCluster hnc hcl (by simp)
      refine (hmoved.begins hx hkind ?_ fun u hu => ?_).eraseRemovals x.name
      · obtain ⟨nd, hnd, hname⟩ := h.registered x.name c hc
        obtain rfl : nc = nd := Option.some.inj (hnc.symm.trans hnd)
        refine ⟨nc.become cl, ⟨q, q.nodeConfig, .starting⟩, Objects.set_self hnc, hname, ?_, rfl⟩
        have hcl : some (nc.cluster.start q) = some cl := hcl
        obtain rfl := Option.some.inj hcl
        simp [NamedCluster.become, Cluster.start, hstate]
      · exact absurd (h.starts_lt hu hnc) (Nat.lt_irrefl _)
  | creates k x q name sem hx hkind =>
      exact (h.creates hx hkind).eraseRemovals x.name
  | replaces k x q j y hx hkind => exact h.creates hx hkind
  | startEnds b r k x c t nc cl L ha hx hstage hnc hcl =>
      refine ((h.at hx (.inr rfl)).stepCluster hnc hcl ?_).setLocks L
      rintro u t' ⟨z, hz, hst⟩
      -- nobody else awaits the call that ended
      have hne : t' ≠ t := by
        rintro rfl
        rcases Objects.set_cases hz with ⟨rfl, rfl, -⟩ | ⟨huk, hold⟩
        · simp [ServiceTask.at] at hst
        · exact huk (h.startedOnce u k c t' ⟨z, hold, hst⟩ ⟨x, hx, hstage⟩)
      simp [hne.symm]
  | terminates k x nodeId name sem c n nc cl hx hkind hstage hheld hnc hcl =>
      have hmoved := h.stepCluster hnc hcl (by simp)
      refine hmoved.setTask hx rfl rfl id ⟨nodeId, hkind⟩ (by simp [ServiceTask.at])
        (by simp [ServiceTask.at]) ?_
      intro c' n' hst
      obtain ⟨rfl, rfl⟩ : c = c' ∧ n = n' := by simpa [ServiceTask.at] using hst
      refine ⟨nc.become cl, Objects.set_self hnc, ?_⟩
      cases Cluster.step_cases hcl with
      | nodeStop m v hv =>
          obtain ⟨hlt, -⟩ := List.getElem?_eq_some_iff.mp hv
          simpa [NamedCluster.become] using hlt
  | registers k x name sem c L hx hkind =>
      have hnamed : s.Named c x.name := h.concerned k x c hx (by simp [hkind, TaskKind.concerns])
      have hadded := (h.at hx (.inr rfl)).addTask
        (y := ⟨.removeCluster c, x.name, .sleeping, false⟩) ⟨c, rfl⟩ (.inr rfl) fun d hd => by
          obtain rfl : c = d := by simpa [TaskKind.concerns] using hd
          exact hnamed
      have hremoval := hadded.setRemoval x.name s.tasks.length
        ⟨⟨.removeCluster c, x.name, .sleeping, false⟩, c, by simp, rfl, rfl⟩
      exact hremoval.setLocks L
  | removes k x name sem c c' nc L hx =>
      have hleft := h.at hx (.inr rfl)
      exact (hleft.setClusters (s.clusters.erase x.name) fun key d hd =>
        hleft.registered key d (get_of_erase hd)).setLocks _
  | cluster c b nc cl hb hnc hcl =>
      refine h.stepCluster hnc hcl fun k t _ => ?_
      constructor <;> (rintro rfl; simp [internal] at hb)
  | stops => cases hok
  | sizeChanged => cases hok
  | stopsCluster => cases hok
  | stopReturns => cases hok
  | clusterStopped => cases hok
  | clusterStopRaised => cases hok

/-- The order holds in every run without `RayService.stop`. -/
theorem orderly_of_reach (h : Reach Initial (step digest) (fun s a => besideServiceStop s a) s) :
    Orderly s :=
  Reach.invariant (I := Orderly) (fun _ => orderly_initial)
    (fun _ _ _ hi hok hstep => hi.step hok (step_cases hstep)) h

end RayService
