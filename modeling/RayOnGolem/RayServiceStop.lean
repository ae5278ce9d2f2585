import RayOnGolem.ClusterLife
import RayOnGolem.ClusterUnstuck
import RayOnGolem.RayServiceStep

/-!
# What `RayService.stop` leaves behind

`RayService.stop` awaits `Cluster.stop` of one cluster after the other.  Both
`Cluster.stop` and `ClusterNode.stop` return at once when somebody else is already
stopping the object, so that what a finished stop means depends on what was in
flight when it came to a cluster, and on whether the registry kept its size.

The claimed property is `StopsEverything`, and the condition on the steps of a run, in which
no request is going on from the call on, is `stopsCleanly`:

* each cluster is settled when its turn comes (`turnsSettled`), and nobody else gets hold of
  a node of the awaited cluster first (`stopsUntouched`);
* no removal deletes an entry meanwhile (`keepsIterator`);
* no stop that raised has left anything behind (`nothingLeftBehind`), and none raises
  meanwhile (`stopRaisesNot`).

Main result: `StopInv.step`, the invariant that such a step keeps.  That `stop()` can always
go on is shown in `RayServiceStopEnd`.
-/

/-- A request for nodes. -/
def TaskKind.isRequest : TaskKind → Bool
  | .requestNodes _ => true
  | _ => false

namespace Cluster

/-- A settled cluster that is not live is finished, when its live nodes are gone. -/
theorem finished_of_settled {s : Cluster} (h : s.settled = true) (hlive : s.state.live = false)
    (hgone : NodesGone (fun st => st.live = true) s) : Finished s := by
  obtain ⟨hstate, hnodes⟩ := settled_iff.mp h
  have hterm : s.state = .terminated := by grind
  refine ⟨hterm, fun n v hv => ?_⟩
  have hnot := hnodes n v hv
  have hdead := hgone hterm n v hv
  grind

/-- In a settled cluster the nodes that are not terminated are the live ones. -/
theorem covered_of_settled {s : Cluster} (h : s.settled = true)
    (hcov : NodesCovered (fun st => st.live = true) s) :
    NodesCovered (fun st => st ≠ .terminated) s := by
  have hlive : ∀ {n : Nat} {v : NodeView}, s.allNodes[n]? = some v → v.state ≠ .terminated →
      v.state.live = true := by
    intro n v hv hne
    have hnot := (settled_iff.mp h).2 n v hv
    grind
  exact ⟨fun n v hv hne => hcov.registered n v hv (hlive hv hne),
    fun σ hσ n v hv hne => hcov.stopping σ hσ n v hv (hlive hv hne), hcov.ids⟩

end Cluster

namespace RayService

open Runs

variable {digest : NodeConfigData → String} {s s' : RayService} {a : Act}

/-! ### The condition -/

/-- No request is going on, in the service or in a cluster. -/
def requestsOver (s : RayService) : Bool :=
  (s.tasks.all fun x => x.stage == .over || !x.kind.isRequest) &&
    s.allClusters.all fun nc => nc.cluster.calls.all fun c => c.stage == .over

/-- `stop()` is called when no request is going on, and none arrives later. -/
def besideRequests (s : RayService) : Act → Bool
  | .stop => s.requestsOver
  | .requestNodes _ _ => s.stopping == .notCalled
  | _ => true

/-- The cluster whose turn it is in `stop()`. -/
def nextStop (s : RayService) : Option NamedCluster :=
  match s.stopping with
  | .iterating _ pos => (s.clusters.values[pos]?).bind fun c => s.allClusters[c]?
  | _ => none

/-- A cluster is settled when its turn comes. -/
def turnsSettled (s : RayService) : Act → Bool
  | .stopNext =>
      match s.nextStop with
      | some nc => nc.cluster.settled
      | none => true
  | _ => true

/-- No stop of the awaited cluster finds a node that somebody else is stopping. -/
def stopsUntouched (s : RayService) : Act → Bool
  | .cluster c b =>
      match s.stopping, s.allClusters[c]? with
      | .awaiting _ _ d _, some nc => c != d || !nc.cluster.findsTerminating b
      | _, _ => true
  | _ => true

/-- Task `k` is a removal that would delete an entry. -/
def deletes (s : RayService) (k : Nat) : Bool :=
  match s.tasks[k]? with
  | some x =>
      match x.kind with
      | .removeCluster c =>
          match s.allClusters[c]? with
          | some nc => !nc.cluster.isRunning && (s.clusters.get x.name).isSome
          | none => false
      | _ => false
  | none => false

/-- No removal deletes an entry while `stop()` goes through the registry. -/
def keepsIterator (s : RayService) : Act → Bool
  | .task k .run =>
      match s.stopping with
      | .iterating _ _ => !s.deletes k
      | .awaiting _ _ _ _ => !s.deletes k
      | _ => true
  | _ => true

/-- `stop()` goes through the registry, or awaits a cluster. -/
def stopGoesOn (s : RayService) : Bool :=
  match s.stopping with
  | .iterating _ _ => true
  | .awaiting _ _ _ _ => true
  | _ => false

/-- While `stop()` goes on, no stop raises in a cluster that was registered. -/
def stopRaisesNot (s : RayService) : Act → Bool
  | .clusterStopRaised => false
  | .cluster c b =>
      match s.allClusters[c]? with
      | some nc => !(s.stopGoesOn && s.heldAtStop.contains c) || !nc.cluster.stopRaises b
      | none => true
  | _ => true

/-- When `stop()` is called, no stop that raised has left anything behind in a registered
cluster. -/
def nothingLeftBehind (s : RayService) : Act → Bool
  | .stop => s.clusters.values.all fun c =>
      match s.allClusters[c]? with
      | some nc => nc.cluster.unstuck
      | none => true
  | _ => true

/-- **The condition** on the state before a step. -/
def stopsCleanly (s : RayService) (a : Act) : Bool :=
  registersInTime s a && besideRequests s a && turnsSettled s a && stopsUntouched s a &&
    keepsIterator s a && stopRaisesNot s a && nothingLeftBehind s a

theorem stopsCleanly_iff : stopsCleanly s a = true ↔ registersInTime s a = true ∧
    besideRequests s a = true ∧ turnsSettled s a = true ∧ stopsUntouched s a = true ∧
      keepsIterator s a = true ∧ stopRaisesNot s a = true ∧ nothingLeftBehind s a = true := by
  simp only [stopsCleanly, Bool.and_eq_true, and_assoc]

/-! ### The claimed property -/

/-- `stop()` does not raise, and from every state after its call the steps that `ok` admits
can take it to its return; the stop it awaits is in progress; and when it has returned every
cluster that was registered is terminated with all its nodes. -/
structure StopsEverything (digest : NodeConfigData → String) (ok : RayService → Act → Prop)
    (s : RayService) : Prop where
  raisesNot : s.stopping ≠ .raised
  completes : s.stopping ≠ .notCalled →
    ∃ s', Leads (step digest) ok s s' ∧ s'.stopping = .returned
  awaits : ∀ size pos c run, s.stopping = .awaiting size pos c run →
    ∃ nc σ, s.allClusters[c]? = some nc ∧ nc.cluster.stops[run]? = some σ ∧ σ.pc ≠ .over
  stopped : s.stopping = .returned → ∀ c ∈ s.heldAtStop, ∃ nc, s.allClusters[c]? = some nc ∧
    nc.cluster.state = .terminated ∧ ∀ v ∈ nc.cluster.allNodes, v.state = .terminated

/-! ### Steps while no request is going on -/

/-- No request is going on. -/
structure RequestsOver (s : RayService) : Prop where
  tasks : ∀ (k : Nat) (x : ServiceTask) (q : Request), s.tasks[k]? = some x →
    x.kind = .requestNodes q → x.stage = .over
  calls : ∀ (c : Nat) (nc : NamedCluster), s.allClusters[c]? = some nc → nc.cluster.CallsOver

theorem requestsOver_of (h : s.requestsOver = true) : RequestsOver s := by
  simp only [requestsOver, Bool.and_eq_true, List.all_eq_true, beq_iff_eq, Bool.or_eq_true,
    Bool.not_eq_true'] at h
  refine ⟨fun k x q hx hkind => ?_, fun c nc hnc t call hcall => ?_⟩
  · apply (h.1 x (List.mem_of_getElem? hx)).resolve_right
    simp [hkind, TaskKind.isRequest]
  · exact h.2 nc (List.mem_of_getElem? hnc) call (List.mem_of_getElem? hcall)

/-- What such a step does to the clusters: it starts and creates none. -/
inductive QuietChange (digest : NodeConfigData → String) (s : RayService) (a : Act)
    (s' : RayService) : Prop
  | same (h : s'.allClusters = s.allClusters)
  | moves (c : Nat) (b : Cluster.Act) (nc : NamedCluster) (cl : Cluster)
      (hb : a = .cluster c b ∧ s.internal c b = true ∨
        b = .onStopTaken ∨ (∃ n, b = .node n .stop) ∨ b = .stop true)
      (hnc : s.allClusters[c]? = some nc) (hcl : nc.cluster.step digest b = some cl)
      (h : s'.allClusters = s.allClusters.set c (nc.become cl))

/-- A step beside `stop()`. -/
structure Beside (digest : NodeConfigData → String) (s : RayService) (a : Act) (s' : RayService) :
    Prop where
  tasks : ∀ (k : Nat) (x : ServiceTask) (q : Request), s'.tasks[k]? = some x →
    x.kind = .requestNodes q → x.stage = .over
  stopping : s'.stopping = s.stopping
  held : s'.heldAtStop = s.heldAtStop
  clusters : s'.clusters = s.clusters ∨ ∃ k, a = .task k .run ∧ s.deletes k = true
  change : QuietChange digest s a s'

/-- A task that is not a request, or is over, goes on. -/
theorem RequestsOver.setTask (h : RequestsOver s) {k : Nat} {x y : ServiceTask}
    (hx : s.tasks[k]? = some x) (hkind : y.kind = x.kind)
    (halive : x.stage ≠ .over ∨ y.stage = .over) :
    ∀ (u : Nat) (z : ServiceTask) (q : Request), (s.tasks.set k y)[u]? = some z →
      z.kind = .requestNodes q → z.stage = .over := by
  intro u z q hz hzkind
  rcases Objects.set_cases hz with ⟨rfl, rfl, -⟩ | ⟨-, hold⟩
  · rcases halive with hne | hover
    · exact absurd (h.tasks u x q hx (hkind ▸ hzkind)) hne
    · exact hover
  · exact h.tasks u z q hold hzkind

/-- A task that is not a request is created. -/
theorem RequestsOver.addTask {l : List ServiceTask} {y : ServiceTask}
    (h : ∀ (k : Nat) (x : ServiceTask) (q : Request), l[k]? = some x →
      x.kind = .requestNodes q → x.stage = .over) (hy : ∀ q, y.kind ≠ .requestNodes q) :
    ∀ (u : Nat) (z : ServiceTask) (q : Request), (l ++ [y])[u]? = some z →
      z.kind = .requestNodes q → z.stage = .over := by
  intro u z q hz hzkind
  rcases Objects.append_cases hz with hold | ⟨-, rfl⟩
  · exact h u z q hold hzkind
  · exact absurd hzkind (hy q)

/-- **While no request is going on**, a step that is not one of `stop()` creates and
starts no cluster, and changes the registry only by a removal. -/
theorem RequestsOver.beside (h : RequestsOver s) (hnew : ∀ name q, a ≠ .requestNodes name q)
    (hs : Step digest s a s') (hstop : besideServiceStop s a = true) : Beside digest s a s' := by
  cases hs with
  | arrives _ kind name ha =>
      refine ⟨RequestsOver.addTask h.tasks ?_, rfl, rfl, .inl rfl, .same rfl⟩
      rintro q rfl
      cases a <;> simp [Act.arrival] at ha hnew
  | callback c nc cl hnc hcl =>
      exact ⟨RequestsOver.addTask h.tasks (by simp), rfl, rfl, .inl rfl,
        .moves c _ nc cl (.inr (.inl rfl)) hnc hcl rfl⟩
  | wakes k x hx hstage =>
      exact ⟨h.setTask hx rfl (.inl (by simp [hstage])), rfl, rfl, .inl rfl, .same rfl⟩
  | cancels k x hx hstage => exact ⟨h.setTask hx rfl (.inl hstage), rfl, rfl, .inl rfl, .same rfl⟩
  | dies k x hx => exact ⟨h.setTask hx rfl (.inr rfl), rfl, rfl, .inl rfl, .same rfl⟩
  | unwinds k x L hx => exact ⟨h.setTask hx rfl (.inr rfl), rfl, rfl, .inl rfl, .same rfl⟩
  | resumes k x L => exact ⟨h.tasks, rfl, rfl, .inl rfl, .same rfl⟩
  | leaves _ k x L hx => exact ⟨h.setTask hx rfl (.inr rfl), rfl, rfl, .inl rfl, .same rfl⟩
  | misses k x L hx => exact ⟨h.setTask hx rfl (.inr rfl), rfl, rfl, .inl rfl, .same rfl⟩
  | cancelsRemoval k x q name sem j y hx hkind hstage =>
      simp [h.tasks k x q hx hkind] at hstage
  | joins k x q name sem c nc cl L hx hkind hstage => simp [h.tasks k x q hx hkind] at hstage
  | restarts k x q name sem c nc cl hx hkind hstage => simp [h.tasks k x q hx hkind] at hstage
  | creates k x q name sem hx hkind hstage => simp [h.tasks k x q hx hkind] at hstage
  | replaces k x q j y hx hkind hstage => simp [h.tasks k x q hx hkind] at hstage
  | startEnds b r k x c t nc cl L hb hx hstage hnc hcl =>
      -- the call would have to be in `start()`
      have hnone : ∀ call : Call, nc.cluster.calls[t]? = some call → call.stage ≠ .starting := by
        intro call hcall
        simp [h.calls c nc hnc t call hcall]
      cases hb <;> cases Cluster.step_cases hcl
      all_goals exact absurd ‹_› (hnone _ ‹_›)
  | terminates k x nodeId name sem c n nc cl hx hkind hstage hheld hnc hcl =>
      exact ⟨h.setTask hx rfl (.inl (by simp [hstage])), rfl, rfl, .inl rfl,
        .moves c _ nc cl (.inr (.inr (.inl ⟨n, rfl⟩))) hnc hcl rfl⟩
  | registers k x name sem c L hx hkind hstage =>
      exact ⟨RequestsOver.addTask (h.setTask hx rfl (.inr rfl)) (by simp), rfl, rfl, .inl rfl,
        .same rfl⟩
  | removes k x name sem c c' nc L hx hkind hstage hheld hnc hstate hc =>
      refine ⟨h.setTask hx rfl (.inr rfl), rfl, rfl, .inr ⟨k, rfl, ?_⟩, .same rfl⟩
      simp [deletes, hx, hkind, hnc, hc, Cluster.isRunning, hstate]
  | cluster c b nc cl hb hnc hcl =>
      exact ⟨h.tasks, rfl, rfl, .inl rfl, .moves c b nc cl (.inl ⟨rfl, hb⟩) hnc hcl rfl⟩
  | stops => cases hstop
  | sizeChanged => cases hstop
  | stopsCluster => cases hstop
  | stopReturns => cases hstop
  | clusterStopped => cases hstop
  | clusterStopRaised => cases hstop

/-! ### The invariant -/

/-- Cluster `c` is terminated with all its nodes. -/
def Done (s : RayService) (c : Nat) : Prop :=
  ∃ nc, s.allClusters[c]? = some nc ∧ nc.cluster.Finished

/-- Run `run` of cluster `c` is in progress and has all nodes ahead of itself that
are not terminated. -/
def Awaited (s : RayService) (c run : Nat) : Prop :=
  ∃ nc σ, s.allClusters[c]? = some nc ∧ nc.cluster.stops[run]? = some σ ∧ σ.pc ≠ .over ∧
    Cluster.NodesCovered (fun st => st ≠ .terminated) nc.cluster

/-- How far `stop()` has come. -/
def Progress (s : RayService) : StopStatus → Prop
  | .notCalled => True
  | .iterating size pos =>
      s.clusters.items.length = size ∧ s.clusters.values = s.heldAtStop ∧
        ∀ i c, i < pos → s.heldAtStop[i]? = some c → s.Done c
  | .awaiting size pos c run =>
      s.clusters.items.length = size ∧ s.clusters.values = s.heldAtStop ∧
        (∀ i d, i < pos → s.heldAtStop[i]? = some d → d = c ∨ s.Done d) ∧
          c ∈ s.heldAtStop ∧ s.Awaited c run
  | .returned => ∀ c ∈ s.heldAtStop, s.Done c
  | .raised => False

/-- The invariant of `stop()`. -/
structure StopInv (s : RayService) : Prop where
  requests : s.stopping ≠ .notCalled → RequestsOver s
  progress : s.Progress s.stopping

theorem stopInv_initial (h : Initial s) : StopInv s := by
  subst h
  exact ⟨fun hne => absurd rfl hne, trivial⟩

/-! ### Clusters go on -/

/-- A finished cluster stays finished when one cluster makes a step that is no start. -/
theorem Done.moved {c d : Nat} {b : Cluster.Act} {nc : NamedCluster} {cl : Cluster}
    (h : Done s d) (hover : RequestsOver s) (hnc : s.allClusters[c]? = some nc)
    (hcl : nc.cluster.step digest b = some cl) (hstart : ∀ q, b ≠ .start q)
    (hall : s'.allClusters = s.allClusters.set c (nc.become cl)) : Done s' d := by
  obtain ⟨mc, hmc, hfin⟩ := h
  by_cases hdc : d = c
  · subst hdc
    obtain rfl : nc = mc := Option.some.inj (hnc.symm.trans hmc)
    refine ⟨nc.become cl, by rw [hall]; exact Objects.set_self hnc, ?_⟩
    exact hfin.step (hover.calls d nc hnc) (Cluster.step_cases hcl) hstart
  · exact ⟨mc, by rw [hall]; exact Objects.set_old hdc hmc, hfin⟩

/-- No call is going on after a step that is no start. -/
theorem RequestsOver.moved (h : RequestsOver s) {c : Nat} {b : Cluster.Act} {nc : NamedCluster}
    {cl : Cluster} (hnc : s.allClusters[c]? = some nc) (hcl : nc.cluster.step digest b = some cl)
    (hstart : ∀ q, b ≠ .start q) (henter : ∀ q, b ≠ .enter q)
    (hall : s'.allClusters = s.allClusters.set c (nc.become cl))
    (htasks : ∀ (k : Nat) (x : ServiceTask) (q : Request), s'.tasks[k]? = some x →
      x.kind = .requestNodes q → x.stage = .over) : RequestsOver s' := by
  refine ⟨htasks, fun d mc hmc => ?_⟩
  rw [hall] at hmc
  rcases Objects.set_cases hmc with ⟨-, rfl, -⟩ | ⟨-, hold⟩
  · exact (h.calls c nc hnc).step (Cluster.step_cases hcl) hstart henter
  · exact h.calls d mc hold

/-- The awaited stop goes on when a cluster makes a step. -/
theorem Awaited.moved {c d run : Nat} {b : Cluster.Act} {nc : NamedCluster} {cl : Cluster}
    (h : Awaited s d run) (hnc : s.allClusters[c]? = some nc)
    (hcl : nc.cluster.step digest b = some cl) (hintime : nc.cluster.inTime b = true)
    (hfinds : c = d → nc.cluster.findsTerminating b = false)
    (hreturn : c = d → b ≠ .stopping run .paymentStopped)
    (hraise : c = d → b ≠ .stopping run .raised)
    (hall : s'.allClusters = s.allClusters.set c (nc.become cl)) : Awaited s' d run := by
  obtain ⟨mc, σ, hmc, hσ, hpc, hcov⟩ := h
  by_cases hdc : c = d
  · subst hdc
    obtain rfl : nc = mc := Option.some.inj (hnc.symm.trans hmc)
    have hs := Cluster.step_cases hcl
    obtain ⟨σ', hσ', hpc'⟩ := hs.stop_goes_on hσ hpc (hreturn rfl) (hraise rfl)
    refine ⟨nc.become cl, σ', by rw [hall]; exact Objects.set_self hnc, hσ', hpc', ?_⟩
    refine hcov.step Cluster.nodePredicate_not_terminated (Bool.and_eq_true_iff.mp hintime).1 ?_ hs
    rintro i τ n todo busy v rfl hτ hτpc hv hst
    have hnot := hfinds rfl
    simp [Cluster.findsTerminating, hτ, hτpc, hv, hst] at hnot
  · exact ⟨mc, σ, by rw [hall, List.getElem?_set_ne hdc]; exact hmc, hσ, hpc, hcov⟩

/-! ### Steps -/

/-- The steps that such a change takes a cluster through. -/
theorem quiet_act {c : Nat} {b : Cluster.Act}
    (hb : a = .cluster c b ∧ s.internal c b = true ∨
      b = .onStopTaken ∨ (∃ n, b = .node n .stop) ∨ b = .stop true) :
    (∀ q, b ≠ .start q) ∧ ∀ q, b ≠ .enter q := by
  rcases hb with ⟨-, hinternal⟩ | rfl | ⟨n, rfl⟩ | rfl
  · cases b <;> simp [internal] at hinternal ⊢
  · simp
  · simp
  · simp

/-- The registry of a step beside `stop()`, while `stop()` goes through it. -/
theorem Beside.keeps (h : Beside digest s a s') (hkeeps : keepsIterator s a = true)
    (hgoes : ∀ k, a = .task k .run → keepsIterator s a = true → s.deletes k = false) :
    s'.clusters = s.clusters := by
  rcases h.clusters with hsame | ⟨k, rfl, hdeletes⟩
  · exact hsame
  · rw [hgoes k rfl hkeeps] at hdeletes
    cases hdeletes

/-- **Steps beside `stop()`** do not undo what it has done. -/
theorem StopInv.beside (h : StopInv s) (hcalled : s.stopping ≠ .notCalled)
    (hok : stopsCleanly s a = true) (hb : Beside digest s a s') : StopInv s' := by
  obtain ⟨hintime, -, -, huntouched, hkeeps, -, -⟩ := stopsCleanly_iff.mp hok
  have hover := h.requests hcalled
  have hdone : ∀ {d}, Done s d → Done s' d := by
    intro d hd
    cases hb.change with
    | same hall =>
        obtain ⟨mc, hmc, hfin⟩ := hd
        exact ⟨mc, by rw [hall]; exact hmc, hfin⟩
    | moves c b nc cl hact hnc hcl hall => exact hd.moved hover hnc hcl (quiet_act hact).1 hall
  have hover' : RequestsOver s' := by
    cases hb.change with
    | same hall =>
        refine ⟨hb.tasks, ?_⟩
        rw [hall]
        exact hover.calls
    | moves c b nc cl hact hnc hcl hall =>
        exact hover.moved hnc hcl (quiet_act hact).1 (quiet_act hact).2 hall hb.tasks
  have hprogress := h.progress
  refine ⟨fun _ => hover', ?_⟩
  rw [hb.stopping]
  cases hst : s.stopping with
  | notCalled => trivial
  | iterating size pos =>
      rw [hst] at hprogress
      obtain ⟨hsize, hvalues, hpos⟩ := hprogress
      have hclusters := hb.keeps hkeeps fun k hk hki => by simpa [hk, keepsIterator, hst] using hki
      refine ⟨by rw [hclusters]; exact hsize, by rw [hclusters, hb.held]; exact hvalues, ?_⟩
      rw [hb.held]
      exact fun i c hi hc => hdone (hpos i c hi hc)
  | awaiting size pos c run =>
      rw [hst] at hprogress
      obtain ⟨hsize, hvalues, hpos, hheld, hawaited⟩ := hprogress
      have hclusters := hb.keeps hkeeps fun k hk hki => by simpa [hk, keepsIterator, hst] using hki
      refine ⟨by rw [hclusters]; exact hsize, by rw [hclusters, hb.held]; exact hvalues, ?_,
        by rw [hb.held]; exact hheld, ?_⟩
      · rw [hb.held]
        exact fun i d hi hd => (hpos i d hi hd).imp_right hdone
      · cases hb.change with
        | same hall =>
            obtain ⟨mc, σ, hmc, hrest⟩ := hawaited
            exact ⟨mc, σ, by rw [hall]; exact hmc, hrest⟩
        | moves d b nc cl hact hnc hcl hall =>
            rcases hact with ⟨rfl, hinternal⟩ | hact
            · refine hawaited.moved hnc hcl ?_ ?_ ?_ ?_ hall
              · simpa [registersInTime, hnc] using hintime
              · rintro rfl
                simpa [stopsUntouched, hst, hnc] using huntouched
              · rintro rfl rfl
                simp [internal, awaits, hst] at hinternal
              · rintro rfl rfl
                simp [internal, awaits, hst] at hinternal
            · have hservice : byService b = true := by
                rcases hact with rfl | ⟨n, rfl⟩ | rfl <;> rfl
              refine hawaited.moved hnc hcl (inTime_byService _ b hservice) ?_ ?_ ?_ hall
              · rcases hact with rfl | ⟨n, rfl⟩ | rfl <;> exact fun _ => rfl
              · rcases hact with rfl | ⟨n, rfl⟩ | rfl <;> simp
              · rcases hact with rfl | ⟨n, rfl⟩ | rfl <;> simp
  | returned =>
      rw [hst] at hprogress
      show ∀ c ∈ s'.heldAtStop, s'.Done c
      rw [hb.held]
      exact fun c hc => hdone (hprogress c hc)
  | raised =>
      rw [hst] at hprogress
      exact hprogress

/-- Only `stop()` calls `stop()`. -/
theorem Step.notCalled (hs : Step digest s a s') (h : s.stopping = .notCalled) (ha : a ≠ .stop) :
    s'.stopping = .notCalled := by
  cases hs with
  | stops => exact absurd rfl ha
  | sizeChanged size pos hst => simp [h] at hst
  | stopsCluster size pos c nc cl hst => simp [h] at hst
  | stopReturns size pos hst => simp [h] at hst
  | clusterStopped size pos c run nc cl hst => simp [h] at hst
  | clusterStopRaised size pos c run nc cl hst => simp [h] at hst
  | _ => exact h

/-- The next cluster's turn: a live one is stopped and awaited, and any other one is
finished. -/
theorem StopInv.stopsCluster (h : StopInv s) {size pos c : Nat} {nc : NamedCluster} {cl : Cluster}
    (hcov : Cluster.NodesCovered (fun st => st.live = true) nc.cluster)
    (hgone : Cluster.NodesGone (fun st => st.live = true) nc.cluster)
    (hsettled : nc.cluster.settled = true) (hst : s.stopping = .iterating size pos)
    (hc : s.clusters.values[pos]? = some c) (hnc : s.allClusters[c]? = some nc)
    (hcl : nc.cluster.step digest (.stop true) = some cl) :
    StopInv { s with
      allClusters := s.allClusters.set c (nc.become cl)
      stopping :=
        if nc.cluster.state.live then .awaiting size (pos + 1) c nc.cluster.stops.length
        else .iterating size (pos + 1) } := by
  have hprogress := h.progress
  rw [hst] at hprogress
  obtain ⟨hsize, hvalues, hpos⟩ := hprogress
  have hover := h.requests (by simp [hst])
  have hs := Cluster.step_cases hcl
  have hover' : RequestsOver { s with allClusters := s.allClusters.set c (nc.become cl) } :=
    hover.moved hnc hcl (by simp) (by simp) rfl hover.tasks
  have hdone : ∀ {d}, Done s d →
      Done { s with allClusters := s.allClusters.set c (nc.become cl) } d :=
    fun hd => hd.moved hover hnc hcl (by simp) rfl
  have hcpos : s.heldAtStop[pos]? = some c := by rw [← hvalues]; exact hc
  -- what was done before, and the cluster at hand
  have hnext : ∀ i d, i < pos + 1 → s.heldAtStop[i]? = some d →
      d = c ∨ Done { s with allClusters := s.allClusters.set c (nc.become cl) } d := by
    intro i d hi hd
    rcases Nat.lt_succ_iff_lt_or_eq.mp hi with hlt | rfl
    · exact .inr (hdone (hpos i d hlt hd))
    · exact .inl (Option.some.inj (hd.symm.trans hcpos))
  refine ⟨fun _ => ⟨hover'.tasks, hover'.calls⟩, ?_⟩
  cases hlive : nc.cluster.state.live with
  | true =>
      have hcov' : Cluster.NodesCovered (fun st => st ≠ .terminated) cl :=
        (Cluster.covered_of_settled hsettled hcov).step Cluster.nodePredicate_not_terminated rfl
          (by simp) hs
      refine ⟨hsize, hvalues, hnext, List.mem_of_getElem? hcpos, nc.become cl, ?_⟩
      cases hs with
      | stopPasses =>
          exact ⟨_, Objects.set_self hnc, List.getElem?_concat_length, by simp, hcov'⟩
      | stopSkips _ hdead => simp [hlive] at hdead
  | false =>
      refine ⟨hsize, hvalues, fun i d hi hd => ?_⟩
      rcases hnext i d hi hd with rfl | hdone
      · have hfin := Cluster.finished_of_settled hsettled hlive hgone
        exact Done.moved ⟨nc, hnc, hfin⟩ hover hnc hcl (by simp) rfl
      · exact hdone

/-- The awaited stop returns: the cluster is finished. -/
theorem StopInv.clusterStopped (h : StopInv s) {size pos c run : Nat} {nc : NamedCluster}
    {cl : Cluster} (hst : s.stopping = .awaiting size pos c run)
    (hnc : s.allClusters[c]? = some nc)
    (hcl : nc.cluster.step digest (.stopping run .paymentStopped) = some cl) :
    StopInv { s with
      allClusters := s.allClusters.set c (nc.become cl)
      stopping := .iterating size pos } := by
  have hprogress := h.progress
  rw [hst] at hprogress
  obtain ⟨hsize, hvalues, hpos, -, mc, σ, hmc, hσ, -, hcov⟩ := hprogress
  obtain rfl : nc = mc := Option.some.inj (hnc.symm.trans hmc)
  have hover := h.requests (by simp [hst])
  have hover' : RequestsOver { s with allClusters := s.allClusters.set c (nc.become cl) } :=
    hover.moved hnc hcl (by simp) (by simp) rfl hover.tasks
  have hfin : cl.Finished := by
    cases Cluster.step_cases hcl with
    | paymentStopped _ τ hτ hpc =>
        refine ⟨rfl, fun n v hv => ?_⟩
        simpa using hcov.none_of_payment hτ hpc n v hv
  refine ⟨fun _ => ⟨hover'.tasks, hover'.calls⟩, hsize, hvalues, fun i d hi hd => ?_⟩
  rcases hpos i d hi hd with rfl | hdone
  · exact ⟨nc.become cl, Objects.set_self hnc, hfin⟩
  · exact hdone.moved hover hnc hcl (by simp) rfl

/-- **One step under the condition keeps the invariant.** -/
theorem StopInv.step (h : StopInv s) (hok : stopsCleanly s a = true)
    (hcovered : ∀ (c : Nat) (nc : NamedCluster), s.allClusters[c]? = some nc →
      Cluster.NodesCovered (fun st => st.live = true) nc.cluster ∧
        Cluster.NodesGone (fun st => st.live = true) nc.cluster)
    (hs : Step digest s a s') : StopInv s' := by
  obtain ⟨-, hbeside, hsettled, -, -, hraises, -⟩ := stopsCleanly_iff.mp hok
  cases hstop : besideServiceStop s a with
  | true =>
      by_cases hcalled : s.stopping = .notCalled
      · have hnot := hs.notCalled hcalled (by rintro rfl; cases hstop)
        exact ⟨fun hne => absurd hnot hne, by rw [hnot]; trivial⟩
      · have hnew : ∀ name q, a ≠ .requestNodes name q := by
          rintro name q rfl
          simp [besideRequests, hcalled] at hbeside
        exact h.beside hcalled hok ((h.requests hcalled).beside hnew hs hstop)
  | false =>
      cases hs with
      | stops hst =>
          have hover := requestsOver_of hbeside
          exact ⟨fun _ => ⟨hover.tasks, hover.calls⟩, rfl, rfl,
            fun i c hi => absurd hi (Nat.not_lt_zero i)⟩
      | sizeChanged size pos hst hsize =>
          have hprogress := h.progress
          rw [hst] at hprogress
          exact absurd hprogress.1 hsize
      | stopsCluster size pos c nc cl hst hsize hc hnc hcl =>
          have hturn : nc.cluster.settled = true := by
            simpa [turnsSettled, nextStop, hst, hc, hnc] using hsettled
          exact h.stopsCluster (hcovered c nc hnc).1 (hcovered c nc hnc).2 hturn hst hc hnc hcl
      | stopReturns size pos hst hsize hend =>
          have hover := h.requests (by simp [hst])
          have hprogress := h.progress
          rw [hst] at hprogress
          obtain ⟨-, hvalues, hpos⟩ := hprogress
          refine ⟨fun _ => ⟨hover.tasks, hover.calls⟩, fun c hc => ?_⟩
          obtain ⟨i, hi⟩ := List.mem_iff_getElem?.mp hc
          have hlt : i < pos := by
            obtain ⟨hlen, -⟩ := List.getElem?_eq_some_iff.mp hi
            rw [hvalues, List.getElem?_eq_none_iff] at hend
            have hlen : i < s.heldAtStop.length := hlen
            omega
          obtain ⟨nc, hnc, hfin⟩ := hpos i c hlt hi
          exact ⟨nc, hnc, hfin⟩
      | clusterStopped size pos c run nc cl hst hnc hcl => exact h.clusterStopped hst hnc hcl
      | clusterStopRaised => cases hraises
      | arrives _ kind name ha => simp [besideServiceStop_of_arrival ha] at hstop
      | _ => cases hstop

end RayService
