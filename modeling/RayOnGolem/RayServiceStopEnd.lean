import RayOnGolem.RayServiceStop

/-!
# `RayService.stop` comes to its end

In a run whose steps all meet the condition of `RayServiceStop`, `stop()` is never stuck:
from every state after its call, steps that meet the condition as well take it to its
return.  A cluster whose turn it is gets settled by its own steps (`settles_next`), and the
stop that is awaited gets to its end (`awaited_ends`), so that there is one cluster less to
go through.

Main results:

* `stop_stops_everything` -- under the condition `stop` does not raise and can always go
  on to its return, and when it returns all clusters that were registered are terminated
  with all their nodes;
* `node_left_terminating` -- a `terminate_node` in flight makes it return while the
  node is still being stopped.
-/

namespace RayService

open Runs

variable {digest : NodeConfigData → String} {s s' : RayService} {a : Act}

/-! ### The registered clusters -/

/-- Every registered cluster exists. -/
def Listed (s : RayService) : Prop := ∀ c ∈ s.clusters.values, c < s.allClusters.length

theorem Step.length_le (hs : Step digest s a s') :
    s.allClusters.length ≤ s'.allClusters.length := by
  cases hs.change with
  | same h => rw [h]
  | moves c b nc cl hb hnc hcl h => rw [h, List.length_set]
  | creates name q h =>
      rw [h, List.length_append]
      exact Nat.le_add_right _ _

theorem Listed.step (h : Listed s) (hs : Step digest s a s') : Listed s' := by
  have hlen := hs.length_le
  have hset : ∀ {name : String} {c : Nat} {l : List NamedCluster} {nc : NamedCluster},
      c ∈ (s.clusters.set name s.allClusters.length).values → l = s.allClusters ++ [nc] →
      c < l.length := by
    rintro name c l nc hc rfl
    rw [List.length_append, List.length_singleton]
    rcases Dict.mem_values_set hc with rfl | hold
    · exact Nat.lt_succ_self _
    · exact Nat.lt_succ_of_lt (h c hold)
  cases hs with
  | creates k x q name sem => exact fun c hc => hset hc rfl
  | replaces k x q j y => exact fun c hc => hset hc rfl
  | removes k x name sem c c' nc L => exact fun d hd => h d (Dict.mem_values_erase hd)
  | stopReturns => exact fun c hc => absurd hc List.not_mem_nil
  | _ => exact fun c hc => Nat.lt_of_lt_of_le (h c hc) hlen

/-- While `stop()` goes on, nothing was left behind by a stop in a cluster that was
registered. -/
def HeldUnstuck (s : RayService) : Prop :=
  s.stopGoesOn = true → ∀ c ∈ s.heldAtStop, ∃ nc, s.allClusters[c]? = some nc ∧
    nc.cluster.Unstuck

/-- One cluster makes a step in which no stop raises. -/
theorem HeldUnstuck.moved (h : HeldUnstuck s) (hgoes : s.stopGoesOn = true) {c : Nat}
    {b : Cluster.Act} {nc : NamedCluster} {cl : Cluster} (hnc : s.allClusters[c]? = some nc)
    (hcl : nc.cluster.step digest b = some cl)
    (hraises : c ∈ s.heldAtStop → nc.cluster.stopRaises b = false)
    (hheld : s'.heldAtStop = s.heldAtStop)
    (hall : s'.allClusters = s.allClusters.set c (nc.become cl)) : HeldUnstuck s' := by
  intro _ d hd
  rw [hheld] at hd
  obtain ⟨mc, hmc, hunstuck⟩ := h hgoes d hd
  by_cases hdc : d = c
  · subst hdc
    obtain rfl : nc = mc := Option.some.inj (hnc.symm.trans hmc)
    refine ⟨nc.become cl, by rw [hall]; exact Objects.set_self hnc, ?_⟩
    exact hunstuck.step (hraises hd) (Cluster.step_cases hcl)
  · exact ⟨mc, by rw [hall]; exact Objects.set_old hdc hmc, hunstuck⟩

/-- Nothing happens to the clusters. -/
theorem HeldUnstuck.frame (h : HeldUnstuck s)
    (hgoes : s'.stopGoesOn = true → s.stopGoesOn = true)
    (hheld : s'.heldAtStop = s.heldAtStop) (hall : s'.allClusters = s.allClusters) :
    HeldUnstuck s' := by
  intro hgo c hc
  rw [hheld] at hc
  rw [hall]
  exact h (hgoes hgo) c hc

/-- **A step under the condition** leaves nothing behind. -/
theorem HeldUnstuck.step (h : HeldUnstuck s) (hlisted : Listed s) (hinv : StopInv s)
    (hok : stopsCleanly s a = true) (hs : Step digest s a s') : HeldUnstuck s' := by
  obtain ⟨-, hbeside, -, -, -, hraises, hbehind⟩ := stopsCleanly_iff.mp hok
  cases hstop : besideServiceStop s a with
  | true =>
      cases hgoes : s.stopGoesOn with
      | false =>
          have hsame : s'.stopping = s.stopping := by
            cases hs <;> first | rfl | cases hstop
          intro hgo
          rw [stopGoesOn, hsame] at hgo
          rw [show s.stopGoesOn = true from hgo] at hgoes
          cases hgoes
      | true =>
          have hcalled : s.stopping ≠ .notCalled := by
            intro hst
            simp [stopGoesOn, hst] at hgoes
          have hnew : ∀ name q, a ≠ .requestNodes name q := by
            rintro name q rfl
            simp [besideRequests, hcalled] at hbeside
          have hb := (hinv.requests hcalled).beside hnew hs hstop
          cases hb.change with
          | same hall => exact h.frame (fun _ => hgoes) hb.held hall
          | moves c b nc cl hact hnc hcl hall =>
              refine h.moved hgoes hnc hcl (fun hc => ?_) hb.held hall
              rcases hact with ⟨rfl, -⟩ | rfl | ⟨n, rfl⟩ | rfl
              · simpa [stopRaisesNot, hnc, hgoes, hc] using hraises
              · rfl
              · rfl
              · rfl
  | false =>
      cases hs with
      | stops hst =>
          intro _ c hc
          have hlt := hlisted c hc
          refine ⟨s.allClusters[c], List.getElem?_eq_getElem hlt, ?_⟩
          have hunstuck := List.all_eq_true.mp hbehind c hc
          rw [List.getElem?_eq_getElem hlt] at hunstuck
          exact Cluster.unstuck_of hunstuck
      | sizeChanged size pos hst => exact fun hgo => by cases hgo
      | stopsCluster size pos c nc cl hst hsize hc hnc hcl =>
          exact h.moved (by simp [stopGoesOn, hst]) hnc hcl (fun _ => rfl) rfl rfl
      | stopReturns size pos hst => exact fun hgo => by cases hgo
      | clusterStopped size pos c run nc cl hst hnc hcl =>
          exact h.moved (by simp [stopGoesOn, hst]) hnc hcl (fun _ => rfl) rfl rfl
      | clusterStopRaised => cases hraises
      | arrives _ kind name ha => simp [besideServiceStop_of_arrival ha] at hstop
      | _ => cases hstop

/-- What a run under the condition maintains. -/
structure StopSound (s : RayService) : Prop where
  inv : StopInv s
  listed : Listed s
  held : HeldUnstuck s
  known : ∀ (c : Nat) (nc : NamedCluster), s.allClusters[c]? = some nc → nc.cluster.Known

theorem stopSound_of_reach
    (h : Reach Initial (step digest) (fun s a => stopsCleanly s a) s) : StopSound s := by
  have hknown : ∀ (c : Nat) (nc : NamedCluster), s.allClusters[c]? = some nc →
      nc.cluster.Known := fun c nc hnc =>
    Cluster.known_of_reach (Reach.cluster (fun _ _ _ _ _ _ => trivial) (fun _ _ _ => trivial)
      h c nc hnc)
  suffices hinv : StopInv s ∧ Listed s ∧ HeldUnstuck s from ⟨hinv.1, hinv.2.1, hinv.2.2, hknown⟩
  clear hknown
  induction h with
  | start hinit =>
      refine ⟨stopInv_initial hinit, ?_, ?_⟩
      · rw [hinit]
        exact fun c hc => absurd hc List.not_mem_nil
      · rw [hinit]
        exact fun hgo => by cases hgo
  | next before hok hstep ih =>
      obtain ⟨hinv, hlisted, hheld⟩ := ih
      have hs := step_cases hstep
      have hintime : Reach Initial (step digest) (fun s a => registersInTime s a) _ :=
        before.mono fun s a hok => (stopsCleanly_iff.mp hok).1
      exact ⟨hinv.step hok (live_nodes_covered hintime) hs, hlisted.step hs,
        hheld.step hlisted hinv hok hs⟩

/-! ### A cluster goes on by itself -/

/-- Under the condition `stop()` leads to `s'`. -/
abbrev LeadsCleanly (digest : NodeConfigData → String) : RayService → RayService → Prop :=
  Leads (step digest) fun s a => stopsCleanly s a

/-- The steps that bring a stop to its end meet the condition. -/
theorem stopsCleanly_finishing {c : Nat} {nc : NamedCluster} {b : Cluster.Act}
    (hnc : s.allClusters[c]? = some nc) (hb : Cluster.finishing nc.cluster b = true) :
    stopsCleanly s (.cluster c b) = true ∧ s.internal c b = true := by
  have hregisters : Cluster.registersNodes b = false := by
    cases b <;> first | rfl | cases hb
  have hraises : nc.cluster.stopRaises b = false := by
    unfold Cluster.finishing at hb
    split at hb <;> first | rfl | cases hb
  have hinternal : s.internal c b = true := by
    unfold Cluster.finishing at hb
    split at hb <;> first | rfl | cases hb
  have hfinds : nc.cluster.findsTerminating b = false := by
    unfold Cluster.finishing at hb
    split at hb
    · simpa using hb
    all_goals first | rfl | cases hb
  refine ⟨stopsCleanly_iff.mpr ⟨?_, rfl, rfl, ?_, rfl, ?_, rfl⟩, hinternal⟩
  · simp [registersInTime, hnc, Cluster.inTime, Cluster.besideStop, Cluster.whileRunning,
      hregisters]
  · simp only [stopsUntouched, hnc]
    split <;> simp_all
  · simp [stopRaisesNot, hnc, hraises]

/-- A cluster makes a step. -/
theorem stepCluster_eq {c : Nat} {b : Cluster.Act} {nc : NamedCluster} {cl : Cluster}
    (hnc : s.allClusters[c]? = some nc) (hcl : nc.cluster.step digest b = some cl) :
    s.stepCluster digest c b =
      some { s with allClusters := s.allClusters.set c (nc.become cl) } := by
  simp only [stepCluster, hnc, hcl, Option.map_some]
  rfl

/-- A cluster makes two steps. -/
theorem stepCluster_set {c : Nat} {b : Cluster.Act} {nc : NamedCluster} {m cl : Cluster}
    (hnc : s.allClusters[c]? = some nc) (hcl : m.step digest b = some cl) :
    stepCluster digest { s with allClusters := s.allClusters.set c (nc.become m) } c b =
      some { s with allClusters := s.allClusters.set c (nc.become cl) } := by
  have hmc : (s.allClusters.set c (nc.become m))[c]? = some (nc.become m) := Objects.set_self hnc
  rw [stepCluster_eq (s := { s with allClusters := s.allClusters.set c (nc.become m) }) hmc hcl]
  simp [NamedCluster.become]

/-- The run of a cluster to the end of a stop is a run of the service. -/
theorem leads_finishing {c : Nat} {nc : NamedCluster} {cl : Cluster}
    (hnc : s.allClusters[c]? = some nc) (h : Cluster.FinishesTo digest nc.cluster cl) :
    LeadsCleanly digest s { s with allClusters := s.allClusters.set c (nc.become cl) } := by
  induction h with
  | start heq =>
      subst heq
      have hsame : s.allClusters.set c (nc.become nc.cluster) = s.allClusters := by
        obtain ⟨hlt, hget⟩ := List.getElem?_eq_some_iff.mp hnc
        rw [show nc.become nc.cluster = nc from rfl, ← hget]
        exact List.set_getElem_self hlt
      rw [hsame]
      exact .refl s
  | @next m cl b before hok hstep ih =>
      have hmc : (s.allClusters.set c (nc.become m))[c]? = some (nc.become m) :=
        Objects.set_self hnc
      obtain ⟨hclean, hinternal⟩ := stopsCleanly_finishing
        (s := { s with allClusters := s.allClusters.set c (nc.become m) }) hmc hok
      refine .next ih hclean ?_
      simpa only [step, if_pos hinternal] using stepCluster_set hnc hstep

/-! ### `stop()` goes on -/

/-- Such a run changes neither what `stop()` does nor the registry. -/
structure Resumes (s s' : RayService) : Prop where
  stopping : s'.stopping = s.stopping
  clusters : s'.clusters = s.clusters

/-- **The cluster whose turn it is gets settled**: its own steps end the stops of its nodes,
and its own stop if somebody else has called it. -/
theorem settles_next (digest : NodeConfigData → String) (h : StopSound s) {size pos c : Nat}
    (hst : s.stopping = .iterating size pos) (hc : s.clusters.values[pos]? = some c) :
    ∃ s' nc, LeadsCleanly digest s s' ∧ Resumes s s' ∧ s'.allClusters[c]? = some nc ∧
      nc.cluster.settled = true := by
  have hprogress := h.inv.progress
  rw [hst] at hprogress
  have hheld : c ∈ s.heldAtStop := by
    rw [← hprogress.2.1]
    exact List.mem_of_getElem? hc
  obtain ⟨nc, hnc, hunstuck⟩ := h.held (by simp [stopGoesOn, hst]) c hheld
  obtain ⟨cl, hrun, hsettled⟩ := hunstuck.settles (h.known c nc hnc) digest
  have hleads := leads_finishing hnc hrun
  have hmc : (s.allClusters.set c (nc.become cl))[c]? = some (nc.become cl) :=
    Objects.set_self hnc
  rcases hsettled with hsettled | ⟨i, cl', hstep, hsettled⟩
  · exact ⟨_, nc.become cl, hleads, ⟨rfl, rfl⟩, hmc, hsettled⟩
  · refine ⟨{ s with allClusters := s.allClusters.set c (nc.become cl') }, nc.become cl',
      .next (a := .cluster c (.stopping i .paymentStopped)) hleads ?_ ?_, ⟨rfl, rfl⟩,
      Objects.set_self hnc, hsettled⟩
    · refine stopsCleanly_iff.mpr ⟨?_, rfl, rfl, ?_, rfl, ?_, rfl⟩
      · simp [registersInTime, hmc, Cluster.inTime, Cluster.besideStop, Cluster.whileRunning,
          Cluster.registersNodes]
      · simp [stopsUntouched, hst]
      · simp [stopRaisesNot, hmc, Cluster.stopRaises]
    · have hinternal : internal { s with allClusters := s.allClusters.set c (nc.become cl) } c
          (.stopping i .paymentStopped) = true := by
        simp [internal, awaits, hst]
      simpa only [step, if_pos hinternal] using stepCluster_set hnc hstep

/-- **The awaited stop returns.** -/
theorem awaited_ends (digest : NodeConfigData → String) (h : StopSound s) {size pos c run : Nat}
    (hst : s.stopping = .awaiting size pos c run) :
    ∃ s', LeadsCleanly digest s s' ∧ s'.stopping = .iterating size pos := by
  have hprogress := h.inv.progress
  rw [hst] at hprogress
  obtain ⟨-, -, -, hheld, nc, σ, hnc, hσ, hpc, -⟩ := hprogress
  obtain ⟨mc, hmc, hunstuck⟩ := h.held (by simp [stopGoesOn, hst]) c hheld
  obtain rfl : nc = mc := Option.some.inj (hnc.symm.trans hmc)
  have hknown := h.known c nc hnc
  obtain ⟨cl, hrun, hσ', -⟩ := Cluster.finish digest hσ (hunstuck.sound hknown hσ hpc)
    hknown.managerStacks
  obtain ⟨cl', hstep⟩ : ∃ cl', cl.step digest (.stopping run .paymentStopped) = some cl' := by
    simp only [Cluster.step, hσ', Cluster.stepStop]
    exact ⟨_, rfl⟩
  refine ⟨{ s with
      allClusters := s.allClusters.set c (nc.become cl')
      stopping := .iterating size pos },
    .next (a := .clusterStopped) (leads_finishing hnc hrun) rfl ?_, rfl⟩
  have hgo := stepCluster_set hnc hstep
  simp only [hst] at hgo
  simp only [step, clusterStopped, hst, hgo, Option.map_some]

/-- The next iteration stops a settled cluster, and may await it. -/
theorem stops_next (digest : NodeConfigData → String) (h : StopSound s) {size pos c : Nat}
    {nc : NamedCluster}
    (hst : s.stopping = .iterating size pos) (hc : s.clusters.values[pos]? = some c)
    (hnc : s.allClusters[c]? = some nc) (hsettled : nc.cluster.settled = true) :
    ∃ s', LeadsCleanly digest s s' ∧ (s'.stopping = .iterating size (pos + 1) ∨
      ∃ run, s'.stopping = .awaiting size (pos + 1) c run) := by
  have hprogress := h.inv.progress
  rw [hst] at hprogress
  have hclean : stopsCleanly s .stopNext = true := by
    refine stopsCleanly_iff.mpr ⟨rfl, rfl, ?_, rfl, rfl, rfl, rfl⟩
    simp [turnsSettled, nextStop, hst, hc, hnc, hsettled]
  have hstep : s.step digest .stopNext = some { s with
      allClusters := s.allClusters.set c (nc.become (nc.cluster.stop true))
      stopping :=
        if nc.cluster.state.live then .awaiting size (pos + 1) c nc.cluster.stops.length
        else .iterating size (pos + 1) } := by
    simp only [step, stopNext, hst, hprogress.1, hc, hnc,
      stepCluster_eq hnc (show nc.cluster.step digest (.stop true) = some _ from rfl)]
    simp
  refine ⟨_, .single hclean hstep, ?_⟩
  cases hlive : nc.cluster.state.live with
  | true => exact .inr ⟨nc.cluster.stops.length, rfl⟩
  | false => exact .inl rfl

/-- `stop()` returns at the end of the registry. -/
theorem returns_at_end (h : StopSound s) {size pos : Nat} (hst : s.stopping = .iterating size pos)
    (hend : s.clusters.values[pos]? = none) :
    ∃ s', LeadsCleanly digest s s' ∧ s'.stopping = .returned := by
  have hprogress := h.inv.progress
  rw [hst] at hprogress
  have hclean : stopsCleanly s .stopNext = true := by
    refine stopsCleanly_iff.mpr ⟨rfl, rfl, ?_, rfl, rfl, rfl, rfl⟩
    simp [turnsSettled, nextStop, hst, hend]
  have hstep : s.step digest .stopNext = some { s with
      stopping := .returned
      clusters := {}
      clustersLocks := s.clustersLocks.clear
      clustersRemoveTasks := {} } := by
    simp [step, stopNext, hst, hprogress.1, hend]
  exact ⟨_, .single hclean hstep, rfl⟩

/-- **`stop()` goes through the rest of the registry** and returns. -/
theorem iterates {rest size pos : Nat} {s : RayService}
    (h : Reach Initial (step digest) (fun s a => stopsCleanly s a) s)
    (hst : s.stopping = .iterating size pos) (hrest : size - pos = rest) :
    ∃ s', LeadsCleanly digest s s' ∧ s'.stopping = .returned := by
  induction rest generalizing s pos with
  | zero =>
      have hsound := stopSound_of_reach h
      have hprogress := hsound.inv.progress
      rw [hst] at hprogress
      refine returns_at_end hsound hst (List.getElem?_eq_none ?_)
      rw [Dict.values, List.length_map, hprogress.1]
      omega
  | succ rest ih =>
      have hsound := stopSound_of_reach h
      cases hc : s.clusters.values[pos]? with
      | none => exact returns_at_end hsound hst hc
      | some c =>
          obtain ⟨s₁, nc, hrun₁, hsame, hnc, hsettled⟩ :=
            settles_next digest hsound hst hc
          obtain ⟨s₂, hrun₂, hnext⟩ := stops_next digest
            (stopSound_of_reach (h.leads hrun₁)) (hsame.stopping.trans hst)
            (by rw [hsame.clusters]; exact hc) hnc hsettled
          have hreach₂ := (h.leads hrun₁).leads hrun₂
          have hless : size - (pos + 1) = rest := by omega
          rcases hnext with hiterating | ⟨run, hawaiting⟩
          · obtain ⟨s₃, hrun₃, hreturned⟩ := ih hreach₂ hiterating hless
            exact ⟨s₃, (hrun₁.leads hrun₂).leads hrun₃, hreturned⟩
          · obtain ⟨s₃, hrun₃, hiterating⟩ :=
              awaited_ends digest (stopSound_of_reach hreach₂) hawaiting
            obtain ⟨s₄, hrun₄, hreturned⟩ := ih (hreach₂.leads hrun₃) hiterating hless
            exact ⟨s₄, ((hrun₁.leads hrun₂).leads hrun₃).leads hrun₄, hreturned⟩

/-- **From every state after its call `stop()` can go on to its return.** -/
theorem stop_completes (h : Reach Initial (step digest) (fun s a => stopsCleanly s a) s)
    (hcalled : s.stopping ≠ .notCalled) :
    ∃ s', LeadsCleanly digest s s' ∧ s'.stopping = .returned := by
  have hsound := stopSound_of_reach h
  cases hst : s.stopping with
  | notCalled => exact absurd hst hcalled
  | iterating size pos => exact iterates h hst rfl
  | awaiting size pos c run =>
      obtain ⟨s', hrun, hiterating⟩ := awaited_ends digest hsound hst
      obtain ⟨s'', hrest, hreturned⟩ := iterates (h.leads hrun) hiterating rfl
      exact ⟨s'', hrun.leads hrest, hreturned⟩
  | returned => exact ⟨s, .refl s, hst⟩
  | raised =>
      have hprogress := hsound.inv.progress
      rw [hst] at hprogress
      exact hprogress.elim

/-! ### The result -/

/-- **`RayService.stop` stops everything** in every run whose steps all meet the
condition: it does not raise and can always go on to its return, what it awaits is in
progress, and when it returns every cluster that was registered is terminated with all its
nodes. -/
theorem stop_stops_everything
    (h : Reach Initial (step digest) (fun s a => stopsCleanly s a) s) :
    StopsEverything digest (fun s a => stopsCleanly s a) s := by
  have hprogress := (stopSound_of_reach h).inv.progress
  refine ⟨?_, stop_completes h, ?_, ?_⟩
  · intro hst
    rw [hst] at hprogress
    exact hprogress
  · intro size pos c run hst
    rw [hst] at hprogress
    obtain ⟨-, -, -, -, nc, σ, hnc, hσ, hpc, -⟩ := hprogress
    exact ⟨nc, σ, hnc, hσ, hpc⟩
  · intro hst c hc
    rw [hst] at hprogress
    obtain ⟨nc, hnc, hfin⟩ := hprogress c hc
    refine ⟨nc, hnc, hfin.state, fun v hv => ?_⟩
    obtain ⟨n, hn⟩ := List.mem_iff_getElem?.mp hv
    exact hfin.nodes n v hn

/-! ### Two runs -/

/-- A request creates a cluster with one node, which runs. -/
def oneRunningNode : List Act :=
  [.requestNodes "cluster" ⟨Cluster.publicConfig, 1, false⟩, .task 0 .run, .task 0 .startDone] ++
    (Cluster.requestUntilCreate ⟨Cluster.publicConfig, 1, false⟩ 0 true).tail.map (.cluster 0) ++
    (Cluster.requestAfterCreate 0 1).map (.cluster 0) ++ [.cluster 0 (.node 0 .ready)]

/-- The stop of the cluster goes on after its node, up to the payment manager. -/
def stacksOfOne : List Act :=
  let acts : List Cluster.Act := [.stopping 0 .nodesDone, .stopping 0 .stack,
    .stack 0 .managerStopped, .stack 0 .managerStopped, .stack 0 .managerStopped,
    .stopping 0 .stacksDone]
  acts.map (.cluster 0)

/-- `stop()` stops the node, its stack and the cluster. -/
def stopOne : List Act :=
  oneRunningNode ++
    [.stop, .stopNext, .cluster 0 (.stopping 0 .node), .cluster 0 (.node 0 .stopped)] ++
    stacksOfOne ++ [.clusterStopped, .stopNext]

theorem stop_stops_everything_one :
    ∃ s, exec (guarded (step Cluster.exampleDigest) stopsCleanly) stopOne {} = some s ∧
      s.stopping = .returned ∧ s.heldAtStop = [0] ∧
      StopsEverything Cluster.exampleDigest (fun s a => stopsCleanly s a) s := by
  refine ⟨_, rfl, rfl, rfl, ?_⟩
  have hreach : Reach Initial (step Cluster.exampleDigest) (fun s a => stopsCleanly s a) _ :=
    Reach.execGuarded stopOne (.start rfl) rfl
  exact stop_stops_everything hreach

/-- The same with a `terminate_node` that awaits the node's stop when `stop()` is
called, so that the cluster's own stop skips the node. -/
def stopBesideTerminate : List Act :=
  oneRunningNode ++
    [.terminateNode "cluster" 0, .task 1 .run, .stop, .stopNext,
      .cluster 0 (.stopping 0 .node)] ++
    stacksOfOne ++ [.clusterStopped, .stopNext]

/-- **`stop()` returns while a node is still being stopped.** -/
theorem node_left_terminating :
    ¬ ∀ s, Reach Initial (step Cluster.exampleDigest) (fun s a => besideRequests s a) s →
      StopsEverything Cluster.exampleDigest (fun s a => besideRequests s a) s := by
  intro hall
  have hrun : ∃ s nc v,
      exec (guarded (step Cluster.exampleDigest) besideRequests) stopBesideTerminate {} = some s ∧
      s.stopping = .returned ∧ s.heldAtStop = [0] ∧ s.allClusters[0]? = some nc ∧
      nc.cluster.allNodes[0]? = some v ∧ v.state = .terminating :=
    ⟨_, _, _, rfl, rfl, rfl, rfl, rfl, rfl⟩
  obtain ⟨s, nc, v, hs, hreturned, hheld, hnc, hv, hterminating⟩ := hrun
  have hreach : Reach Initial (step Cluster.exampleDigest) (fun s a => besideRequests s a) s :=
    Reach.execGuarded stopBesideTerminate (.start rfl) hs
  obtain ⟨mc, hmc, -, hnodes⟩ := (hall s hreach).stopped hreturned 0 (by simp [hheld])
  obtain rfl : nc = mc := Option.some.inj (hnc.symm.trans hmc)
  have hterm := hnodes v (List.mem_of_getElem? hv)
  rw [hterminating] at hterm
  cases hterm

end RayService
