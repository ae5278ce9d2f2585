import RayOnGolem.RayServiceLive
import RayOnGolem.RayServiceStop
import RayOnGolem.Server

/-!
# What an unforced shutdown leaves alive

`shutdown` answers `WILL_SHUTDOWN` when no cluster has a node that is pending or
running.  A request that passed `reject_if_shutting_down` before the flag was set
is not part of that decision, wherever it stands: it may await its body, its
cluster or its manager stacks, and register its nodes after the answer.

Main results:

* `unforced_shutdown_safe` -- if such an answer is only given while no request for
  nodes is in flight (`answersAlone`), and the registry finds every live node
  (`restartsAtRest`, `registersInTime`), then from the answer on no node of any
  cluster is pending or running;
* `node_created_after_answer` -- a request that awaits a manager stack at the time
  of the answer gets its node afterwards.

The decision itself is right because of what the registry keeps up, and nothing
comes alive later because without requests no step of a cluster adds a node.
-/

/-- A handler of a request for nodes. -/
def Handler.isRequest : Handler → Bool
  | .requestNodes _ _ => true
  | .terminateNode _ _ => false

namespace Cluster

variable {digest : NodeConfigData → String} {s s' : Cluster} {a : Act}

/-- No node is pending or running. -/
def NoLive (s : Cluster) : Prop :=
  ∀ (n : Nat) (v : NodeView), s.allNodes[n]? = some v → v.state.live = false

/-- A node changes and is not live, or was already. -/
theorem NoLive.setNode (h : NoLive s) {n : Nat} {v v' : NodeView}
    (hall : s'.allNodes = s.allNodes.set n v') (hv : s.allNodes[n]? = some v)
    (hlive : v'.state.live = true → v.state.live = true) : NoLive s' := by
  intro m w hw
  rw [hall] at hw
  by_contra hw'
  have hwlive : w.state.live = true := by simpa using hw'
  obtain ⟨u, hu, hulive⟩ :=
    Objects.less_of_set (p := fun v : NodeView => v.state.live = true) hv hlive m w hw hwlive
  rw [h m u hu] at hulive
  cases hulive

/-- **No node comes alive** without requests. -/
theorem NoLive.step (h : NoLive s) (hcalls : CallsOver s) (hs : Step digest s a s') :
    NoLive s' := by
  cases hs with
  | finishes t k c r p id hc hstage => simp [hcalls t c hc] at hstage
  | stopsNode i n σ todo busy v hσ hpc hv => exact h.setNode rfl hv nodePredicate_live.of_stop
  | nodeReady n v hv hstate => exact h.setNode rfl hv fun _ => by simp [hstate]
  | nodeStartFailed n v hv => exact h.setNode rfl hv (by simp)
  | nodeStop n v hv => exact h.setNode rfl hv nodePredicate_live.of_stop
  | nodeStopped n v ce hv => exact h.setNode rfl hv (by simp)
  | nodeStopRaised n v ce hv => exact h.setNode rfl hv fun hlive => hlive
  | _ => exact h

end Cluster

namespace RayService

open Runs

variable {digest : NodeConfigData → String} {s s' : RayService} {a : Act}

/-- No node of any cluster is pending or running. -/
def NoLive (s : RayService) : Prop :=
  ∀ (c : Nat) (nc : NamedCluster), s.allClusters[c]? = some nc → nc.cluster.NoLive

/-! ### Without requests -/

/-- **While no request is going on**, a step takes at most one cluster through a step
of its own, which is no start. -/
theorem RequestsOver.change (h : RequestsOver s) (hnew : ∀ name q, a ≠ .requestNodes name q)
    (hs : Step digest s a s') :
    (∀ (k : Nat) (x : ServiceTask) (q : Request), s'.tasks[k]? = some x →
      x.kind = .requestNodes q → x.stage = .over) ∧
    (s'.allClusters = s.allClusters ∨
      ∃ (c : Nat) (b : Cluster.Act) (nc : NamedCluster) (cl : Cluster),
        ((∀ q, b ≠ .start q) ∧ ∀ q, b ≠ .enter q) ∧ s.allClusters[c]? = some nc ∧
          nc.cluster.step digest b = some cl ∧
            s'.allClusters = s.allClusters.set c (nc.become cl)) := by
  cases hstop : besideServiceStop s a with
  | true =>
      have hbeside := h.beside hnew hs hstop
      refine ⟨hbeside.tasks, ?_⟩
      cases hbeside.change with
      | same hall => exact .inl hall
      | moves c b nc cl hact hnc hcl hall =>
          exact .inr ⟨c, b, nc, cl, quiet_act hact, hnc, hcl, hall⟩
  | false =>
      cases hs with
      | stops => exact ⟨h.tasks, .inl rfl⟩
      | sizeChanged => exact ⟨h.tasks, .inl rfl⟩
      | stopsCluster size pos c nc cl hst hsize hc hnc hcl =>
          exact ⟨h.tasks, .inr ⟨c, _, nc, cl, by simp, hnc, hcl, rfl⟩⟩
      | stopReturns => exact ⟨h.tasks, .inl rfl⟩
      | clusterStopped size pos c run nc cl hst hnc hcl =>
          exact ⟨h.tasks, .inr ⟨c, _, nc, cl, by simp, hnc, hcl, rfl⟩⟩
      | clusterStopRaised size pos c run nc cl hst hnc hcl =>
          exact ⟨h.tasks, .inr ⟨c, _, nc, cl, by simp, hnc, hcl, rfl⟩⟩
      | arrives _ kind name ha => simp [besideServiceStop_of_arrival ha] at hstop
      | _ => cases hstop

/-- Requests stay over, and no node comes alive. -/
theorem RequestsOver.step (h : RequestsOver s) (hdead : NoLive s)
    (hnew : ∀ name q, a ≠ .requestNodes name q) (hs : Step digest s a s') :
    RequestsOver s' ∧ NoLive s' := by
  obtain ⟨htasks, hall | ⟨c, b, nc, cl, hb, hnc, hcl, hall⟩⟩ := h.change hnew hs
  · refine ⟨⟨htasks, ?_⟩, ?_⟩
    · rw [hall]
      exact h.calls
    · intro d mc hmc
      rw [hall] at hmc
      exact hdead d mc hmc
  · refine ⟨h.moved hnc hcl hb.1 hb.2 hall htasks, fun d mc hmc => ?_⟩
    rw [hall] at hmc
    rcases Objects.set_cases hmc with ⟨-, rfl, -⟩ | ⟨-, hold⟩
    · exact (hdead c nc hnc).step (h.calls c nc hnc) (Cluster.step_cases hcl)
    · exact hdead d mc hold

/-! ### What the decision sees -/

/-- A state before the call of `stop()` has seen no step of it. -/
theorem Step.before_stop (hs : Step digest s a s') (h : s'.stopping = .notCalled) :
    s.stopping = .notCalled ∧ besideServiceStop s a = true := by
  cases hs with
  | arrives _ kind name ha => exact ⟨h, besideServiceStop_of_arrival ha⟩
  | stops => cases h
  | sizeChanged => cases h
  | stopsCluster size pos c nc cl =>
      have h : (if nc.cluster.state.live then StopStatus.awaiting size (pos + 1) c
        nc.cluster.stops.length else .iterating size (pos + 1)) = .notCalled := h
      split at h <;> cases h
  | stopReturns => cases h
  | clusterStopped => cases h
  | clusterStopRaised => cases h
  | _ => exact ⟨h, rfl⟩

/-- Before `stop()` is called, every step of the run kept the registry. -/
theorem keepsRegistry_of_reach
    (h : Reach Initial (step digest) (fun s a => restartsAtRest s a && registersInTime s a) s)
    (hstop : s.stopping = .notCalled) :
    Reach Initial (step digest) (fun s a => keepsRegistry s a) s := by
  induction h with
  | start hinit => exact .start hinit
  | next before hok hstep ih =>
      obtain ⟨hstop, hbeside⟩ := (step_cases hstep).before_stop hstop
      obtain ⟨hrest, hintime⟩ := Bool.and_eq_true_iff.mp hok
      exact .next (ih hstop) (keepsRegistry_iff.mpr ⟨hbeside, hrest, hintime⟩) hstep

/-- **The decision is right**: if the registry finds every live node and
`is_any_node_running()` says no, then no node is live. -/
theorem noLive_of_none_running (hfound : LiveNodesFound s) (h : s.isAnyNodeRunning = false) :
    NoLive s := by
  intro c nc hnc n v hv
  by_contra hlive
  have hlive : nc.cluster.isLive n = true := by simpa [Cluster.isLive, hv] using hlive
  obtain ⟨hget, hmem⟩ := hfound c nc n hnc hlive
  have hnode : n ∈ nc.cluster.getNonTerminatedNodes := List.mem_filter.mpr ⟨hmem, hlive⟩
  have hnone := List.any_eq_false.mp h c (Dict.mem_values_of_get hget)
  rw [hnc] at hnone
  have hempty : nc.cluster.getNonTerminatedNodes = [] := by simpa using hnone
  rw [hempty] at hnode
  cases hnode

end RayService

namespace Server

open Runs

variable {digest : NodeConfigData → String} {s s' : Server} {a : Act}

/-! ### The condition -/

/-- No request for nodes is between its entry check and its nodes. -/
def noRequestInFlight (s : Server) : Bool :=
  (s.reading.all fun h => !h.isRequest) && s.service.requestsOver

/-- An enabled shutdown with a delay finds running nodes, or no request in flight. -/
def answersAlone (s : Server) : Act → Bool
  | .shutdown r =>
      !(r.ignoreSelfShutdown || s.selfShutdown) || r.shutdownDelay.isNone ||
        s.service.isAnyNodeRunning || s.noRequestInFlight
  | _ => true

/-- The registry of clusters finds every live node. -/
def keepsFinding (s : Server) : Act → Bool
  | .service a => s.service.restartsAtRest a && s.service.registersInTime a
  | _ => true

/-- **The condition** on the state before a step. -/
def shutsDownSafely (s : Server) (a : Act) : Bool := answersAlone s a && keepsFinding s a

/-! ### The claimed property -/

/-- Once a shutdown was answered `WILL_SHUTDOWN`, no node of any cluster is pending
or running. -/
def UnforcedShutdownSafe (s : Server) : Prop :=
  .willShutdown ∈ s.answers → ∀ (c : Nat) (nc : NamedCluster), s.service.allClusters[c]? = some nc →
    ∀ v ∈ nc.cluster.allNodes, v.state.live = false

/-! ### What a step can do -/

/-- The effects of the steps. -/
inductive Step (digest : NodeConfigData → String) (s : Server) : Act → Server → Prop
  | rejects (a : Act) (hflag : s.shuttingDown = true) : Step digest s a s
  | enters (a : Act) (k : Handler) (hflag : s.shuttingDown = false) :
      Step digest s a { s with reading := s.reading ++ [k] }
  | reads (i : Nat) (k : Handler) (service : RayService) (hk : s.reading[i]? = some k)
      (hservice : s.service.step digest k.call = some service) :
      Step digest s (.read i) { s with service := service, reading := s.reading.eraseIdx i }
  | aborts (i : Nat) : Step digest s (.abort i) { s with reading := s.reading.eraseIdx i }
  | fails (r : ShutdownRequestData) : Step digest s (.shutdown r) s
  | declines (r : ShutdownRequestData) (state : ShutdownState) (hstate : state ≠ .willShutdown) :
      Step digest s (.shutdown r) { s with answers := s.answers ++ [state] }
  | forces (r : ShutdownRequestData) :
      Step digest s (.shutdown r)
        { s with shuttingDown := true, answers := s.answers ++ [.forcedShutdown] }
  | accepts (r : ShutdownRequestData) (hserves : s.service.stopping = .notCalled)
      (henabled : (r.ignoreSelfShutdown || s.selfShutdown) = true)
      (hdelay : r.shutdownDelay.isNone = false) (hnone : s.service.isAnyNodeRunning = false) :
      Step digest s (.shutdown r)
        { s with shuttingDown := true, answers := s.answers ++ [.willShutdown] }
  | service (b : RayService.Act) (service : RayService) (hb : internal b = true)
      (hservice : s.service.step digest b = some service) :
      Step digest s (.service b) { s with service := service }

theorem enter_cases (a : Act) (k : Handler) : Step digest s a (enter k s) := by
  unfold enter rejectIfShuttingDown
  split
  · exact .rejects a ‹_›
  · rename_i hflag
    exact .enters a k (Bool.eq_false_iff.mpr hflag)

theorem shutdown_cases (r : ShutdownRequestData) (hserves : s.service.stopping = .notCalled) :
    Step digest s (.shutdown r) (s.shutdown r) := by
  unfold shutdown shutdownState
  cases henabled : (r.ignoreSelfShutdown || s.selfShutdown) with
  | false => exact .declines r .notEnabled (by simp)
  | true =>
      cases hrunning : s.service.isAnyNodeRunning with
      | true =>
          cases hforce : r.forceShutdown with
          | true =>
              cases hdelay : r.shutdownDelay with
              | none => exact .fails r
              | some delay => exact .forces r
          | false => exact .declines r .clusterNotEmpty (by simp)
      | false =>
          cases hdelay : r.shutdownDelay with
          | none => exact .fails r
          | some delay => exact .accepts r hserves henabled (by simp [hdelay]) hrunning

/-- **The list of effects is complete.** -/
theorem step_cases (h : step digest s a = some s') : Step digest s a s' := by
  cases a with
  | requestNodes name q =>
      obtain ⟨-, h⟩ := Option.ite_none_right_eq_some.mp h
      cases h
      exact enter_cases _ _
  | terminateNode name nodeId =>
      obtain ⟨-, h⟩ := Option.ite_none_right_eq_some.mp h
      cases h
      exact enter_cases _ _
  | read i =>
      obtain ⟨-, h⟩ := Option.ite_none_right_eq_some.mp h
      unfold read at h
      split at h
      · rename_i k hk
        obtain ⟨service, hservice, rfl⟩ := Option.map_eq_some_iff.mp h
        exact .reads i k service hk hservice
      · cases h
  | abort i =>
      obtain ⟨-, h⟩ := Option.ite_none_right_eq_some.mp h
      cases h
      exact .aborts i
  | shutdown r =>
      obtain ⟨hserves, h⟩ := Option.ite_none_right_eq_some.mp h
      cases h
      exact shutdown_cases r (by simpa [serves] using hserves)
  | service b =>
      obtain ⟨hb, h⟩ := Option.ite_none_right_eq_some.mp h
      obtain ⟨service, hservice, rfl⟩ := Option.map_eq_some_iff.mp h
      exact .service b service hb hservice

/-- **The service under the server is a service**, whose run meets its own part of
the condition. -/
theorem Reach.service (h : Reach Initial (step digest) (fun s a => shutsDownSafely s a) s) :
    Reach RayService.Initial (RayService.step digest)
      (fun s a => RayService.restartsAtRest s a && RayService.registersInTime s a) s.service := by
  refine Reach.project (f := Server.service) ?_ (fun s a s' hok hstep => ?_) h
  · rintro s ⟨b, rfl⟩
    rfl
  · obtain ⟨-, hfinding⟩ := Bool.and_eq_true_iff.mp hok
    cases step_cases hstep with
    | reads i k service hk hservice => exact .inr ⟨k.call, by cases k <;> rfl, hservice⟩
    | service b service hb hservice => exact .inr ⟨b, hfinding, hservice⟩
    | _ => exact .inl rfl

/-! ### The invariant -/

/-- Once a shutdown was answered `WILL_SHUTDOWN`, nothing gets alive any more. -/
structure Closing (s : Server) : Prop where
  flag : s.shuttingDown = true
  reading : ∀ (name : String) (q : Request), .requestNodes name q ∉ s.reading
  requests : s.service.RequestsOver
  dead : s.service.NoLive

/-- **One step under the condition** keeps a closing server closing, and makes a
server closing that gives the answer. -/
theorem Closing.step
    (hreach : Reach Initial (step digest) (fun s a => shutsDownSafely s a) s)
    (h : .willShutdown ∈ s.answers → Closing s) (hok : shutsDownSafely s a = true)
    (hs : Step digest s a s') : .willShutdown ∈ s'.answers → Closing s' := by
  cases hs with
  | rejects => exact h
  | fails => exact h
  | enters a k hflag =>
      intro hanswer
      rw [(h hanswer).flag] at hflag
      cases hflag
  | reads i k service hk hservice =>
      intro hanswer
      obtain ⟨hflag, hreading, hover, hdead⟩ := h hanswer
      have hnew : ∀ name q, k.call ≠ .requestNodes name q := by
        intro name q hcall
        cases k with
        | requestNodes name q => exact hreading name q (List.mem_of_getElem? hk)
        | terminateNode name nodeId => cases hcall
      obtain ⟨hover', hdead'⟩ := hover.step hdead hnew (RayService.step_cases hservice)
      exact ⟨hflag, fun name q hmem => hreading name q (List.mem_of_mem_eraseIdx hmem), hover',
        hdead'⟩
  | aborts i =>
      intro hanswer
      obtain ⟨hflag, hreading, hover, hdead⟩ := h hanswer
      exact ⟨hflag, fun name q hmem => hreading name q (List.mem_of_mem_eraseIdx hmem), hover,
        hdead⟩
  | declines r state hstate =>
      intro hanswer
      have hbefore : .willShutdown ∈ s.answers := by
        rcases List.mem_append.mp hanswer with hold | hnew
        · exact hold
        · exact absurd (List.mem_singleton.mp hnew).symm hstate
      obtain ⟨hflag, hreading, hover, hdead⟩ := h hbefore
      exact ⟨hflag, hreading, hover, hdead⟩
  | forces r =>
      intro hanswer
      have hbefore : .willShutdown ∈ s.answers := by
        rcases List.mem_append.mp hanswer with hold | hnew
        · exact hold
        · simp at hnew
      obtain ⟨-, hreading, hover, hdead⟩ := h hbefore
      exact ⟨rfl, hreading, hover, hdead⟩
  | accepts r hserves henabled hdelay hnone =>
      intro _
      have halone : s.noRequestInFlight = true := by
        simpa [answersAlone, henabled, hdelay, hnone] using (Bool.and_eq_true_iff.mp hok).1
      obtain ⟨hreading, hover⟩ := Bool.and_eq_true_iff.mp halone
      have hservice := Reach.service hreach
      have hkeeps := RayService.keepsRegistry_of_reach hservice hserves
      have hcovered := RayService.live_nodes_covered
        (hservice.mono fun s a hok => (Bool.and_eq_true_iff.mp hok).2)
      have hfound := (RayService.registry_of_reach hkeeps).2.liveNodesFound hcovered
      refine ⟨rfl, fun name q hmem => ?_, RayService.requestsOver_of hover,
        RayService.noLive_of_none_running hfound hnone⟩
      simpa [Handler.isRequest] using List.all_eq_true.mp hreading _ hmem
  | service b service hb hservice =>
      intro hanswer
      obtain ⟨hflag, hreading, hover, hdead⟩ := h hanswer
      have hnew : ∀ name q, b ≠ .requestNodes name q := by
        rintro name q rfl
        cases hb
      obtain ⟨hover', hdead'⟩ := hover.step hdead hnew (RayService.step_cases hservice)
      exact ⟨hflag, hreading, hover', hdead'⟩

/-- **An unforced shutdown takes no live node with it** in a run whose steps all meet
the condition. -/
theorem unforced_shutdown_safe
    (h : Reach Initial (step digest) (fun s a => shutsDownSafely s a) s) :
    UnforcedShutdownSafe s := by
  have hclosing : .willShutdown ∈ s.answers → Closing s := by
    induction h with
    | start hinit =>
        obtain ⟨b, rfl⟩ := hinit
        simp
    | next before hok hstep ih => exact Closing.step before ih hok (step_cases hstep)
  intro hanswer c nc hnc v hv
  obtain ⟨n, hn⟩ := List.mem_iff_getElem?.mp hv
  exact (hclosing hanswer).dead c nc hnc n v hn

/-! ### Two runs -/

/-- A handler accepts a request for one worker and calls the service. -/
def acceptRequest : List Act :=
  [.requestNodes "cluster" ⟨Cluster.publicConfig, 1, false⟩, .read 0]

/-- The shutdown that the command line sends. -/
def requestShutdown : Act := .shutdown { ignoreSelfShutdown := true, shutdownDelay := some 0 }

/-- The node of the only request runs and is terminated, its cluster stops with it,
and after the answer the cleanup runs. -/
def drained : List Act :=
  acceptRequest ++ RayService.firstRequest.tail.map .service ++
    ((Cluster.stopLastNode 0 0 1).map (.cluster 0)).map .service ++
    [.service (.onClusterStop 0), .service (.task 1 .run), requestShutdown, .service .stop,
      .service .stopNext, .service .stopNext]

theorem unforced_shutdown_safe_drained :
    ∃ s, exec (guarded (step Cluster.exampleDigest) shutsDownSafely) drained
        { selfShutdown := false } = some s ∧
      s.answers = [.willShutdown] ∧ s.service.stopping = .returned ∧ UnforcedShutdownSafe s := by
  refine ⟨_, rfl, rfl, rfl, ?_⟩
  have hreach : Reach Initial (step Cluster.exampleDigest) (fun s a => shutsDownSafely s a) _ :=
    Reach.execGuarded drained (.start ⟨false, rfl⟩) rfl
  exact unforced_shutdown_safe hreach

/-- A request awaits `ManagerStack.create` when the shutdown is answered. -/
def answeredTooEarly : List Act :=
  let prepare : List Cluster.Act := [.call 0 .prepare, .call 0 .lookup]
  acceptRequest ++ [.service (.task 0 .run), .service (.task 0 .startDone)] ++
    (prepare.map (.cluster 0)).map .service ++ [requestShutdown] ++
    ((Cluster.requestAfterCreate 0 1).map (.cluster 0)).map .service

/-- **A node is created after the answer.** -/
theorem node_created_after_answer :
    ¬ ∀ s, Reachable Initial (step Cluster.exampleDigest) s → UnforcedShutdownSafe s := by
  intro hall
  have hrun : ∃ s nc v,
      exec (step Cluster.exampleDigest) answeredTooEarly { selfShutdown := false } = some s ∧
      s.answers = [.willShutdown] ∧ s.service.allClusters[0]? = some nc ∧
      nc.cluster.allNodes[0]? = some v ∧ v.state = .pending :=
    ⟨_, _, _, rfl, rfl, rfl, rfl, rfl⟩
  obtain ⟨s, nc, v, hs, hanswers, hnc, hv, hpending⟩ := hrun
  have hreach : Reachable Initial (step Cluster.exampleDigest) s :=
    Reach.exec answeredTooEarly (.start ⟨false, rfl⟩) hs
  have hdead := hall s hreach (by simp [hanswers]) 0 nc hnc v (List.mem_of_getElem? hv)
  rw [hpending] at hdead
  cases hdead

end Server
