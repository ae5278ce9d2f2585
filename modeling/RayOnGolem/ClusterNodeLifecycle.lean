import RayOnGolem.ClusterNodeView

/-!
# The lifecycle of a node

`start()` and `stop()` run as different tasks and write the same attributes.  A stop
waits until the start task is over before it goes on, so no write of a cancelled
start lands after it: the state only moves forward, and the address, the proxy
command and the activity are set exactly while the node runs.

The sidecars are less safe.  `gather` raises with the first child that raises and
lets the others go on; the start task is then over although the creation of a tunnel
is still in progress.  A stop at that moment finds the tunnel not running, leaves it
alone and completes, and the process of the tunnel is there afterwards.

Main results:

* `data_coherent` -- the attributes fit the state in every run;
* `lifecycle` -- in every run in which no sidecar's `stop()` finds its `start()` in
  progress, nothing runs once the node is stopped;
* `tunnel_survives_stop` -- the condition cannot be dropped.
-/

/-- The moves of a node's state. -/
inductive NodeState.Forward : NodeState → NodeState → Prop
  | stays (st : NodeState) : Forward st st
  | runs : Forward .pending .running
  | fails : Forward .pending .terminated
  | stops {st : NodeState} (hlive : st.live = true) : Forward st .terminating
  | stopped : Forward .terminating .terminated

/-- The node has its sidecars behind itself and comes to the activity. -/
def StopPc.past : StopPc → Bool
  | .activityDesc _ _ | .activityDestroy _ _ => true
  | .idle | .cancelling _ | .sidecars _ => false

namespace Sidecar

variable {c c' : Sidecar} {b : ClusterNode.SidecarAct}

/-- The sidecar does not run, and no task is about to change that. -/
def AtRest (c : Sidecar) : Prop :=
  c.isRunning = false ∧ c.starting = .none ∧ c.stopping = .none

/-- The sidecar while the node stops its sidecars: what its `stop()` did already. -/
def HalfStopped (c : Sidecar) : Prop :=
  c.stopping ≠ .scheduled → c.starting = .none ∧ (c.stopping = .none → c.isRunning = false)

theorem AtRest.no_step (h : c.AtRest) : ¬ c.Step b c' := by
  obtain ⟨hrunning, hstarting, hstopping⟩ := h
  intro hmove
  cases hmove <;> simp_all

theorem HalfStopped.atRest (h : c.HalfStopped) (hstopping : c.stopping = .none) : c.AtRest := by
  obtain ⟨hstarting, hrunning⟩ := h (by simp [hstopping])
  exact ⟨hrunning hstopping, hstarting, hstopping⟩

/-- A sidecar's step while the node stops its sidecars; its `stop()` must not find the
`start()` in progress, and one that raises ends the stop of the node. -/
theorem HalfStopped.step (h : c.HalfStopped) (hmove : c.Step b c')
    (hok : b = .stop → c.starting = .none) (hraised : b ≠ .stopRaised) : c'.HalfStopped := by
  intro hne
  cases hmove with
  | starts hscheduled =>
      have hsame : c.start.stopping = c.stopping := by
        unfold Sidecar.start
        split
        · rfl
        · split <;> rfl
      rw [hsame] at hne
      exact absurd (h hne).1 (by simp [hscheduled])
  | spawned hwaiting => exact absurd (h hne).1 (by simp [hwaiting])
  | startRaised hwaiting => exact absurd (h hne).1 (by simp [hwaiting])
  | stops hscheduled =>
      refine ⟨hok rfl, fun hnone => ?_⟩
      show c.isRunning = false
      by_contra hrunning
      simp [Sidecar.stop, hrunning] at hnone
  | stopped hwaiting => exact ⟨(h (by simp [hwaiting])).1, fun _ => rfl⟩
  | stopRaised hwaiting => exact absurd rfl hraised
  | exited hrunning => exact ⟨(h hne).1, fun _ => rfl⟩

end Sidecar

namespace ClusterNode

open Runs

variable {n n' : ClusterNode} {a : Act}

/-! ### The state and the attributes -/

/-- The address, the proxy command and the activity are set while the node runs, and
only then; a stop in progress may find them either way. -/
def DataCoherent (n : ClusterNode) : Prop :=
  match n.state with
  | .running => n.internalIp ≠ none ∧ n.sshProxyCommand ≠ none ∧ n.activity ≠ none
  | .pending | .terminated => n.internalIp = none ∧ n.sshProxyCommand = none ∧ n.activity = none
  | .terminating => True

instance (n : ClusterNode) : Decidable n.DataCoherent := by
  unfold DataCoherent
  split <;> infer_instance

/-- Each of the five operations moves the state of a node forward. -/
theorem view_forward {v v' : NodeView} {b : NodeView.Act}
    (hstopping : v.stopping ≠ none → v.state = .terminating) (hb : v.step b = some v') :
    NodeState.Forward v.state v'.state := by
  cases b with
  | ready =>
      obtain ⟨hpending, hb⟩ := Option.ite_none_right_eq_some.mp hb
      cases hb
      rw [hpending]
      exact .runs
  | startFailed =>
      obtain ⟨hpending, hb⟩ := Option.ite_none_right_eq_some.mp hb
      cases hb
      rw [hpending]
      exact .fails
  | stop ce =>
      cases hb
      unfold NodeView.stop
      split
      · rename_i hlive
        exact .stops hlive
      · exact .stays _
  | stopped =>
      simp only [NodeView.step, NodeView.stopped] at hb
      split at hb
      · rename_i ce hce
        cases hb
        rw [hstopping (by simp [hce])]
        exact .stopped
      · cases hb
  | stopRaised =>
      simp only [NodeView.step, NodeView.stopRaised] at hb
      split at hb
      · cases hb
        exact .stays _
      · cases hb

theorem stopPc_ne_idle (h : n.stopPc.callEvents ≠ none) : n.stopPc ≠ .idle := by
  intro hidle
  rw [hidle] at h
  exact h rfl

/-- **Every step of a node moves its state forward.** -/
theorem Coherent.forward (h : Coherent n) (hok : scheduledInTime n a = true)
    (hs : n.step a = some n') : NodeState.Forward n.state n'.state := by
  -- any view of the node will do, as the move is only about its state
  rcases (h.step (v := default) hok hs).2 with ⟨hsame, -⟩ | ⟨b, hb, -⟩
  · have hstate : n'.state = n.state := congrArg NodeView.state hsame
    rw [hstate]
    exact .stays _
  · exact view_forward (fun hne => h.stopping (stopPc_ne_idle hne)) hb

/-- The state and the attributes stay as they are. -/
theorem DataCoherent.keep (h : DataCoherent n) (hstate : n'.state = n.state)
    (hip : n'.internalIp = n.internalIp) (hproxy : n'.sshProxyCommand = n.sshProxyCommand)
    (hactivity : n'.activity = n.activity) : DataCoherent n' := by
  unfold DataCoherent
  rw [hstate, hip, hproxy, hactivity]
  exact h

/-- While a stop is in progress nothing is said of the attributes. -/
theorem dataCoherent_terminating (hstate : n.state = .terminating) : DataCoherent n := by
  unfold DataCoherent
  rw [hstate]
  trivial

theorem dataCoherent_initial (h : Initial n) : DataCoherent n := by
  obtain ⟨g, p, kinds, rfl⟩ := h
  exact ⟨rfl, rfl, rfl⟩

/-- The handlers of the loop in `start()` leave the attributes unset. -/
theorem DataCoherent.createFailed (h : DataCoherent n) (hstate : n.state = .pending) (e : Exc) :
    DataCoherent (n.createFailed e) := by
  unfold ClusterNode.createFailed
  split
  · exact h.keep rfl rfl rfl rfl
  · unfold DataCoherent at h ⊢
    rw [hstate] at h
    exact h

/-- A step leaves attributes that fit the new state. -/
theorem DataCoherent.step (h : DataCoherent n) (hc : Coherent n)
    (hs : n.step a = some n') : DataCoherent n' := by
  cases step_cases hs with
  | scheduleSkips => exact h
  | schedules => exact h.keep rfl rfl rfl rfl
  | stopSkips => exact h
  | stopsAtOnce => exact dataCoherent_terminating rfl
  | stopCancels => exact dataCoherent_terminating rfl
  | startSkips => exact h.keep rfl rfl rfl rfl
  | begins hgoing hpc =>
      obtain ⟨-, hstate⟩ := hc.pending hgoing (by rw [hpc]; rfl)
      exact h.keep hstate.symm rfl rfl rfl
  | goesOn => exact h.keep rfl rfl rfl rfl
  | created => exact h.keep rfl rfl rfl rfl
  | ready => exact ⟨Option.some_ne_none _, Option.some_ne_none _, Option.some_ne_none _⟩
  | destroys => exact h.keep rfl rfl rfl rfl
  | fails b e hgoing hcreating =>
      exact h.createFailed (hc.pending hgoing (early_of_creating hcreating)).2 e
  | startReturns => exact h.keep rfl rfl rfl rfl
  | sidecar => exact h.keep rfl rfl rfl rfl
  | sidecarStartFails => exact h.keep rfl rfl rfl rfl
  | sidecarStopFails => exact h.keep rfl rfl rfl rfl
  | cancelled => exact h.keep rfl rfl rfl rfl
  | resumes ce hpc => exact dataCoherent_terminating (hc.stopping (by simp [hpc]))
  | describes => exact h.keep rfl rfl rfl rfl
  | stopsWithout => exact ⟨rfl, rfl, rfl⟩
  | stopDestroys => exact h.keep rfl rfl rfl rfl
  | descRaised => exact h.keep rfl rfl rfl rfl
  | stopReturns => exact ⟨rfl, rfl, rfl⟩

/-- **The attributes fit the state** in every run in which the start is not scheduled
for a terminated node. -/
theorem data_coherent (h : Reach Initial step (fun n a => scheduledInTime n a) n) :
    Coherent n ∧ DataCoherent n := by
  apply Reach.invariant (I := fun n => Coherent n ∧ DataCoherent n) ?_ ?_ h
  · intro n hinit
    exact ⟨coherent_initial hinit, dataCoherent_initial hinit⟩
  · intro n a n' ⟨hc, hd⟩ hok hs
    exact ⟨(hc.step (v := default) hok hs).1, hd.step hc hs⟩

/-! ### The sidecars -/

/-- What the sidecars may be doing in a state of the node. -/
structure SidecarsQuiet (n : ClusterNode) : Prop where
  rest : n.state = .pending ∨ n.state = .terminated ∨ n.stopPc.past = true →
    ∀ c ∈ n.sidecars, c.AtRest
  half : ∀ ce, n.stopPc = .sidecars ce → ∀ c ∈ n.sidecars, c.HalfStopped

/-- No monitor and no tunnel runs. -/
def NothingRuns (n : ClusterNode) : Prop := ∀ c ∈ n.sidecars, c.isRunning = false

instance (n : ClusterNode) : Decidable n.NothingRuns :=
  inferInstanceAs (Decidable (∀ c ∈ n.sidecars, c.isRunning = false))

theorem sidecarsQuiet_initial (h : Initial n) : SidecarsQuiet n := by
  obtain ⟨g, p, kinds, rfl⟩ := h
  refine ⟨fun _ c hc => ?_, fun ce hpc => (by cases hpc)⟩
  obtain ⟨k, -, rfl⟩ := List.mem_map.mp hc
  exact ⟨rfl, rfl, rfl⟩

/-- The sidecars, the state and the stop stay as they are. -/
theorem SidecarsQuiet.keep (h : SidecarsQuiet n) (hstate : n'.state = n.state)
    (hstop : n'.stopPc = n.stopPc) (hsidecars : n'.sidecars = n.sidecars) :
    SidecarsQuiet n' := by
  constructor
  · rw [hstate, hstop, hsidecars]
    exact h.rest
  · rw [hstop, hsidecars]
    exact h.half

/-- Outside the listed states nothing is said of the sidecars. -/
theorem sidecarsQuiet_free (hpending : n.state ≠ .pending) (hterminated : n.state ≠ .terminated)
    (hpast : n.stopPc.past = false) (hhalf : ∀ ce, n.stopPc ≠ .sidecars ce) :
    SidecarsQuiet n := by
  refine ⟨fun hstate => ?_, fun ce hpc => absurd hpc (hhalf ce)⟩
  rcases hstate with hst | hst | hst
  · exact absurd hst hpending
  · exact absurd hst hterminated
  · rw [hpast] at hst
    cases hst

/-- The sidecars rest whatever the state is. -/
theorem sidecarsQuiet_rest (h : ∀ c ∈ n.sidecars, c.AtRest) : SidecarsQuiet n := by
  refine ⟨fun _ => h, fun ce _ c hc hne => ?_⟩
  obtain ⟨hrunning, hstarting, hstopping⟩ := h c hc
  exact ⟨hstarting, fun _ => hrunning⟩

/-- `_stop_sidecars()` makes a child task for every sidecar. -/
theorem sidecarsQuiet_stopSidecars (ce : Bool) (hstate : n.state = .terminating) :
    SidecarsQuiet (n.stopSidecars ce) := by
  refine ⟨fun hst => ?_, fun ce' _ c hc hne => ?_⟩
  · simp [stopSidecars, hstate, StopPc.past] at hst
  · obtain ⟨c₀, -, rfl⟩ := List.mem_map.mp hc
    exact absurd rfl hne

/-- **The condition**: a sidecar's `stop()` does not find its `start()` in progress. -/
def stopFindsStarted (n : ClusterNode) : Act → Bool
  | .sidecar i .stop => (n.sidecars[i]?).all fun c => c.starting = .none
  | _ => true

/-- One sidecar makes a step that the node does not see. -/
theorem SidecarsQuiet.sidecar (h : SidecarsQuiet n) {i : Nat} {b : SidecarAct} {c c' : Sidecar}
    (hok : stopFindsStarted n (.sidecar i b) = true) (hc : n.sidecars[i]? = some c)
    (hmove : c.Step b c') (hraised : b = .stopRaised → ∀ ce, n.stopPc ≠ .sidecars ce) :
    SidecarsQuiet (n.setSidecar i c') := by
  have hmem : c ∈ n.sidecars := List.mem_of_getElem? hc
  refine ⟨fun hst => ?_, fun ce hpc d hd => ?_⟩
  · exact absurd hmove (h.rest hst c hmem).no_step
  · have hpc : n.stopPc = .sidecars ce := hpc
    rcases List.mem_or_eq_of_mem_set hd with hd | rfl
    · exact h.half ce hpc d hd
    · refine (h.half ce hpc c hmem).step hmove (fun hstop => ?_) fun hr => hraised hr ce hpc
      subst hstop
      simpa [stopFindsStarted, hc] using hok

/-- `_create_activity()` raised: the sidecars were never started. -/
theorem SidecarsQuiet.createFailed (h : SidecarsQuiet n) (hstate : n.state = .pending) (e : Exc) :
    SidecarsQuiet (n.createFailed e) := by
  have hrest := h.rest (.inl hstate)
  unfold ClusterNode.createFailed
  split
  · exact sidecarsQuiet_rest hrest
  · exact sidecarsQuiet_rest hrest

/-- **A step that meets the condition keeps the sidecars quiet.** -/
theorem SidecarsQuiet.step (h : SidecarsQuiet n) (hc : Coherent n)
    (hok : stopFindsStarted n a = true) (hs : n.step a = some n') : SidecarsQuiet n' := by
  cases step_cases hs with
  | scheduleSkips => exact h
  | schedules => exact h.keep rfl rfl rfl
  | stopSkips => exact h
  | stopsAtOnce ce => exact sidecarsQuiet_stopSidecars ce rfl
  | stopCancels ce =>
      exact sidecarsQuiet_free (by simp) (by simp) rfl fun ce hpc => (by cases hpc)
  | startSkips => exact h.keep rfl rfl rfl
  | begins hgoing hpc =>
      obtain ⟨-, hstate⟩ := hc.pending hgoing (by rw [hpc]; rfl)
      exact h.keep hstate.symm rfl rfl
  | goesOn => exact h.keep rfl rfl rfl
  | created => exact h.keep rfl rfl rfl
  | ready i ip step hgoing hpc =>
      obtain ⟨hidle, -⟩ := hc.pending hgoing (by rw [hpc]; rfl)
      refine sidecarsQuiet_free (by simp [activityReady]) (by simp [activityReady]) ?_ ?_
      · simp [activityReady, hidle, StopPc.past]
      · simp [activityReady, hidle]
  | destroys => exact h.keep rfl rfl rfl
  | fails b e hgoing hcreating =>
      exact h.createFailed (hc.pending hgoing (early_of_creating hcreating)).2 e
  | startReturns => exact h.keep rfl rfl rfl
  | sidecar i b c c' hci hmove hstart hstop => exact h.sidecar hok hci hmove hstop
  | sidecarStartFails i c hci hwaiting hpc =>
      have hquiet := h.sidecar hok hci (.startRaised hwaiting) (by simp)
      exact hquiet.keep rfl rfl rfl
  | sidecarStopFails i c ce hci hwaiting hpc =>
      have hstate : n.state = .terminating := hc.stopping (by simp [hpc])
      refine sidecarsQuiet_free ?_ ?_ rfl fun ce hpc => (by cases hpc)
      · simp [setSidecar, hstate]
      · simp [setSidecar, hstate]
  | cancelled ce cs hpc =>
      have hstate : n.state = .terminating := hc.stopping (by simp [hpc])
      exact sidecarsQuiet_free (by simp [hstate]) (by simp [hstate]) (by simp [hpc, StopPc.past])
        (by simp [hpc])
  | resumes ce hpc => exact sidecarsQuiet_stopSidecars ce (hc.stopping (by simp [hpc]))
  | describes ce i hpc hall =>
      exact sidecarsQuiet_rest fun c hmem => (h.half ce hpc c hmem).atRest (hall c hmem)
  | stopsWithout ce hpc hall =>
      exact sidecarsQuiet_rest fun c hmem => (h.half ce hpc c hmem).atRest (hall c hmem)
  | stopDestroys ce i hpc => exact sidecarsQuiet_rest (h.rest (by simp [hpc, StopPc.past]))
  | descRaised ce i e hpc =>
      have hstate : n.state = .terminating := hc.stopping (by simp [hpc])
      exact sidecarsQuiet_free (by simp [hstate]) (by simp [hstate]) rfl
        fun ce hpc => (by cases hpc)
  | stopReturns ce i hpc => exact sidecarsQuiet_rest (h.rest (by simp [hpc, StopPc.past]))

/-! ### Runs -/

/-- What a node's lifecycle promises in one state: the attributes fit it, every step
moves the state forward, and nothing runs once a stop completed. -/
structure Lifecycle (n : ClusterNode) : Prop where
  data : DataCoherent n
  forward : ∀ a n', scheduledInTime n a = true → n.step a = some n' →
    NodeState.Forward n.state n'.state
  stopped : n.state = .terminated → NothingRuns n

/-- **The lifecycle of a node** in every run in which the start is not scheduled for a
terminated node and no sidecar's `stop()` finds its `start()` in progress, whatever the
outcomes of the external operations and the moments of the stops.  A stop that
completes leaves the node terminated, and no step leads out of that. -/
theorem lifecycle
    (h : Reach Initial step (fun n a => scheduledInTime n a && stopFindsStarted n a) n) :
    Lifecycle n := by
  have hinv : (Coherent n ∧ DataCoherent n) ∧ SidecarsQuiet n := by
    apply Reach.invariant (I := fun n => (Coherent n ∧ DataCoherent n) ∧ SidecarsQuiet n) ?_ ?_ h
    · intro n hinit
      exact ⟨⟨coherent_initial hinit, dataCoherent_initial hinit⟩, sidecarsQuiet_initial hinit⟩
    · intro n a n' ⟨⟨hc, hd⟩, hq⟩ hok hs
      obtain ⟨htime, hfinds⟩ := Bool.and_eq_true_iff.mp hok
      exact ⟨⟨(hc.step (v := default) htime hs).1, hd.step hc hs⟩, hq.step hc hfinds hs⟩
  obtain ⟨⟨hc, hd⟩, hq⟩ := hinv
  refine ⟨hd, fun a n' htime hs => hc.forward htime hs, fun hstate c hmem => ?_⟩
  exact (hq.rest (.inr (.inl hstate)) c hmem).1

/-- A head node that also exposes a port of ray: two monitors and two tunnels. -/
def exampleHead : ClusterNode where
  golemService := ⟨"ws://127.0.0.1:7465/net-api/v2", "net-id", "websocat", "appkey"⟩
  hasPriorityStack := false
  sidecars := [{ kind := .activityStateMonitor }, { kind := .sshStateMonitor },
    { kind := .portTunnel }, { kind := .portTunnel }]

theorem exampleHead_initial : Initial exampleHead :=
  ⟨_, _, [.activityStateMonitor, .sshStateMonitor, .portTunnel, .portTunnel], rfl⟩

/-- The start up to the moment when both tunnels await their processes. -/
def headStarts : List Act :=
  [.scheduleStart, .start .begins, .start (.agreement .ok), .start (.providerDesc .ok),
    .start (.createActivity .ok), .start (.addToNetwork (.ok "192.168.0.2"))] ++
  List.replicate 14 (.start (.setup .ok)) ++
  [.sidecar 0 .start, .sidecar 1 .start, .sidecar 2 .start, .sidecar 3 .start]

/-- The stop of a head whose tunnels run. -/
def headStops : List Act :=
  headStarts ++
  [.sidecar 2 .spawned, .sidecar 3 .spawned, .start .sidecarsStarted, .stop true,
    .sidecar 0 .stop, .sidecar 1 .stop, .sidecar 2 .stop, .sidecar 3 .stop,
    .sidecar 0 .stopped, .sidecar 1 .stopped, .sidecar 2 .stopped, .sidecar 3 .stopped,
    .stopping .sidecarsStopped, .stopping (.activityDesc .ok), .stopping .activityDestroy]

theorem lifecycle_headStops :
    ∃ n, exec (guarded step fun n a => scheduledInTime n a && stopFindsStarted n a) headStops
        exampleHead = some n ∧
      n.state = .terminated ∧ n.sidecars.length = 4 ∧ Lifecycle n := by
  refine ⟨_, rfl, rfl, rfl, ?_⟩
  exact lifecycle (Reach.execGuarded headStops (.start exampleHead_initial) rfl)

/-- The first tunnel cannot be created, which ends the start task; the node is stopped
while the process of the second one is on its way. -/
def tunnelFails : List Act :=
  headStarts ++
  [.sidecar 2 .startRaised, .stop true, .sidecar 0 .stop, .sidecar 1 .stop, .sidecar 2 .stop,
    .sidecar 3 .stop, .sidecar 0 .stopped, .sidecar 1 .stopped, .stopping .sidecarsStopped,
    .stopping (.activityDesc .ok), .stopping .activityDestroy, .sidecar 3 .spawned]

/-- **A tunnel runs on the stopped node.** -/
theorem tunnel_survives_stop :
    ¬ ∀ n : ClusterNode, Reach Initial step (fun n a => scheduledInTime n a) n →
      Lifecycle n := by
  intro hall
  have hrun : ∃ n, exec (guarded step scheduledInTime) tunnelFails exampleHead = some n ∧
      n.state = .terminated ∧ ¬ NothingRuns n := ⟨_, rfl, rfl, by decide⟩
  obtain ⟨n, hn, hstate, hruns⟩ := hrun
  have hlife := hall n (Reach.execGuarded tunnelFails (.start exampleHead_initial) hn)
  exact hruns (hlife.stopped hstate)

end ClusterNode
