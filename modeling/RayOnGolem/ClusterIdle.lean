import RayOnGolem.ClusterStacks

/-!
# Nothing idle is left running

A running cluster, and each of its running stacks, is stopped by somebody who
is still on the way: the stop event of a node, a `Cluster.stop`, a child task of
a node's stop.  Live nodes and requests in flight will raise such an event or
make nodes that do.  `Attended` says that a subject (the cluster or a stack) has
one of these, and the invariant is that whatever runs is attended.

The cleanup is driven by the stop events of nodes only.  Somebody who leaves
without an event (`abandons`) -- a node whose start fails, a request that ends
without a node, a `stop()` that raises -- breaks the invariant exactly when
nobody else attends what it leaves behind.  Main results:

* `nothing_idle` -- in every run in which nobody leaves something behind
  (`leavesNothing`), an idle cluster that is running has a live node, and each
  of its running stacks is used by one;
* `something_idle` -- a node whose start fails leaves an empty cluster running.
-/

namespace Cluster

open Runs

variable {digest : NodeConfigData → String} {s s' : Cluster} {a : Act}

/-- What may be left running: the cluster, or one of its stacks. -/
inductive Subject
  | cluster
  | managerStack (r : Nat)
  deriving DecidableEq, Repr

/-- What the stop event of a node cleans up. -/
def NodeView.subjects (v : NodeView) : List Subject :=
  .cluster :: v.managerStacks.map .managerStack

/-- What a call in flight will leave to its nodes. -/
def Call.subjects (c : Call) : List Subject :=
  if c.stage = .over then []
  else .cluster :: (Call.obtained c ++ (Call.starts c).toList).map .managerStack

/-- The cluster is running, or a `start()` is about to make it so. -/
def mayRun (s : Cluster) : Bool := s.state == .running || s.calls.any fun c => c.stage == .starting

/-- The subject runs.  Stacks count while the cluster is running or about to. -/
def runs (s : Cluster) : Subject → Bool
  | .cluster => s.state == .running
  | .managerStack r => s.mayRun && (s.allStacks[r]?).map ManagerStack.isRunning == some true

/-- Some node has the property. -/
def anyNode (s : Cluster) (p : Nat → NodeView → Bool) : Bool :=
  (List.range s.allNodes.length).any fun n =>
    match s.allNodes[n]? with
    | some v => p n v
    | none => false

/-- The stop event of node `n` is spawned, or its `stop()` will spawn it. -/
def eventAhead (s : Cluster) (n : Nat) (v : NodeView) : Bool :=
  s.events.contains n || v.stopping == some true

/-- Somebody who is still on the way will clean up the subject. -/
def attended (s : Cluster) (x : Subject) : Bool :=
  s.stopInProgress || (s.stackStops.map Subject.managerStack).contains x ||
    s.anyNode (fun n v =>
      s.nodes.values.contains n && v.state.live && (NodeView.subjects v).contains x) ||
    s.calls.any (fun c => (Call.subjects c).contains x) ||
    s.anyNode (fun n v => s.eventAhead n v && (NodeView.subjects v).contains x)

/-- The ways to be attended. -/
inductive Attended (s : Cluster) (x : Subject) : Prop
  | stopping (σ : StopRun) (hσ : σ ∈ s.stops) (hpc : σ.pc ≠ .over)
  | scheduled (r : Nat) (hx : x = .managerStack r) (hr : r ∈ s.stackStops)
  | node (n : Nat) (v : NodeView) (hv : s.allNodes[n]? = some v) (hn : n ∈ s.nodes.values)
      (hlive : v.state.live = true) (hx : x ∈ NodeView.subjects v)
  | call (t : Nat) (c : Call) (hc : s.calls[t]? = some c) (hx : x ∈ Call.subjects c)
  | event (n : Nat) (v : NodeView) (hv : s.allNodes[n]? = some v)
      (hevent : n ∈ s.events ∨ v.stopping = some true) (hx : x ∈ NodeView.subjects v)

theorem anyNode_iff {p : Nat → NodeView → Bool} :
    s.anyNode p = true ↔ ∃ n v, s.allNodes[n]? = some v ∧ p n v = true := by
  simp only [anyNode, List.any_eq_true, List.mem_range]
  constructor
  · rintro ⟨n, -, hp⟩
    split at hp
    · exact ⟨n, _, ‹_›, hp⟩
    · cases hp
  · rintro ⟨n, v, hv, hp⟩
    obtain ⟨hlt, -⟩ := List.getElem?_eq_some_iff.mp hv
    exact ⟨n, hlt, by rw [hv]; exact hp⟩

theorem attended_iff {x : Subject} : s.attended x = true ↔ Attended s x := by
  simp only [attended, Bool.or_eq_true, stopInProgress, List.any_eq_true, bne_iff_ne,
    List.contains_iff_mem, List.mem_map, anyNode_iff, Bool.and_eq_true, eventAhead, beq_iff_eq]
  constructor
  · rintro ((((⟨σ, hσ, hpc⟩ | ⟨r, hr, rfl⟩) | ⟨n, v, hv, ⟨hn, hlive⟩, hx⟩) | ⟨c, hc, hx⟩) |
      ⟨n, v, hv, hevent, hx⟩)
    · exact .stopping σ hσ hpc
    · exact .scheduled r rfl hr
    · exact .node n v hv hn hlive hx
    · obtain ⟨t, ht⟩ := List.mem_iff_getElem?.mp hc
      exact .call t c ht hx
    · exact .event n v hv hevent hx
  · rintro (⟨σ, hσ, hpc⟩ | ⟨r, hx, hr⟩ | ⟨n, v, hv, hn, hlive, hx⟩ | ⟨t, c, hc, hx⟩ |
      ⟨n, v, hv, hevent, hx⟩)
    · exact .inl (.inl (.inl (.inl ⟨σ, hσ, hpc⟩)))
    · exact .inl (.inl (.inl (.inr ⟨r, hr, hx.symm⟩)))
    · exact .inl (.inl (.inr ⟨n, v, hv, ⟨hn, hlive⟩, hx⟩))
    · exact .inl (.inr ⟨c, List.mem_of_getElem? hc, hx⟩)
    · exact .inr ⟨n, v, hv, hevent, hx⟩

/-! ### Who leaves without an event -/

/-- A step with which a request ends without having created a node. -/
def endsEmpty : CallAct → Bool
  | .startRaised | .unwind | .createRaised | .managerStartRaised => true
  | .finishRequest k => k == 0
  | _ => false

/-- Every subject there is. -/
def subjects (s : Cluster) : List Subject :=
  .cluster :: (List.range s.allStacks.length).map .managerStack

/-- The steps with which somebody leaves without an event: the cluster without
him, and what he attended.  The last stop event does so when it finds the cluster
terminating or terminated. -/
def abandons (s : Cluster) : Act → Option (Cluster × List Subject)
  | .node n .startFailed =>
      (s.allNodes[n]?).map fun v =>
        (s.setNode n { v with state := .terminated }, NodeView.subjects v)
  | .node n .stopRaised =>
      (s.allNodes[n]?).map fun v => (s.setNode n { v with stopping := none }, NodeView.subjects v)
  | .call t a =>
      if endsEmpty a then
        (s.calls[t]?).map fun c => (s.setStage t c .over, Call.subjects c)
      else none
  | .stopping i .raised => (s.stops[i]?).map fun σ => (s.setStop i σ .over, s.subjects)
  | .onNodeStop n =>
      match s.allNodes[n]? with
      | some v =>
          if !s.state.live && (s.getNonTerminatedNodes.isEmpty || v.isHead) then
            some ({ s with events := s.events.erase n }, NodeView.subjects v)
          else none
      | none => none
  | _ => none

/-- Whoever leaves without an event leaves nothing that runs unattended. -/
def leavesAttended (s : Cluster) (a : Act) : Bool :=
  match s.abandons a with
  | some (rest, xs) => xs.all fun x => !s.runs x || rest.attended x
  | none => true

/-- `start()` does not revive a cluster whose `stop()` raised and left a running
stack that nobody attends. -/
def revivesAttended (s : Cluster) : Act → Bool
  | .start _ =>
      s.state != .terminating || (List.range s.allStacks.length).all fun r =>
        (s.allStacks[r]?).map ManagerStack.isRunning != some true || s.attended (.managerStack r)
  | _ => true

/-- The service calls `request_nodes()` right after `start()`, and only then. -/
def throughService : Act → Bool
  | .enter _ => false
  | .call _ .leave => false
  | _ => true

/-- **The condition** on the state before a step. -/
def leavesNothing (s : Cluster) (a : Act) : Bool :=
  besideStop registersStack s a && whileRunning registersStack s a && replacesNothing s a &&
    leavesAttended s a && revivesAttended s a && throughService a

/-- No task of the cluster is pending. -/
structure Quiet (s : Cluster) : Prop where
  calls : ∀ c ∈ s.calls, c.stage = .over
  stops : ∀ σ ∈ s.stops, σ.pc = .over
  nodes : ∀ v ∈ s.allNodes, v.state ≠ .pending ∧ v.stopping = none
  events : s.events = []
  stackStops : s.stackStops = []

/-- The claimed property. -/
def NothingIdle (s : Cluster) : Prop :=
  s.state = .running → s.getNonTerminatedNodes ≠ [] ∧
    ∀ (r : Nat) (m : ManagerStack), s.allStacks[r]? = some m → m.isRunning = true →
      ∃ n ∈ s.getNonTerminatedNodes, s.uses n r = true

/-! ### How attendants change -/

/-- Calls, events and everything else an attendant may be are as before. -/
structure SameTasks (s s' : Cluster) : Prop where
  allNodes : s'.allNodes = s.allNodes
  nodes : s'.nodes = s.nodes
  stops : s'.stops = s.stops
  events : s'.events = s.events
  stackStops : s'.stackStops = s.stackStops

variable {x : Subject}

/-- Nothing about attendants changes. -/
theorem Attended.frame (h : Attended s x) (htasks : SameTasks s s')
    (hcalls : s'.calls = s.calls) : Attended s' x := by
  obtain ⟨hall, hnodes, hstops, hevents, hstackStops⟩ := htasks
  cases h with
  | stopping σ hσ hpc => exact .stopping σ (hstops ▸ hσ) hpc
  | scheduled r hx hr => exact .scheduled r hx (hstackStops ▸ hr)
  | node n v hv hn hlive hx => exact .node n v (hall ▸ hv) (hnodes ▸ hn) hlive hx
  | call t c hc hx => exact .call t c (hcalls ▸ hc) hx
  | event n v hv hevent hx => exact .event n v (hall ▸ hv) (hevents ▸ hevent) hx

/-- A call changes, and what it attended is attended still. -/
theorem Attended.setCall (h : Attended s x) {t : Nat} {c c' : Call}
    (hc : s.calls[t]? = some c) (htasks : SameTasks s s') (hcalls : s'.calls = s.calls.set t c')
    (hkeep : x ∈ Call.subjects c → Attended s' x) : Attended s' x := by
  obtain ⟨hall, hnodes, hstops, hevents, hstackStops⟩ := htasks
  cases h with
  | stopping σ hσ hpc => exact .stopping σ (hstops ▸ hσ) hpc
  | scheduled r hx hr => exact .scheduled r hx (hstackStops ▸ hr)
  | node n v hv hn hlive hx => exact .node n v (hall ▸ hv) (hnodes ▸ hn) hlive hx
  | event n v hv hevent hx => exact .event n v (hall ▸ hv) (hevents ▸ hevent) hx
  | call u d hd hx =>
      by_cases hu : u = t
      · subst hu
        obtain rfl : d = c := Option.some.inj (hd.symm.trans hc)
        exact hkeep hx
      · refine .call u d ?_ hx
        rw [hcalls]
        exact Objects.set_old hu hd

/-- A call goes on and attends what it did. -/
theorem Attended.keepCall (h : Attended s x) {t : Nat} {c c' : Call}
    (hc : s.calls[t]? = some c) (htasks : SameTasks s s') (hcalls : s'.calls = s.calls.set t c')
    (hkeep : x ∈ Call.subjects c → x ∈ Call.subjects c') : Attended s' x :=
  h.setCall hc htasks hcalls fun hx => .call t c' (hcalls ▸ Objects.set_self hc) (hkeep hx)

/-- A call is added. -/
theorem Attended.addCall (h : Attended s x) {c : Call} (htasks : SameTasks s s')
    (hcalls : s'.calls = s.calls ++ [c]) : Attended s' x := by
  obtain ⟨hall, hnodes, hstops, hevents, hstackStops⟩ := htasks
  cases h with
  | stopping σ hσ hpc => exact .stopping σ (hstops ▸ hσ) hpc
  | scheduled r hx hr => exact .scheduled r hx (hstackStops ▸ hr)
  | node n v hv hn hlive hx => exact .node n v (hall ▸ hv) (hnodes ▸ hn) hlive hx
  | call t d hd hx => exact .call t d (hcalls ▸ Objects.append_old hd) hx
  | event n v hv hevent hx => exact .event n v (hall ▸ hv) (hevents ▸ hevent) hx

/-- A node changes, and what it attended is attended still. -/
theorem Attended.setNode (h : Attended s x) {n : Nat} {v v' : NodeView}
    (hv : s.allNodes[n]? = some v) (hall : s'.allNodes = s.allNodes.set n v')
    (hnodes : s'.nodes = s.nodes) (hcalls : s'.calls = s.calls) (hstops : s'.stops = s.stops)
    (hstackStops : s'.stackStops = s.stackStops) (hevents : ∀ k ∈ s.events, k ∈ s'.events)
    (hsame : v'.managerStacks = v.managerStacks)
    (hkeep : n ∈ s.nodes.values → v.state.live = true → x ∈ NodeView.subjects v →
      Attended s' x)
    (hstopping : v.stopping = some true → x ∈ NodeView.subjects v → Attended s' x) :
    Attended s' x := by
  cases h with
  | stopping σ hσ hpc => exact .stopping σ (hstops ▸ hσ) hpc
  | scheduled r hx hr => exact .scheduled r hx (hstackStops ▸ hr)
  | call t c hc hx => exact .call t c (hcalls ▸ hc) hx
  | node k w hw hk hlive hx =>
      by_cases hkn : k = n
      · subst hkn
        obtain rfl : w = v := Option.some.inj (hw.symm.trans hv)
        exact hkeep hk hlive hx
      · refine .node k w ?_ (hnodes ▸ hk) hlive hx
        rw [hall]
        exact Objects.set_old hkn hw
  | event k w hw hevent hx =>
      by_cases hkn : k = n
      · subst hkn
        obtain rfl : w = v := Option.some.inj (hw.symm.trans hv)
        rcases hevent with hmem | hst
        · refine .event k v' (hall ▸ Objects.set_self hv) (.inl (hevents k hmem)) ?_
          simpa [NodeView.subjects, hsame] using hx
        · exact hstopping hst hx
      · refine .event k w ?_ (hevent.imp_left (hevents k)) hx
        rw [hall]
        exact Objects.set_old hkn hw

/-- What an event attended is attended by somebody else once it is taken. -/
theorem Attended.takeEvent (h : Attended s x) {n : Nat} {v : NodeView}
    (hv : s.allNodes[n]? = some v) (hall : s'.allNodes = s.allNodes)
    (hnodes : s'.nodes = s.nodes) (hcalls : s'.calls = s.calls)
    (hstops : ∀ σ ∈ s.stops, σ ∈ s'.stops)
    (hstackStops : ∀ r ∈ s.stackStops, r ∈ s'.stackStops)
    (hevents : s'.events = s.events.erase n)
    (hkeep : x ∈ NodeView.subjects v → Attended s' x) : Attended s' x := by
  cases h with
  | stopping σ hσ hpc => exact .stopping σ (hstops σ hσ) hpc
  | scheduled r hx hr => exact .scheduled r hx (hstackStops r hr)
  | node k w hw hk hlive hx => exact .node k w (hall ▸ hw) (hnodes ▸ hk) hlive hx
  | call t c hc hx => exact .call t c (hcalls ▸ hc) hx
  | event k w hw hevent hx =>
      by_cases hkn : k = n
      · subst hkn
        obtain rfl : w = v := Option.some.inj (hw.symm.trans hv)
        exact hkeep hx
      · refine .event k w (hall ▸ hw) ?_ hx
        rw [hevents]
        exact hevent.imp_left (List.mem_erase_of_ne hkn).mpr

/-- Registered nodes stay registered when others are added. -/
theorem values_addNodes {hd : Bool} {r n : Nat} {p : Option Nat} {k : Nat} (h : IdsFresh s)
    (hn : n ∈ s.nodes.values) : n ∈ (addNodes hd r p k s).nodes.values := by
  induction k generalizing s with
  | zero => exact hn
  | succ k ih =>
      apply ih (h.addNode hd r p)
      rw [values_addNode h]
      exact List.mem_append_left _ hn

/-- One of the new nodes is live and registered, and uses the given stacks. -/
theorem addNodes_new (hd : Bool) (r : Nat) (p : Option Nat) {k : Nat} (h : IdsFresh s)
    (hk : k ≠ 0) : ∃ n v, (addNodes hd r p k s).allNodes[n]? = some v ∧
      n ∈ (addNodes hd r p k s).nodes.values ∧ v.state.live = true ∧
      v.managerStack = r ∧ v.priorityManagerStack = p := by
  cases k with
  | zero => exact absurd rfl hk
  | succ k =>
      refine ⟨s.allNodes.length, ⟨s.nodesIdCounter, hd, r, p, .pending, none⟩,
        ?_, ?_, rfl, rfl, rfl⟩
      · exact addNodes_old (s := s.addNode hd r p) (by simp [Cluster.addNode])
      · apply values_addNodes (s := s.addNode hd r p) (h.addNode hd r p)
        rw [values_addNode h]
        simp

/-- The nodes of a request attend what the request did. -/
theorem Attended.addNodes (h : Attended s x) {t k r : Nat} {c : Call} {p : Option Nat}
    (hids : IdsFresh s) (hc : s.calls[t]? = some c) (hstage : c.stage = .ready r p)
    (hk : k ≠ 0) (hall : s'.allNodes = (Cluster.addNodes c.request.isHead r p k s).allNodes)
    (hnodes : s'.nodes = (Cluster.addNodes c.request.isHead r p k s).nodes)
    (hcalls : s'.calls = s.calls.set t (Call.at c .over)) (hstops : s'.stops = s.stops)
    (hevents : s'.events = s.events) (hstackStops : s'.stackStops = s.stackStops) :
    Attended s' x := by
  cases h with
  | stopping σ hσ hpc => exact .stopping σ (hstops ▸ hσ) hpc
  | scheduled m hx hm => exact .scheduled m hx (hstackStops ▸ hm)
  | node n v hv hn hlive hx =>
      exact .node n v (hall ▸ addNodes_old hv) (hnodes ▸ values_addNodes hids hn) hlive hx
  | event n v hv hevent hx => exact .event n v (hall ▸ addNodes_old hv) (hevents ▸ hevent) hx
  | call u d hd hx =>
      by_cases hu : u = t
      · subst hu
        obtain rfl : d = c := Option.some.inj (hd.symm.trans hc)
        obtain ⟨n, v, hv, hn, hlive, rfl, rfl⟩ := addNodes_new d.request.isHead r p hids hk
        refine .node n v (hall ▸ hv) (hnodes ▸ hn) hlive ?_
        have hstacks : v.managerStacks =
            v.managerStack :: v.priorityManagerStack.toList := by
          unfold NodeView.managerStacks
          split <;> simp [*]
        simpa [NodeView.subjects, Call.subjects, Call.obtained, Call.starts, hstage,
          hstacks] using hx
      · refine .call u d ?_ hx
        rw [hcalls]
        exact Objects.set_old hu hd

/-! ### What runs after a step -/

theorem mayRun_iff : s.mayRun = true ↔ s.state = .running ∨ ∃ c ∈ s.calls, c.stage = .starting := by
  simp [mayRun]

theorem runs_cluster : s.runs .cluster = true ↔ s.state = .running := by
  simp [runs]

theorem runs_managerStack {r : Nat} : s.runs (.managerStack r) = true ↔
    s.mayRun = true ∧ ∃ m, s.allStacks[r]? = some m ∧ m.isRunning = true := by
  simp [runs]

/-- The general step: nothing starts to run. -/
theorem runs_of (h : s'.runs x = true) (hstate : s'.state = .running → s.state = .running)
    (hstart : (∃ c ∈ s'.calls, c.stage = .starting) → ∃ c ∈ s.calls, c.stage = .starting)
    (hstack : ∀ (r : Nat) (m' : ManagerStack), s'.allStacks[r]? = some m' → m'.isRunning = true →
      ∃ m, s.allStacks[r]? = some m ∧ m.isRunning = true) : s.runs x = true := by
  cases x with
  | cluster => exact runs_cluster.mpr (hstate (runs_cluster.mp h))
  | managerStack r =>
      obtain ⟨hmay, m', hm', hrun⟩ := runs_managerStack.mp h
      refine runs_managerStack.mpr ⟨?_, hstack r m' hm' hrun⟩
      exact mayRun_iff.mpr ((mayRun_iff.mp hmay).imp hstate hstart)

theorem starting_of_set {l : List Call} {t : Nat} {c' : Call} (hne : c'.stage ≠ .starting)
    (h : ∃ c ∈ l.set t c', c.stage = .starting) : ∃ c ∈ l, c.stage = .starting := by
  obtain ⟨c, hc, hst⟩ := h
  rcases List.mem_or_eq_of_mem_set hc with hold | rfl
  · exact ⟨c, hold, hst⟩
  · exact absurd hst hne

theorem starting_of_append {l : List Call} {c' : Call} (hne : c'.stage ≠ .starting)
    (h : ∃ c ∈ l ++ [c'], c.stage = .starting) : ∃ c ∈ l, c.stage = .starting := by
  obtain ⟨c, hc, hst⟩ := h
  rcases List.mem_append.mp hc with hold | hnew
  · exact ⟨c, hold, hst⟩
  · obtain rfl := List.mem_singleton.mp hnew
    exact absurd hst hne

theorem isRunning_stop (m : ManagerStack) : m.stop.isRunning = false := by
  unfold ManagerStack.stop
  split <;> simp_all

/-- What `leavesAttended` says of somebody who leaves. -/
theorem attended_of_abandons {rest : Cluster} {xs : List Subject}
    (hok : leavesAttended s a = true) (h : s.abandons a = some (rest, xs))
    (hruns : s.runs x = true) (hx : x ∈ xs) : Attended rest x := by
  rw [leavesAttended, h] at hok
  have := List.all_eq_true.mp hok x hx
  exact attended_iff.mp (by simpa [hruns] using this)

/-! ### The invariant -/

/-- A node that is being stopped is terminating. -/
def StoppingTerminates (s : Cluster) : Prop :=
  ∀ (n : Nat) (v : NodeView), s.allNodes[n]? = some v → v.stopping ≠ none → v.state = .terminating

/-- A stack that is flagged as running was not stopped. -/
def FlagsUnstopped (s : Cluster) : Prop :=
  ∀ (r : Nat) (m : ManagerStack), s.allStacks[r]? = some m → m.isRunning = true →
    m.stopLoop = .notCalled

theorem StoppingTerminates.set (h : StoppingTerminates s) {n : Nat} {v' : NodeView}
    (hv' : v'.stopping ≠ none → v'.state = .terminating)
    (hall : s'.allNodes = s.allNodes.set n v') : StoppingTerminates s' := by
  intro k w hw
  rw [hall] at hw
  rcases Objects.set_cases hw with ⟨-, rfl, -⟩ | ⟨-, hold⟩
  · exact hv'
  · exact h k w hold

theorem stopping_stop {v : NodeView} (ce : Bool) (h : v.stopping ≠ none → v.state = .terminating) :
    (v.stop ce).stopping ≠ none → (v.stop ce).state = .terminating := by
  unfold NodeView.stop
  split
  · exact fun _ => rfl
  · exact h

theorem StoppingTerminates.step (h : StoppingTerminates s) (hs : Step digest s a s') :
    StoppingTerminates s' := by
  cases hs with
  | finishes t k c r p id =>
      intro n v hv hst
      rcases addNodes_cases hv with hold | ⟨-, -, hnone, -⟩
      · exact h n v hold hst
      · exact absurd hnone hst
  | stopsNode i n σ todo busy v hσ hpc hv => exact h.set (stopping_stop false (h n v hv)) rfl
  | nodeReady n v hv hstate =>
      refine h.set (fun hst => ?_) rfl
      have := h n v hv hst
      rw [hstate] at this
      cases this
  | nodeStartFailed n v hv hstate =>
      refine h.set (fun hst => ?_) rfl
      have := h n v hv hst
      rw [hstate] at this
      cases this
  | nodeStop n v hv => exact h.set (stopping_stop true (h n v hv)) rfl
  | nodeStopped n v ce hv => exact h.set (fun hst => absurd rfl hst) rfl
  | nodeStopRaised n v ce hv => exact h.set (fun hst => absurd rfl hst) rfl
  | _ => exact h

theorem FlagsUnstopped.set (h : FlagsUnstopped s) {r : Nat} {m m' : ManagerStack}
    (hm : s.allStacks[r]? = some m)
    (hm' : m'.isRunning = true → m.isRunning = true ∧ m'.stopLoop = m.stopLoop)
    (hall : s'.allStacks = s.allStacks.set r m') : FlagsUnstopped s' := by
  intro k w hw hrun
  rw [hall] at hw
  rcases Objects.set_cases hw with ⟨rfl, rfl, -⟩ | ⟨-, hold⟩
  · obtain ⟨hrun, hsame⟩ := hm' hrun
    rw [hsame]
    exact h k m hm hrun
  · exact h k w hold hrun

/-- The flag and the stop loop of a stack that starts. -/
theorem flags_managerStarted {m m' : ManagerStack} (h : m.managerStarted = some m')
    (hrun : m'.isRunning = true) : m.isRunning = true ∧ m'.stopLoop = m.stopLoop :=
  ⟨stackPredicate_isRunning.of_managerStarted m m' h hrun, (starting_of_managerStarted h).2⟩

theorem flags_managerStartRaised {m m' : ManagerStack} (h : m.managerStartRaised = some m')
    (hrun : m'.isRunning = true) : m.isRunning = true ∧ m'.stopLoop = m.stopLoop := by
  refine ⟨stackPredicate_isRunning.of_managerStartRaised m m' h hrun, ?_⟩
  unfold ManagerStack.managerStartRaised at h
  split at h <;> cases h
  rfl

theorem FlagsUnstopped.step (h : FlagsUnstopped s) (hs : Step digest s a s') :
    FlagsUnstopped s' := by
  cases hs with
  | creates t c goal hash =>
      intro k w hw hrun
      rcases Objects.append_cases hw with hold | ⟨-, rfl⟩
      · exact h k w hold hrun
      · rfl
  | managerStarted t c goal hash r m m' hc hstage hm hm' =>
      exact h.set hm (flags_managerStarted hm') rfl
  | handsOut t c goal hash r m m' stage L hc hstage hm hm' =>
      exact h.set hm (flags_managerStarted hm') rfl
  | managerStartRaised t c goal hash r m m' L hc hstage hm hm' =>
      exact h.set hm (flags_managerStartRaised hm') rfl
  | stopsStack i r σ todo busy m hσ hpc hm =>
      exact h.set hm (fun hrun => by rw [isRunning_stop] at hrun; cases hrun) rfl
  | stackStops r m hm =>
      exact h.set hm (fun hrun => by rw [isRunning_stop] at hrun; cases hrun) rfl
  | managerStopped r m m' hm hm' =>
      -- a stack whose stop loop is at a manager was stopped
      refine h.set hm (fun hrun => ?_) rfl
      have hold := stackPredicate_isRunning.of_managerStopped m m' hm' hrun
      exact absurd (h r m hm hold) (stopping_of_managerStopped hm')
  | managerStopRaised r m m' hm hm' =>
      refine h.set hm (fun hrun => ?_) rfl
      have hold := stackPredicate_isRunning.of_managerStopRaised m m' hm' hrun
      exact absurd (h r m hm hold) (stopping_of_managerStopRaised hm')
  | _ => exact h

/-- The invariant: whatever runs is attended. -/
structure IdleInv (s : Cluster) : Prop where
  attended : ∀ x, s.runs x = true → Attended s x
  stopping : StoppingTerminates s
  flags : FlagsUnstopped s
  ids : IdsFresh s
  managerStacks : StacksCovered (fun m => m.isRunning = true) s
  stacksGone : StacksGone (fun m => m.isRunning = true) s

theorem idleInv_initial (h : Initial s) : IdleInv s := by
  refine ⟨?_, ?_, ?_, ?_, stacksCovered_initial h, stacksGone_initial h⟩ <;> subst h
  · intro x hx
    cases x with
    | cluster => cases hx
    | managerStack r => cases hx
  · intro n v hv
    simp at hv
  · intro r m hm
    simp at hm
  · exact fun _ _ => rfl

/-- Steps of a request that goes on. -/
theorem subjects_of_obtained {c : Call} (hne : c.stage ≠ .over) :
    x ∈ Call.subjects c ↔ x = .cluster ∨
      ∃ r, x = .managerStack r ∧ (r ∈ Call.obtained c ∨ Call.starts c = some r) := by
  simp only [Call.subjects, if_neg hne, List.mem_cons, List.mem_map, List.mem_append,
    Option.mem_toList]
  constructor
  · rintro (rfl | ⟨r, hr, rfl⟩)
    · exact .inl rfl
    · exact .inr ⟨r, rfl, hr⟩
  · rintro (rfl | ⟨r, rfl, hr⟩)
    · exact .inl rfl
    · exact .inr ⟨r, hr, rfl⟩

/-- A call that was handed a stack attends it, and what it attended before. -/
theorem subjects_onward {c : Call} {goal : Goal} {r : Nat} {stage : Stage}
    (hon : Onward digest c r goal stage) (hne : c.stage ≠ .over)
    (hobtained : Call.obtained c = Goal.obtained goal)
    (hstarts : ∀ k, Call.starts c = some k → k = r) (hx : x ∈ Call.subjects c) :
    x ∈ Call.subjects (Call.at c stage) := by
  have hover : (Call.at c stage).stage ≠ .over := by
    cases hon <;> simp [Call.at]
  have hsub : ∀ k, k = r ∨ k ∈ Goal.obtained goal → k ∈ Call.obtained (Call.at c stage) := by
    intro k hk
    cases hon with
    | seek => simpa [Call.at, Call.obtained, Goal.obtained] using hk
    | ready => simpa [Call.at, Call.obtained, Goal.obtained] using hk
  rcases (subjects_of_obtained hne).mp hx with rfl | ⟨k, rfl, hk⟩
  · exact (subjects_of_obtained hover).mpr (.inl rfl)
  · refine (subjects_of_obtained hover).mpr (.inr ⟨k, rfl, .inl (hsub k ?_)⟩)
    rcases hk with hk | hk
    · exact .inr (hobtained ▸ hk)
    · exact .inl (hstarts k hk)

/-- A call ends without a node: whatever it attended is attended by others. -/
theorem Attended.endCall (h : Attended s x) {t : Nat} {c : Call} {e : CallAct}
    (hc : s.calls[t]? = some c) (hok : leavesAttended s (.call t e) = true)
    (he : endsEmpty e = true) (hruns : s.runs x = true) (htasks : SameTasks s s')
    (hcalls : s'.calls = s.calls.set t (Call.at c .over)) : Attended s' x := by
  apply h.setCall hc htasks hcalls
  intro hx
  have habandons : s.abandons (.call t e) = some (s.setStage t c .over, Call.subjects c) := by
    simp [abandons, he, hc]
  obtain ⟨hall, hnodes, hstops, hevents, hstackStops⟩ := htasks
  exact (attended_of_abandons hok habandons hruns hx).frame
    ⟨hall, hnodes, hstops, hevents, hstackStops⟩ hcalls

/-- A `start()` that passes finds only stacks that run attended. -/
theorem IdleInv.attended_start (h : IdleInv s) {q : Request}
    (hrevives : revivesAttended s (.start q) = true)
    (hs : Step digest s (.start q) s') (hx : s'.runs x = true) : Attended s' x := by
  cases hs with
  | startPasses q hpending hrunning =>
      cases x with
      | cluster => cases runs_cluster.mp hx
      | managerStack r =>
          obtain ⟨-, m, hm, hrun⟩ := runs_managerStack.mp hx
          have hm' : s.allStacks[r]? = some m := hm
          have hatt : Attended s (.managerStack r) := by
            cases hst : s.state with
            | pending => exact absurd hst hpending
            | running => exact absurd hst hrunning
            | terminated => exact absurd hrun (h.stacksGone hst r m hm)
            | terminating =>
                -- the cluster is revived
                obtain ⟨hlt, -⟩ := List.getElem?_eq_some_iff.mp hm'
                have hall := hrevives
                simp only [revivesAttended, hst, bne_self_eq_false, Bool.false_or,
                  List.all_eq_true, List.mem_range] at hall
                have := hall r hlt
                exact attended_iff.mp (by simpa [hm', hrun] using this)
          exact hatt.addCall ⟨rfl, rfl, rfl, rfl, rfl⟩ rfl
  | startSkips q hstate =>
      have hx' : s.runs x = true :=
        runs_of hx id (starting_of_append (by simp)) fun r m hm hrun => ⟨m, hm, hrun⟩
      exact (h.attended x hx').addCall ⟨rfl, rfl, rfl, rfl, rfl⟩ rfl

/-- A request goes on, gives its part to its nodes, or leaves it to others. -/
theorem IdleInv.attended_call (h : IdleInv s) {t : Nat} {e : CallAct}
    (hok : leavesAttended s (.call t e) = true) (hservice : throughService (.call t e) = true)
    (hs : Step digest s (.call t e) s') (hx : s'.runs x = true) : Attended s' x := by
  have hsame : ∀ (r : Nat) (m : ManagerStack), s.allStacks[r]? = some m → m.isRunning = true →
      ∃ m, s.allStacks[r]? = some m ∧ m.isRunning = true := fun r m hm hrun => ⟨m, hm, hrun⟩
  cases hs with
  | startDone t c hc hstage =>
      have hnew : .cluster ∈ Call.subjects (Call.at c .started) := by
        simp [Call.subjects, Call.at]
      cases x with
      | cluster => exact .call t _ (Objects.set_self hc) hnew
      | managerStack r =>
          obtain ⟨-, m, hm, hrun⟩ := runs_managerStack.mp hx
          have hmay : s.mayRun = true := mayRun_iff.mpr (.inr ⟨c, List.mem_of_getElem? hc, hstage⟩)
          have hx' : s.runs (.managerStack r) = true := runs_managerStack.mpr ⟨hmay, m, hm, hrun⟩
          refine (h.attended _ hx').keepCall hc ⟨rfl, rfl, rfl, rfl, rfl⟩ rfl fun hr => ?_
          simp [Call.subjects, Call.obtained, Call.starts, hstage] at hr
  | startRaised t c hc hstage =>
      have hx' : s.runs x = true := runs_of hx id (starting_of_set (by simp [Call.at])) hsame
      exact (h.attended x hx').endCall hc hok rfl hx' ⟨rfl, rfl, rfl, rfl, rfl⟩ rfl
  | leaves t c => cases hservice
  | prepares t c goal hash hc hstage hgoal =>
      have hx' : s.runs x = true := runs_of hx id (starting_of_set (by simp [Call.at])) hsame
      refine (h.attended x hx').keepCall hc ⟨rfl, rfl, rfl, rfl, rfl⟩ rfl fun hr => ?_
      obtain rfl : x = .cluster := by
        simpa [Call.subjects, Call.obtained, Call.starts, hstage] using hr
      simp [Call.subjects, Call.at]
  | unwinds t c goal hash L hc hstage =>
      have hx' : s.runs x = true := runs_of hx id (starting_of_set (by simp [Call.at])) hsame
      exact (h.attended x hx').endCall hc hok rfl hx' ⟨rfl, rfl, rfl, rfl, rfl⟩ rfl
  | finds t c goal hash k sem r stage L hc hstage hheld hr hon hL =>
      have hx' : s.runs x = true :=
        runs_of hx id (starting_of_set (by cases hon <;> simp [Call.at])) hsame
      refine (h.attended x hx').keepCall hc ⟨rfl, rfl, rfl, rfl, rfl⟩ rfl ?_
      exact subjects_onward hon (by simp [hstage]) (by simp [Call.obtained, hstage])
        (by simp [Call.starts, hstage])
  | misses t c goal hash k sem hc hstage =>
      have hx' : s.runs x = true := runs_of hx id (starting_of_set (by simp [Call.at])) hsame
      refine (h.attended x hx').keepCall hc ⟨rfl, rfl, rfl, rfl, rfl⟩ rfl fun hr => ?_
      simpa [Call.subjects, Call.obtained, Call.starts, Call.at, hstage] using hr
  | creates t c goal hash hc hstage =>
      -- either the new stack, which the call starts, or what ran before
      by_cases hnew : x = .managerStack s.allStacks.length
      · refine .call t _ (Objects.set_self hc) ?_
        simp [Call.subjects, Call.starts, hnew]
      · have hx' : s.runs x = true := by
          cases x with
          | cluster => exact runs_cluster.mpr (runs_cluster.mp hx)
          | managerStack r =>
              obtain ⟨hmay, m, hm, hrun⟩ := runs_managerStack.mp hx
              refine runs_managerStack.mpr ⟨mayRun_iff.mpr ?_, m, ?_, hrun⟩
              · exact (mayRun_iff.mp hmay).imp id (starting_of_set (by simp))
              · rcases Objects.append_cases hm with hold | ⟨rfl, -⟩
                · exact hold
                · exact absurd rfl hnew
        refine (h.attended x hx').keepCall hc ⟨rfl, rfl, rfl, rfl, rfl⟩ rfl fun hr => ?_
        rw [subjects_of_obtained (by simp [hstage])] at hr
        rw [subjects_of_obtained (by simp)]
        apply hr.imp_right
        rintro ⟨r, hxr, hr⟩
        refine ⟨r, hxr, .inl ?_⟩
        simpa [Call.obtained, Call.starts, hstage] using hr
  | createRaised t c goal hash L hc hstage =>
      have hx' : s.runs x = true := runs_of hx id (starting_of_set (by simp [Call.at])) hsame
      exact (h.attended x hx').endCall hc hok rfl hx' ⟨rfl, rfl, rfl, rfl, rfl⟩ rfl
  | managerStarted t c goal hash r m m' hc hstage hm hm' =>
      have hx' : s.runs x = true :=
        runs_of hx id id (Objects.less_of_set hm fun hrun => (flags_managerStarted hm' hrun).1)
      exact (h.attended x hx').frame ⟨rfl, rfl, rfl, rfl, rfl⟩ rfl
  | handsOut t c goal hash r m m' stage L hc hstage hm hm' hlast hon hL =>
      have hx' : s.runs x = true :=
        runs_of hx id (starting_of_set (by cases hon <;> simp [Call.at]))
          (Objects.less_of_set hm fun hrun => (flags_managerStarted hm' hrun).1)
      refine (h.attended x hx').keepCall hc ⟨rfl, rfl, rfl, rfl, rfl⟩ rfl ?_
      exact subjects_onward hon (by simp [hstage]) (by simp [Call.obtained, hstage])
        (by simp [Call.starts, hstage, eq_comm])
  | managerStartRaised t c goal hash r m m' L hc hstage hm hm' =>
      have hx' : s.runs x = true :=
        runs_of hx id (starting_of_set (by simp [Call.at]))
          (Objects.less_of_set hm fun hrun => (flags_managerStartRaised hm' hrun).1)
      exact (h.attended x hx').endCall hc hok rfl hx' ⟨rfl, rfl, rfl, rfl, rfl⟩ rfl
  | finishes t k c r p j hc hstage =>
      have hx' : s.runs x = true := runs_of hx id (starting_of_set (by simp [Call.at])) hsame
      cases k with
      | zero =>
          exact (h.attended x hx').endCall hc hok rfl hx' ⟨rfl, rfl, rfl, rfl, rfl⟩ rfl
      | succ k =>
          exact (h.attended x hx').addNodes h.ids hc hstage (by omega) rfl rfl rfl rfl rfl rfl
  | wakes t c goal hash L => exact (h.attended x hx).frame ⟨rfl, rfl, rfl, rfl, rfl⟩ rfl
  | cancels t c goal hash => exact (h.attended x hx).frame ⟨rfl, rfl, rfl, rfl, rfl⟩ rfl

/-- A stop in progress attends everything, and what it still covered is stopped
when it ends. -/
theorem IdleInv.attended_stopping (h : IdleInv s) {i : Nat} {e : StopAct}
    (hok : leavesAttended s (.stopping i e) = true)
    (hs : Step digest s (.stopping i e) s') (hx : s'.runs x = true) : Attended s' x := by
  cases hs with
  | stopsNode i n σ todo busy v hσ hpc hv =>
      exact .stopping _ (List.mem_of_getElem? (Objects.set_self hσ)) (by simp)
  | nodesDone i σ busy hσ =>
      exact .stopping _ (List.mem_of_getElem? (Objects.set_self hσ)) (by simp)
  | stopsStack i r σ todo busy m hσ hpc hm =>
      exact .stopping _ (List.mem_of_getElem? (Objects.set_self hσ)) (by simp)
  | stacksDone i σ busy hσ =>
      exact .stopping _ (List.mem_of_getElem? (Objects.set_self hσ)) (by simp)
  | paymentStopped i σ hσ hpc =>
      -- what the stop still covered was stopped, so nothing runs
      cases x with
      | cluster => cases runs_cluster.mp hx
      | managerStack r =>
          obtain ⟨-, m, hm, hrun⟩ := runs_managerStack.mp hx
          have hcov := h.managerStacks.stopping σ (List.mem_of_getElem? hσ) r m hm hrun
          rw [hpc] at hcov
          exact hcov.elim
  | stopRaised i σ hσ hpc =>
      have hx' : s.runs x = true := hx
      have hmem : x ∈ s.subjects := by
        cases x with
        | cluster => exact List.mem_cons_self
        | managerStack r =>
            obtain ⟨-, m, hm, -⟩ := runs_managerStack.mp hx'
            obtain ⟨hlt, -⟩ := List.getElem?_eq_some_iff.mp hm
            refine List.mem_cons_of_mem _ (List.mem_map.mpr ⟨r, List.mem_range.mpr hlt, rfl⟩)
      have habandons :
          s.abandons (.stopping i .raised) = some (s.setStop i σ .over, s.subjects) := by
        simp [abandons, hσ]
      exact (attended_of_abandons hok habandons hx' hmem).frame ⟨rfl, rfl, rfl, rfl, rfl⟩ rfl

/-- A node that is stopped by a request or a monitor has its event ahead. -/
theorem IdleInv.attended_node (h : IdleInv s) {n : Nat} {e : NodeAct}
    (hok : leavesAttended s (.node n e) = true)
    (hs : Step digest s (.node n e) s') (hx : s'.runs x = true) : Attended s' x := by
  cases hs with
  | nodeReady n v hv hstate =>
      have hx' : s.runs x = true := hx
      refine (h.attended x hx').setNode hv rfl rfl rfl rfl rfl (fun _ => id) rfl ?_ ?_
      · exact fun hn _ hxv => .node n _ (Objects.set_self hv) hn rfl hxv
      · intro hst _
        have := h.stopping n v hv (by simp [hst])
        rw [hstate] at this
        cases this
  | nodeStartFailed n v hv hstate =>
      have hx' : s.runs x = true := hx
      have habandons : s.abandons (.node n .startFailed) =
          some (s.setNode n { v with state := .terminated }, NodeView.subjects v) := by
        simp [abandons, hv]
      have hothers :
          x ∈ NodeView.subjects v → Attended (s.setNode n { v with state := .terminated }) x :=
        attended_of_abandons hok habandons hx'
      refine (h.attended x hx').setNode hv rfl rfl rfl rfl rfl (fun _ => id) rfl ?_ ?_
      · exact fun _ _ hxv => (hothers hxv).frame ⟨rfl, rfl, rfl, rfl, rfl⟩ rfl
      · exact fun _ hxv => (hothers hxv).frame ⟨rfl, rfl, rfl, rfl, rfl⟩ rfl
  | nodeStop n v hv =>
      have hx' : s.runs x = true := hx
      have hsub : x ∈ NodeView.subjects v → x ∈ NodeView.subjects (v.stop true) := by
        simp [NodeView.subjects, managerStacks_stop]
      refine (h.attended x hx').setNode hv rfl rfl rfl rfl rfl (fun _ => id)
        (managerStacks_stop v true) ?_ ?_
      · intro _ hlive hxv
        refine .event n (v.stop true) (Objects.set_self hv) (.inr ?_) (hsub hxv)
        simp [NodeView.stop, hlive]
      · intro hst hxv
        refine .event n (v.stop true) (Objects.set_self hv) (.inr ?_) (hsub hxv)
        have hterm := h.stopping n v hv (by simp [hst])
        simp [NodeView.stop, hterm, NodeState.live, hst]
  | nodeStopped n v ce hv hstopping =>
      have hx' : s.runs x = true := hx
      have hterm := h.stopping n v hv (by simp [hstopping])
      refine (h.attended x hx').setNode hv rfl rfl rfl rfl rfl ?_ rfl ?_ ?_
      · intro k hk
        show k ∈ if ce = true then s.events ++ [n] else s.events
        split
        · exact List.mem_append_left _ hk
        · exact hk
      · intro _ hlive
        simp [hterm] at hlive
      · intro hst hxv
        obtain rfl : ce = true := by simpa [hstopping] using hst
        exact .event n _ (Objects.set_self hv) (.inl (by simp)) hxv
  | nodeStopRaised n v ce hv hstopping =>
      have hx' : s.runs x = true := hx
      have hterm := h.stopping n v hv (by simp [hstopping])
      have habandons : s.abandons (.node n .stopRaised) =
          some (s.setNode n { v with stopping := none }, NodeView.subjects v) := by
        simp [abandons, hv]
      refine (h.attended x hx').setNode hv rfl rfl rfl rfl rfl (fun _ => id) rfl ?_ ?_
      · intro _ hlive
        simp [hterm] at hlive
      · exact fun _ hxv => (attended_of_abandons hok habandons hx' hxv).frame
          ⟨rfl, rfl, rfl, rfl, rfl⟩ rfl

/-- The registered live nodes. -/
theorem live_of_getNonTerminatedNodes {n : Nat} (h : n ∈ s.getNonTerminatedNodes) :
    ∃ v, s.allNodes[n]? = some v ∧ n ∈ s.nodes.values ∧ v.state.live = true := by
  obtain ⟨hmem, hlive⟩ := List.mem_filter.mp h
  unfold isLive at hlive
  split at hlive
  · exact ⟨_, ‹_›, hmem, hlive⟩
  · cases hlive

/-- A stop event stops the cluster, or leaves it to a live node and each stack to
a child task or to a live node. -/
theorem IdleInv.attended_onNodeStop (h : IdleInv s) {n : Nat}
    (hok : leavesAttended s (.onNodeStop n) = true)
    (hs : Step digest s (.onNodeStop n) s') (hx : s'.runs x = true) : Attended s' x := by
  cases hs with
  | lastNodeStops n v hv hn hlast hstate =>
      exact .stopping ⟨true, .nodes s.nodes.values []⟩ (by simp) (by simp)
  | lastNodeSkips n v hv hn hlast hstate =>
      have hx' : s.runs x = true := hx
      have habandons : s.abandons (.onNodeStop n) =
          some ({ s with events := s.events.erase n }, NodeView.subjects v) := by
        simp [abandons, hv, hstate, hlast]
      exact (h.attended x hx').takeEvent hv rfl rfl rfl (fun _ => id) (fun _ => id) rfl
        (attended_of_abandons hok habandons hx')
  | nodeStoppedStacks n v hv hn hlive hhead =>
      have hx' : s.runs x = true := hx
      refine (h.attended x hx').takeEvent hv rfl rfl rfl (fun _ => id)
        (fun _ => List.mem_append_left _) rfl fun hxv => ?_
      rcases List.mem_cons.mp hxv with rfl | hr
      · obtain ⟨k, hk⟩ := List.exists_mem_of_ne_nil _ hlive
        obtain ⟨w, hw, hmem, hwlive⟩ := live_of_getNonTerminatedNodes hk
        exact .node k w hw hmem hwlive List.mem_cons_self
      · obtain ⟨r, hmem, rfl⟩ := List.mem_map.mp hr
        by_cases hidle : r ∈ s.idleStacks v
        · exact .scheduled r rfl (List.mem_append_right _ hidle)
        · have : ∃ k ∈ s.getNonTerminatedNodes, s.uses k r = true := by
            have hnot : r ∈ v.managerStacks → ∃ k ∈ s.getNonTerminatedNodes, s.uses k r = true := by
              simpa [idleStacks] using hidle
            exact hnot hmem
          obtain ⟨k, hk, huses⟩ := this
          obtain ⟨w, hw, hreg, hwlive⟩ := live_of_getNonTerminatedNodes hk
          refine .node k w hw hreg hwlive (List.mem_cons_of_mem _ (List.mem_map.mpr ⟨r, ?_, rfl⟩))
          simpa [uses, hw] using huses

/-- A child task that stops its stack has nothing to attend any more. -/
theorem IdleInv.attended_stackStop (h : IdleInv s) {r : Nat}
    (hs : Step digest s (.stackStop r) s') (hx : s'.runs x = true) : Attended s' x := by
  cases hs with
  | stackStops r m hm hr =>
      have hstop : ∀ k w, (s.allStacks.set r m.stop)[k]? = some w → w.isRunning = true → k ≠ r := by
        rintro k w hw hrun rfl
        rw [Objects.set_self hm] at hw
        obtain rfl := Option.some.inj hw
        rw [isRunning_stop] at hrun
        cases hrun
      have hx' : s.runs x = true :=
        runs_of hx id id
          (Objects.less_of_set hm fun hrun => by rw [isRunning_stop] at hrun; cases hrun)
      cases h.attended x hx' with
      | stopping σ hσ hpc => exact .stopping σ hσ hpc
      | node n v hv hn hlive hxv => exact .node n v hv hn hlive hxv
      | call t c hc hxc => exact .call t c hc hxc
      | event n v hv hevent hxv => exact .event n v hv hevent hxv
      | scheduled k hxk hk =>
          subst hxk
          obtain ⟨-, w, hw, hrun⟩ := runs_managerStack.mp hx
          exact .scheduled k rfl ((List.mem_erase_of_ne (hstop k w hw hrun)).mpr hk)

/-- **Every guarded step keeps whatever runs attended.** -/
theorem IdleInv.attended_step (h : IdleInv s) (hok : leavesAttended s a = true)
    (hrevives : revivesAttended s a = true) (hservice : throughService a = true)
    (hs : Step digest s a s') (hx : s'.runs x = true) : Attended s' x := by
  cases a with
  | start q => exact h.attended_start hrevives hs hx
  | enter q => cases hservice
  | call t e => exact h.attended_call hok hservice hs hx
  | stopping i e => exact h.attended_stopping hok hs hx
  | node n e => exact h.attended_node hok hs hx
  | onNodeStop n => exact h.attended_onNodeStop hok hs hx
  | stackStop r => exact h.attended_stackStop hs hx
  | stop ce =>
      cases hs with
      | stopPasses ce hstate =>
          exact .stopping ⟨ce, .nodes s.nodes.values []⟩ (by simp) (by simp)
      | stopSkips ce => exact h.attended x hx
  | stack r e =>
      cases hs with
      | managerStopped r m m' hm hm' =>
          have hx' : s.runs x = true :=
            runs_of hx id id (Objects.less_of_set hm
              (stackPredicate_isRunning.of_managerStopped m m' hm'))
          exact (h.attended x hx').frame ⟨rfl, rfl, rfl, rfl, rfl⟩ rfl
      | managerStopRaised r m m' hm hm' =>
          have hx' : s.runs x = true :=
            runs_of hx id id (Objects.less_of_set hm
              (stackPredicate_isRunning.of_managerStopRaised m m' hm'))
          exact (h.attended x hx').frame ⟨rfl, rfl, rfl, rfl, rfl⟩ rfl
  | onStopTaken =>
      cases hs with
      | onStopTaken => exact (h.attended x hx).frame ⟨rfl, rfl, rfl, rfl, rfl⟩ rfl

/-- One guarded step keeps the invariant. -/
theorem IdleInv.step (h : IdleInv s) (hok : leavesNothing s a = true)
    (hs : Step digest s a s') : IdleInv s' := by
  simp only [leavesNothing, Bool.and_eq_true] at hok
  obtain ⟨⟨⟨⟨⟨hbeside, hrunning⟩, hnew⟩, hleaves⟩, hrevives⟩, hservice⟩ := hok
  have hflags : ∀ (r : Nat) (m : ManagerStack), s.allStacks[r]? = some m →
      m.stopLoop = .returned → ¬ m.isRunning = true := by
    intro r m hm hret hrun
    have := h.flags r m hm hrun
    rw [hret] at this
    cases this
  exact {
    attended := fun x hx => h.attended_step hleaves hrevives hservice hs hx
    stopping := h.stopping.step hs
    flags := h.flags.step hs
    ids := h.ids.step hs
    managerStacks := by
      refine h.managerStacks.step stackPredicate_isRunning hbeside hnew ?_ hflags hs
      intro i σ r todo busy m _ _ _ _ hrun
      simp [hrun]
    stacksGone := h.stacksGone.step stackPredicate_isRunning h.managerStacks hrunning hs }

/-- On a quiet cluster only live nodes attend anything. -/
theorem Quiet.attended (hq : Quiet s) (h : Attended s x) :
    ∃ n ∈ s.getNonTerminatedNodes, ∃ v, s.allNodes[n]? = some v ∧ x ∈ NodeView.subjects v := by
  cases h with
  | stopping σ hσ hpc => exact absurd (hq.stops σ hσ) hpc
  | scheduled r hx hr =>
      rw [hq.stackStops] at hr
      cases hr
  | node n v hv hn hlive hx =>
      refine ⟨n, List.mem_filter.mpr ⟨hn, ?_⟩, v, hv, hx⟩
      simpa [isLive, hv] using hlive
  | call t c hc hx =>
      rw [Call.subjects, if_pos (hq.calls c (List.mem_of_getElem? hc))] at hx
      cases hx
  | event n v hv hevent hx =>
      rcases hevent with hmem | hst
      · rw [hq.events] at hmem
        cases hmem
      · rw [(hq.nodes v (List.mem_of_getElem? hv)).2] at hst
        cases hst

/-- **Nothing idle is left running** in any run whose steps all meet the
condition, in every state without pending tasks. -/
theorem nothing_idle (h : Reach Initial (step digest) (fun s a => leavesNothing s a) s)
    (hq : Quiet s) : NothingIdle s := by
  have hinv : IdleInv s :=
    Reach.invariant (I := IdleInv) (fun _ => idleInv_initial)
      (fun _ _ _ hi hok hstep => hi.step hok (step_cases hstep)) h
  intro hrunning
  constructor
  · obtain ⟨n, hn, -⟩ := hq.attended (hinv.attended .cluster (runs_cluster.mpr hrunning))
    exact List.ne_nil_of_mem hn
  · intro r m hm hrun
    have hruns : s.runs (.managerStack r) = true :=
      runs_managerStack.mpr ⟨mayRun_iff.mpr (.inl hrunning), m, hm, hrun⟩
    obtain ⟨n, hn, v, hv, hx⟩ := hq.attended (hinv.attended _ hruns)
    exact ⟨n, hn, by simpa [uses, hv, NodeView.subjects] using hx⟩

/-- Two stacks with a node each; one node is terminated, and its stack stops. -/
def shrunkLife : List Act := twoStacks ++ firstStackStops

theorem nothing_idle_shrunk :
    ∃ s, exec (guarded (step exampleDigest) leavesNothing) shrunkLife {} = some s ∧
      s.state = .running ∧ s.allStacks.map ManagerStack.isRunning = [false, true] ∧
      s.Quiet ∧ NothingIdle s := by
  have hquiet : ∀ s, exec (guarded (step exampleDigest) leavesNothing) shrunkLife {} = some s →
      s.Quiet := by
    rintro s hs
    obtain rfl := Option.some.inj hs
    exact ⟨by decide, by decide, by decide, rfl, rfl⟩
  refine ⟨_, rfl, rfl, rfl, hquiet _ rfl, ?_⟩
  have hreach : Reach Initial (step exampleDigest) (fun s a => leavesNothing s a) _ :=
    Reach.execGuarded shrunkLife (.start rfl) rfl
  exact nothing_idle hreach (hquiet _ rfl)

/-- One worker is requested, and its start fails. -/
def failedStart : List Act :=
  requestUntilCreate ⟨publicConfig, 1, false⟩ 0 false ++ requestAfterCreate 0 1 ++
    [.node 0 .startFailed]

/-- **An empty cluster is left running**: no event follows a failed start. -/
theorem something_idle :
    ¬ ∀ s, Reachable Initial (step exampleDigest) s → Quiet s → NothingIdle s := by
  intro hall
  have hrun : ∃ s, exec (step exampleDigest) failedStart {} = some s ∧ s.Quiet ∧
      s.state = .running ∧ s.getNonTerminatedNodes = [] :=
    ⟨_, rfl, ⟨by decide, by decide, by decide, rfl, rfl⟩, rfl, rfl⟩
  obtain ⟨s, hs, hquiet, hrunning, hnone⟩ := hrun
  exact (hall s (Reach.exec failedStart (.start rfl) hs) hquiet hrunning).1 hnone

end Cluster
