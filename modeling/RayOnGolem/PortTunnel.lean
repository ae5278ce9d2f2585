import RayOnGolem.Lib.GuardedRun
import RayOnGolem.Lib.Objects

/-!
# The ssh tunnel of a head node

`PortTunnelClusterNodeSidecar` with its ssh processes and the tasks that wait for their
early exit.  A process may end at any time; the event loop sees this later and sets its
`returncode`, and later still the transport gives the process up, whose `terminate()`
raises from then on.  A `start()` awaits the new process, and a `stop()` awaits first the
cancelled task and then the end of the process, so other tasks go on in between.  A `stop()`
is not cancelled.

Main result: `PortTunnel.step_cases` -- what a step does.
-/

/-- Where a process stands: it runs, is gone unseen, has its `returncode`, or was given up. -/
inductive ProcessPhase
  | alive
  | exited
  | returned
  | closed
  deriving DecidableEq, Repr

/-- Where the task of `_on_tunnel_early_exit` stands, and how it ended. -/
inductive ExitTaskPc
  | scheduled
  | communicating (process : Nat)
  | warned (process : Nat)
  | cancelled
  | raised
  deriving DecidableEq, Repr

/-- The task is `done()`. -/
def ExitTaskPc.over : ExitTaskPc → Bool
  | .scheduled | .communicating _ => false
  | .warned _ | .cancelled | .raised => true

/-- What one `start()` made: a process, with whether `terminate()` reached it, and the task
that waits for its early exit, with whether it was cancelled. -/
structure Tunnel where
  process : ProcessPhase := .alive
  terminated : Bool := false
  exitTask : ExitTaskPc := .scheduled
  cancelled : Bool := false
  deriving DecidableEq, Repr

/-- `returncode is None`. -/
def Tunnel.isRunning (x : Tunnel) : Bool := x.process = .alive || x.process = .exited

/-- Where a `stop()` stands, and how it ended. -/
inductive TunnelStopPc
  | cancelling (task : Nat)
  | waiting (process : Nat)
  | returned (process : Nat)
  | raised (process : Option Nat)
  deriving DecidableEq, Repr

/-- The `stop()` is in progress. -/
def TunnelStopPc.inProgress : TunnelStopPc → Bool
  | .cancelling _ | .waiting _ => true
  | .returned _ | .raised _ => false

/-- A `PortTunnelClusterNodeSidecar` with all that its calls started.  `starting` counts the
calls of `start()` that await their process. -/
structure PortTunnel where
  tunnelProcess : Option Nat := none
  earlyExitTask : Option Nat := none
  tunnels : List Tunnel := []
  starting : Nat := 0
  stops : List TunnelStopPc := []
  deriving DecidableEq, Repr

namespace PortTunnel

open Runs

/-- The process or task that an attribute holds, if it is not `None`. -/
def held (s : PortTunnel) (o : Option Nat) : Option (Nat × Tunnel) :=
  o.bind fun j => (s.tunnels[j]?).map fun x => (j, x)

/-- `is_running()`. -/
def isRunning (s : PortTunnel) : Bool := (s.held s.tunnelProcess).any fun r => r.2.isRunning

/-- Some `stop()` is in progress. -/
def stopping (s : PortTunnel) : Bool := s.stops.any TunnelStopPc.inProgress

/-- A process or its task changes. -/
def setTunnel (s : PortTunnel) (j : Nat) (x : Tunnel) : PortTunnel :=
  { s with tunnels := s.tunnels.set j x }

/-- `start()` up to its await. -/
def start (s : PortTunnel) : PortTunnel :=
  if s.isRunning then s else { s with starting := s.starting + 1 }

/-- `run_subprocess` returns to a `start()`. -/
def spawned (s : PortTunnel) : Option PortTunnel :=
  if 0 < s.starting then
    some { s with
      tunnelProcess := some s.tunnels.length
      earlyExitTask := some s.tunnels.length
      tunnels := s.tunnels ++ [{}]
      starting := s.starting - 1 }
  else none

/-- `run_subprocess` raises, or is cancelled; then no process is left of it. -/
def startRaised (s : PortTunnel) : Option PortTunnel :=
  if 0 < s.starting then some { s with starting := s.starting - 1 } else none

/-- `stop()` up to its first await. -/
def stop (s : PortTunnel) : PortTunnel :=
  if s.isRunning then
    match s.held s.earlyExitTask with
    | some (j, x) =>
        { s.setTunnel j { x with cancelled := x.cancelled || !x.exitTask.over } with
          stops := s.stops ++ [.cancelling j] }
    | none => { s with stops := s.stops ++ [.raised s.tunnelProcess] }
  else s

/-- `ensure_cancelled` returns to a `stop()`, which goes on up to its next await. -/
def terminate (s : PortTunnel) (i : Nat) : Option PortTunnel :=
  match s.stops[i]? with
  | some (.cancelling j) =>
      if (s.tunnels[j]?).all fun x => x.exitTask.over then
        match s.held s.tunnelProcess with
        | some (p, x) =>
            if x.process = .closed then
              some { s with earlyExitTask := none, stops := s.stops.set i (.raised (some p)) }
            else
              some { s.setTunnel p { x with terminated := x.terminated || x.process = .alive } with
                earlyExitTask := none
                stops := s.stops.set i (.waiting p) }
        | none => some { s with earlyExitTask := none, stops := s.stops.set i (.raised none) }
      else none
  | _ => none

/-- The end of a `stop()`. -/
def stopReturns (s : PortTunnel) (i : Nat) : Option PortTunnel :=
  match s.stops[i]? with
  | some (.waiting p) =>
      if (s.tunnels[p]?).all fun x => x.isRunning then none
      else some { s with tunnelProcess := none, stops := s.stops.set i (.returned p) }
  | _ => none

/-- The task of `_on_tunnel_early_exit` runs for the first time. -/
def communicate (s : PortTunnel) (j : Nat) (x : Tunnel) : Option PortTunnel :=
  if x.exitTask = .scheduled ∧ x.cancelled = false then
    match s.tunnelProcess with
    | some p => some (s.setTunnel j { x with exitTask := .communicating p })
    | none => some (s.setTunnel j { x with exitTask := .raised })
  else none

/-- `communicate()` returns to the task, which warns. -/
def warn (s : PortTunnel) (j : Nat) (x : Tunnel) : Option PortTunnel :=
  match x.exitTask with
  | .communicating p =>
      if x.cancelled = false ∧ (s.tunnels[p]?).all (fun y => !y.isRunning) then
        some (s.setTunnel j { x with exitTask := .warned p })
      else none
  | _ => none

/-- `CancelledError` reaches the task. -/
def cancelDelivered (s : PortTunnel) (j : Nat) (x : Tunnel) : Option PortTunnel :=
  if x.cancelled = true ∧ x.exitTask.over = false then
    some (s.setTunnel j { x with exitTask := .cancelled })
  else none

/-- A process goes on to its next phase. -/
def processEnds (s : PortTunnel) (j : Nat) (x : Tunnel) : Option PortTunnel :=
  match x.process with
  | .alive => some (s.setTunnel j { x with process := .exited })
  | .exited => some (s.setTunnel j { x with process := .returned })
  | .returned => some (s.setTunnel j { x with process := .closed })
  | .closed => none

/-- Steps of a process and its task. -/
inductive TunnelAct
  | communicate
  | warn
  | cancelDelivered
  | processEnds
  deriving DecidableEq, Repr

/-- What can happen. -/
inductive Act
  | start
  | spawned
  | startRaised
  | stop
  | terminate (i : Nat)
  | stopReturns (i : Nat)
  | tunnel (j : Nat) (a : TunnelAct)
  deriving DecidableEq, Repr

/-- A step of process `j` or its task. -/
def stepTunnel (s : PortTunnel) (j : Nat) (x : Tunnel) : TunnelAct → Option PortTunnel
  | .communicate => s.communicate j x
  | .warn => s.warn j x
  | .cancelDelivered => s.cancelDelivered j x
  | .processEnds => s.processEnds j x

/-- One step of a tunnel sidecar. -/
def step (s : PortTunnel) : Act → Option PortTunnel
  | .start => some s.start
  | .spawned => s.spawned
  | .startRaised => s.startRaised
  | .stop => some s.stop
  | .terminate i => s.terminate i
  | .stopReturns i => s.stopReturns i
  | .tunnel j a =>
      match s.tunnels[j]? with
      | some x => s.stepTunnel j x a
      | none => none

/-- A sidecar as its constructor leaves it. -/
def Initial (s : PortTunnel) : Prop := s = {}

/-- Calls in turn: a `start()` when no call is in progress, a `stop()` when no other one is.
Creating a process takes rounds of the event loop, in which a scheduled task has its turn. -/
def inTurn (s : PortTunnel) : Act → Bool
  | .start => s.starting = 0 && !s.stopping
  | .spawned => s.tunnels.all fun x => x.exitTask != .scheduled || x.cancelled
  | .stop => !s.stopping
  | _ => true

/-! ### What a step does -/

/-- The effects of the steps. -/
inductive Step (s : PortTunnel) : Act → PortTunnel → Prop
  | startSkips (hrunning : s.isRunning = true) : Step s .start s
  | starts (hrunning : s.isRunning = false) :
      Step s .start { s with starting := s.starting + 1 }
  | spawned (hstarting : 0 < s.starting) :
      Step s .spawned { s with
        tunnelProcess := some s.tunnels.length
        earlyExitTask := some s.tunnels.length
        tunnels := s.tunnels ++ [{}]
        starting := s.starting - 1 }
  | startRaised (hstarting : 0 < s.starting) :
      Step s .startRaised { s with starting := s.starting - 1 }
  | stopSkips (hrunning : s.isRunning = false) : Step s .stop s
  | stops (j : Nat) (x : Tunnel) (hrunning : s.isRunning = true) (htask : s.earlyExitTask = some j)
      (hx : s.tunnels[j]? = some x) :
      Step s .stop { s with
        tunnels := s.tunnels.set j { x with cancelled := x.cancelled || !x.exitTask.over }
        stops := s.stops ++ [.cancelling j] }
  | stopRaises (hrunning : s.isRunning = true) (htask : s.held s.earlyExitTask = none) :
      Step s .stop { s with stops := s.stops ++ [.raised s.tunnelProcess] }
  | terminates (i j p : Nat) (x : Tunnel) (hi : s.stops[i]? = some (.cancelling j))
      (hover : ∀ y, s.tunnels[j]? = some y → y.exitTask.over = true)
      (hp : s.tunnelProcess = some p) (hx : s.tunnels[p]? = some x)
      (hprocess : x.process ≠ .closed) :
      Step s (.terminate i) { s with
        tunnels := s.tunnels.set p { x with terminated := x.terminated || x.process = .alive }
        earlyExitTask := none
        stops := s.stops.set i (.waiting p) }
  | findsClosed (i j p : Nat) (x : Tunnel) (hi : s.stops[i]? = some (.cancelling j))
      (hover : ∀ y, s.tunnels[j]? = some y → y.exitTask.over = true)
      (hp : s.tunnelProcess = some p) (hx : s.tunnels[p]? = some x)
      (hprocess : x.process = .closed) :
      Step s (.terminate i)
        { s with earlyExitTask := none, stops := s.stops.set i (.raised (some p)) }
  | findsNone (i j : Nat) (hi : s.stops[i]? = some (.cancelling j))
      (hover : ∀ y, s.tunnels[j]? = some y → y.exitTask.over = true)
      (hnone : s.held s.tunnelProcess = none) :
      Step s (.terminate i)
        { s with earlyExitTask := none, stops := s.stops.set i (.raised none) }
  | stopReturns (i p : Nat) (x : Tunnel) (hi : s.stops[i]? = some (.waiting p))
      (hx : s.tunnels[p]? = some x) (hended : x.isRunning = false) :
      Step s (.stopReturns i) { s with
        tunnelProcess := none
        stops := s.stops.set i (.returned p) }
  | communicates (j p : Nat) (x : Tunnel) (hx : s.tunnels[j]? = some x)
      (hscheduled : x.exitTask = .scheduled) (hcancelled : x.cancelled = false)
      (hp : s.tunnelProcess = some p) :
      Step s (.tunnel j .communicate)
        { s with tunnels := s.tunnels.set j { x with exitTask := .communicating p } }
  | communicateRaises (j : Nat) (x : Tunnel) (hx : s.tunnels[j]? = some x)
      (hscheduled : x.exitTask = .scheduled) (hcancelled : x.cancelled = false)
      (hp : s.tunnelProcess = none) :
      Step s (.tunnel j .communicate)
        { s with tunnels := s.tunnels.set j { x with exitTask := .raised } }
  | warns (j p : Nat) (x : Tunnel) (hx : s.tunnels[j]? = some x)
      (hcommunicating : x.exitTask = .communicating p) (hcancelled : x.cancelled = false)
      (hended : ∀ y, s.tunnels[p]? = some y → y.isRunning = false) :
      Step s (.tunnel j .warn)
        { s with tunnels := s.tunnels.set j { x with exitTask := .warned p } }
  | cancelled (j : Nat) (x : Tunnel) (hx : s.tunnels[j]? = some x)
      (hcancelled : x.cancelled = true) (hover : x.exitTask.over = false) :
      Step s (.tunnel j .cancelDelivered)
        { s with tunnels := s.tunnels.set j { x with exitTask := .cancelled } }
  | ends (j : Nat) (x : Tunnel) (phase : ProcessPhase) (hx : s.tunnels[j]? = some x)
      (hphase : (x.process, phase) = (.alive, .exited) ∨ (x.process, phase) = (.exited, .returned) ∨
        (x.process, phase) = (.returned, .closed)) :
      Step s (.tunnel j .processEnds)
        { s with tunnels := s.tunnels.set j { x with process := phase } }

variable {s s' : PortTunnel} {a : Act}

theorem held_eq_some {o : Option Nat} {j : Nat} {x : Tunnel} :
    s.held o = some (j, x) ↔ o = some j ∧ s.tunnels[j]? = some x := by
  cases o <;> simp [held]
  grind

theorem stop_cases (s : PortTunnel) : Step s .stop s.stop := by
  unfold stop
  split
  · split
    · obtain ⟨htask, hx⟩ := held_eq_some.mp ‹_›
      exact .stops _ _ ‹_› htask hx
    · exact .stopRaises ‹_› ‹_›
  · exact .stopSkips (by simpa using ‹¬ s.isRunning = true›)

theorem terminate_cases {i : Nat} (h : s.terminate i = some s') : Step s (.terminate i) s' := by
  unfold terminate at h
  split at h
  · rename_i j hi
    split at h
    · rename_i hall
      have hover : ∀ y, s.tunnels[j]? = some y → y.exitTask.over = true := by
        intro y hy
        simpa [hy] using hall
      split at h
      · obtain ⟨hp, hx⟩ := held_eq_some.mp ‹_›
        split at h <;> obtain rfl := Option.some.inj h
        · exact .findsClosed i j _ _ hi hover hp hx ‹_›
        · exact .terminates i j _ _ hi hover hp hx ‹_›
      · obtain rfl := Option.some.inj h
        exact .findsNone i j hi hover ‹_›
    · cases h
  · cases h

theorem stopReturns_cases {i : Nat} (h : s.stopReturns i = some s') :
    Step s (.stopReturns i) s' := by
  unfold stopReturns at h
  split at h
  · rename_i p hi
    split at h
    · cases h
    · rename_i hended
      obtain rfl := Option.some.inj h
      rcases hx : s.tunnels[p]? with _ | x
      · simp [hx] at hended
      · exact .stopReturns i p x hi hx (by simpa [hx] using hended)
  · cases h

theorem stepTunnel_cases {j : Nat} {x : Tunnel} {b : TunnelAct} (hx : s.tunnels[j]? = some x)
    (h : s.stepTunnel j x b = some s') : Step s (.tunnel j b) s' := by
  cases b with
  | communicate =>
      simp only [stepTunnel, communicate] at h
      split at h
      · rename_i hscheduled
        split at h <;> obtain rfl := Option.some.inj h
        · exact .communicates j _ x hx hscheduled.1 hscheduled.2 ‹_›
        · exact .communicateRaises j x hx hscheduled.1 hscheduled.2 ‹_›
      · cases h
  | warn =>
      simp only [stepTunnel, warn] at h
      split at h
      · rename_i p hcommunicating
        split at h
        · rename_i hended
          obtain rfl := Option.some.inj h
          refine .warns j p x hx hcommunicating hended.1 fun y hy => ?_
          simpa [hy] using hended.2
        · cases h
      · cases h
  | cancelDelivered =>
      simp only [stepTunnel, cancelDelivered] at h
      split at h
      · rename_i hcancelled
        obtain rfl := Option.some.inj h
        exact .cancelled j x hx hcancelled.1 hcancelled.2
      · cases h
  | processEnds =>
      simp only [stepTunnel, processEnds] at h
      split at h
      · obtain rfl := Option.some.inj h
        exact .ends j x .exited hx (by simp [*])
      · obtain rfl := Option.some.inj h
        exact .ends j x .returned hx (by simp [*])
      · obtain rfl := Option.some.inj h
        exact .ends j x .closed hx (by simp [*])
      · cases h

/-- A step is one of the listed effects. -/
theorem step_cases (h : s.step a = some s') : Step s a s' := by
  cases a with
  | start =>
      obtain rfl := Option.some.inj h
      unfold start
      split
      · exact .startSkips ‹_›
      · exact .starts (by simpa using ‹¬ s.isRunning = true›)
  | spawned =>
      obtain ⟨hstarting, heq⟩ := Option.ite_none_right_eq_some.mp h
      obtain rfl := Option.some.inj heq
      exact .spawned hstarting
  | startRaised =>
      obtain ⟨hstarting, heq⟩ := Option.ite_none_right_eq_some.mp h
      obtain rfl := Option.some.inj heq
      exact .startRaised hstarting
  | stop =>
      obtain rfl := Option.some.inj h
      exact stop_cases s
  | terminate i => exact terminate_cases h
  | stopReturns i => exact stopReturns_cases h
  | tunnel j b =>
      simp only [step] at h
      split at h
      · exact stepTunnel_cases ‹_› h
      · cases h

end PortTunnel
