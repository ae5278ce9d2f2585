import RayOnGolem.Lib.GuardedRun
import RayOnGolem.Models

/-!
# One node: its start, its stop and its paid activity

`ClusterNode.start` retries `_create_activity` until it succeeds or fails with
an exception that is not retried; `ClusterNode.stop` cancels that start, stops
the sidecars and destroys the activity.  The two run as separate tasks, so the
model is a step function over the whole node: the position of the start task,
the position of the stop, the sidecars with the child tasks that `gather`
makes for them, and the node's own attributes.  Every awaited external
operation may succeed or raise any class of exception (`Exc`); a `stop`
cancels the start task at whatever it awaits.

Two ledgers record the activities that `agreement.create_activity()` returned
to the node and those `destroy()` was called on.
-/

/-- The classes of exceptions that `start` tells apart. -/
inductive Exc
  | manager
  | golem
  | batch
  | rayOnGolem
  | timeout
  | other
  deriving DecidableEq, Repr

/-- How an awaited operation ends. -/
inductive Outcome
  | ok
  | raised (e : Exc)
  deriving DecidableEq, Repr

/-- `except (GolemException, RayOnGolemError)`, once `ManagerException` was
re-raised.  A `BatchError` is a `GolemException`. -/
def Exc.retried : Exc → Bool
  | .golem | .batch | .rayOnGolem => true
  | .manager | .timeout | .other => false

/-- What the node uses of `GolemService`. -/
structure GolemService where
  networkUri : String
  networkId : String
  websocatPath : String
  yagnaAppkey : String
  deriving DecidableEq, Repr

namespace GolemService

/-- `get_connection_uri`. -/
def getConnectionUri (g : GolemService) (ip : String) : String :=
  g.networkUri ++ "/net/" ++ g.networkId ++ "/tcp/" ++ ip

/-- `get_ssh_proxy_command`. -/
def getSshProxyCommand (g : GolemService) (connectionUri : String) : String :=
  g.websocatPath ++ " asyncstdio: " ++ connectionUri ++ "/22 --binary -H=Authorization:'Bearer "
    ++ g.yagnaAppkey ++ "'"

end GolemService

/-- `CLUSTER_MONITOR_RETRY_COUNT`. -/
def clusterMonitorRetryCount : Nat := 3

/-- The awaited steps of `_create_activity` once the activity has an address;
`command` counts the bootstrap commands that come after it. -/
inductive SetupStep
  | deploy
  | start
  | command (left : Nat)
  | sshService
  | sshDesc
  | sshAttempt (retry : Nat)
  | sshSleep (retry : Nat)
  | refreshNetwork
  deriving DecidableEq, Repr

/-- The step after one that succeeded; `none` when the activity is ready. -/
def SetupStep.next : SetupStep → Option SetupStep
  | .deploy => some .start
  | .start => some (.command 7)
  | .command (n + 1) => some (.command n)
  | .command 0 => some .sshService
  | .sshService => some .sshDesc
  | .sshDesc => some (.sshAttempt clusterMonitorRetryCount)
  | .sshAttempt _ => some .refreshNetwork
  | .sshSleep retry => some (.sshAttempt retry)
  | .refreshNetwork => none

/-- What a step makes of an exception: `_run_command` turns a `BatchError` into
a `RayOnGolemError`, and `verify_ssh_connection` retries after one. -/
def SetupStep.raised : SetupStep → Exc → SetupStep ⊕ Exc
  | .command _, .batch => .inr .rayOnGolem
  | .sshService, .batch => .inr .rayOnGolem
  | .sshAttempt retry, .rayOnGolem =>
      if 0 < retry - 1 then .inl (.sshSleep (retry - 1)) else .inr .rayOnGolem
  | _, e => .inr e

/-- Where the start task stands: at which await, with which local activity. -/
inductive StartPc
  | notScheduled
  | scheduled
  | priorityAgreement
  | agreement
  | providerDesc
  | createActivity
  | addToNetwork (activity : Nat)
  | setup (activity : Nat) (ip : String) (step : SetupStep)
  | cleanupDesc (activity : Nat) (e : Exc)
  | cleanupDestroy (activity : Nat) (e : Exc)
  | sidecars
  | done
  deriving DecidableEq, Repr

/-- The activity that only the start task knows and has not destroyed. -/
def StartPc.held : StartPc → Option Nat
  | .addToNetwork a | .setup a _ _ | .cleanupDesc a _ => some a
  | _ => none

/-- The start task is in the loop around `_create_activity`. -/
def StartPc.creating : StartPc → Bool
  | .priorityAgreement | .agreement | .providerDesc | .createActivity | .addToNetwork _
  | .setup _ _ _ | .cleanupDesc _ _ | .cleanupDestroy _ _ => true
  | .notScheduled | .scheduled | .sidecars | .done => false

/-- There is no start task, or it is `done()`. -/
def StartPc.over : StartPc → Bool
  | .notScheduled | .done => true
  | _ => false

/-- Where a stop stands; every position keeps its `call_events`. -/
inductive StopPc
  | idle
  | cancelling (callEvents : Bool)
  | sidecars (callEvents : Bool)
  | activityDesc (callEvents : Bool) (activity : Nat)
  | activityDestroy (callEvents : Bool) (activity : Nat)
  deriving DecidableEq, Repr

/-- The sidecar classes: two monitors and the ssh tunnel. -/
inductive SidecarKind
  | activityStateMonitor
  | sshStateMonitor
  | portTunnel
  deriving DecidableEq, Repr

/-- A child task that `gather` made for a sidecar's `start()` or `stop()`. -/
inductive Child
  | none
  | scheduled
  | waiting
  deriving DecidableEq, Repr

/-- A sidecar: whether `is_running()`, and its child tasks. -/
structure Sidecar where
  kind : SidecarKind
  isRunning : Bool := false
  starting : Child := .none
  stopping : Child := .none
  deriving DecidableEq, Repr

namespace Sidecar

/-- `start()`: a monitor runs at once, a tunnel awaits its process. -/
def start (c : Sidecar) : Sidecar :=
  if c.isRunning then { c with starting := .none }
  else
    match c.kind with
    | .activityStateMonitor | .sshStateMonitor => { c with isRunning := true, starting := .none }
    | .portTunnel => { c with starting := .waiting }

/-- `stop()` up to the cancellation of the monitor or the end of the process. -/
def stop (c : Sidecar) : Sidecar :=
  { c with stopping := if c.isRunning then .waiting else .none }

end Sidecar

/-- A `ClusterNode` with its tasks and the two ledgers. -/
structure ClusterNode where
  golemService : GolemService
  hasPriorityStack : Bool
  sidecars : List Sidecar
  state : NodeState := .pending
  internalIp : Option String := none
  sshProxyCommand : Option String := none
  activity : Option Nat := none
  startTask : StartPc := .notScheduled
  stopPc : StopPc := .idle
  onStopCalls : Nat := 0
  created : List Nat := []
  destroyed : List Nat := []
  deriving DecidableEq, Repr

namespace ClusterNode

open Runs

/-- The first await of `_get_agreement`. -/
def firstAgreement (n : ClusterNode) : StartPc :=
  if n.hasPriorityStack then .priorityAgreement else .agreement

/-- `schedule_start()`. -/
def scheduleStart (n : ClusterNode) : ClusterNode :=
  if n.startTask.over = false ∨ n.state = .running ∨ n.state = .terminating then n
  else { n with startTask := .scheduled }

/-- The start task runs `start()` up to its first await. -/
def startBegins (n : ClusterNode) : ClusterNode :=
  if n.state = .running ∨ n.state = .terminating then { n with startTask := .done }
  else { n with state := .pending, startTask := n.firstAgreement }

/-- `_create_activity()` raised `e`: the handlers of the loop in `start()`. -/
def createFailed (n : ClusterNode) (e : Exc) : ClusterNode :=
  if e.retried then { n with startTask := n.firstAgreement }
  else { n with state := .terminated, startTask := .done }

/-- The awaited `get_agreement()` ends. -/
def agreementEnds (n : ClusterNode) (o : Outcome) : Option ClusterNode :=
  match n.startTask, o with
  | .priorityAgreement, .ok | .agreement, .ok => some { n with startTask := .providerDesc }
  | .priorityAgreement, .raised .timeout => some { n with startTask := .agreement }
  | .priorityAgreement, .raised e | .agreement, .raised e => some (n.createFailed e)
  | _, _ => none

/-- The awaited name and id of the provider are known. -/
def providerDescEnds (n : ClusterNode) (o : Outcome) : Option ClusterNode :=
  match n.startTask, o with
  | .providerDesc, .ok => some { n with startTask := .createActivity }
  | .providerDesc, .raised e => some (n.createFailed e)
  | _, _ => none

/-- `agreement.create_activity()` ends; the new activity is the next number. -/
def createActivityEnds (n : ClusterNode) (o : Outcome) : Option ClusterNode :=
  match n.startTask, o with
  | .createActivity, .ok =>
      some { n with
        created := n.created.length :: n.created
        startTask := .addToNetwork n.created.length }
  | .createActivity, .raised e => some (n.createFailed e)
  | _, _ => none

/-- `add_provider_to_network()` ends, with the node's address or an exception. -/
def addToNetworkEnds (n : ClusterNode) (r : Except Exc String) : Option ClusterNode :=
  match n.startTask, r with
  | .addToNetwork a, .ok ip => some { n with startTask := .setup a ip .deploy }
  | .addToNetwork a, .error e => some { n with startTask := .cleanupDesc a e }
  | _, _ => none

/-- The end of `start()` up to the sidecars: the activity is ready. -/
def activityReady (n : ClusterNode) (a : Nat) (ip : String) : ClusterNode :=
  { n with
    state := .running
    internalIp := some ip
    sshProxyCommand :=
      some (n.golemService.getSshProxyCommand (n.golemService.getConnectionUri ip))
    activity := some a
    sidecars := n.sidecars.map fun c => { c with starting := .scheduled }
    startTask := .sidecars }

/-- The awaited setup step ends. -/
def setupEnds (n : ClusterNode) (o : Outcome) : Option ClusterNode :=
  match n.startTask, o with
  | .setup a ip step, .ok =>
      match step.next with
      | some step => some { n with startTask := .setup a ip step }
      | none => some (n.activityReady a ip)
  | .setup a ip step, .raised e =>
      match step.raised e with
      | .inl step => some { n with startTask := .setup a ip step }
      | .inr e => some { n with startTask := .cleanupDesc a e }
  | _, _ => none

/-- `get_provider_desc()` in the cleanup of `_create_activity` ends; then
`destroy()` is called. -/
def cleanupDescEnds (n : ClusterNode) (o : Outcome) : Option ClusterNode :=
  match n.startTask, o with
  | .cleanupDesc a e, .ok =>
      some { n with destroyed := a :: n.destroyed, startTask := .cleanupDestroy a e }
  | .cleanupDesc _ _, .raised e => some (n.createFailed e)
  | _, _ => none

/-- `destroy()` in the cleanup ends; its exceptions are swallowed. -/
def cleanupDestroyEnds (n : ClusterNode) : Option ClusterNode :=
  match n.startTask with
  | .cleanupDestroy _ e => some (n.createFailed e)
  | _ => none

/-- Change one sidecar. -/
def setSidecar (n : ClusterNode) (i : Nat) (c : Sidecar) : ClusterNode :=
  { n with sidecars := n.sidecars.set i c }

/-- A child task of `_start_sidecars` runs. -/
def sidecarStart (n : ClusterNode) (i : Nat) : Option ClusterNode :=
  match n.sidecars[i]? with
  | some c => if c.starting = .scheduled then some (n.setSidecar i c.start) else none
  | none => none

/-- The process that a tunnel's `start()` awaits is created. -/
def tunnelSpawned (n : ClusterNode) (i : Nat) : Option ClusterNode :=
  match n.sidecars[i]? with
  | some c =>
      if c.starting = .waiting then
        some (n.setSidecar i { c with isRunning := true, starting := .none })
      else none
  | none => none

/-- A tunnel's `start()` raises: `gather` and `start()` raise with it, and the
other child tasks go on. -/
def sidecarStartRaised (n : ClusterNode) (i : Nat) : Option ClusterNode :=
  match n.sidecars[i]? with
  | some c =>
      if c.starting = .waiting then
        let n := n.setSidecar i { c with starting := .none }
        some (if n.startTask = .sidecars then { n with startTask := .done } else n)
      else none
  | none => none

/-- Every sidecar is started: `start()` returns. -/
def sidecarsStarted (n : ClusterNode) : Option ClusterNode :=
  if n.startTask = .sidecars ∧ ∀ c ∈ n.sidecars, c.starting = .none then
    some { n with startTask := .done }
  else none

/-- `_stop_sidecars()` makes its child tasks. -/
def stopSidecars (n : ClusterNode) (callEvents : Bool) : ClusterNode :=
  { n with
    startTask := .notScheduled
    sidecars := n.sidecars.map fun c => { c with stopping := .scheduled }
    stopPc := .sidecars callEvents }

/-- `stop()` up to its first await. -/
def stop (n : ClusterNode) (callEvents : Bool) : ClusterNode :=
  if n.state = .terminating ∨ n.state = .terminated then n
  else if n.startTask.over then { n with state := .terminating }.stopSidecars callEvents
  else { n with state := .terminating, stopPc := .cancelling callEvents }

/-- `CancelledError` reaches the start task, which catches it nowhere. -/
def cancelDelivered (n : ClusterNode) : Option ClusterNode :=
  match n.stopPc with
  | .cancelling _ =>
      if n.startTask.over then none
      else if n.startTask = .sidecars then
        some { n with
          sidecars := n.sidecars.map fun c => { c with starting := .none }
          startTask := .done }
      else some { n with startTask := .done }
  | _ => none

/-- `ensure_cancelled(self._start_task)` returns to `stop()`. -/
def stopResumes (n : ClusterNode) : Option ClusterNode :=
  match n.stopPc with
  | .cancelling callEvents => if n.startTask.over then some (n.stopSidecars callEvents) else none
  | _ => none

/-- A child task of `_stop_sidecars` runs. -/
def sidecarStop (n : ClusterNode) (i : Nat) : Option ClusterNode :=
  match n.sidecars[i]? with
  | some c => if c.stopping = .scheduled then some (n.setSidecar i c.stop) else none
  | none => none

/-- The monitor task or the process that a sidecar's `stop()` awaits is over. -/
def sidecarStopped (n : ClusterNode) (i : Nat) : Option ClusterNode :=
  match n.sidecars[i]? with
  | some c =>
      if c.stopping = .waiting then
        some (n.setSidecar i { c with isRunning := false, stopping := .none })
      else none
  | none => none

/-- A sidecar's `stop()` raises: `gather` and `stop()` raise with it. -/
def sidecarStopRaised (n : ClusterNode) (i : Nat) : Option ClusterNode :=
  match n.sidecars[i]? with
  | some c =>
      if c.stopping = .waiting then
        let n := n.setSidecar i { c with stopping := .none }
        match n.stopPc with
        | .sidecars _ => some { n with stopPc := .idle }
        | _ => some n
      else none
  | none => none

/-- The end of `stop()`. -/
def finishStop (n : ClusterNode) (callEvents : Bool) : ClusterNode :=
  { n with
    activity := none
    state := .terminated
    internalIp := none
    sshProxyCommand := none
    stopPc := .idle
    onStopCalls := if callEvents then n.onStopCalls + 1 else n.onStopCalls }

/-- Every sidecar is stopped: `stop()` goes on to the activity, if there is one. -/
def sidecarsStopped (n : ClusterNode) : Option ClusterNode :=
  match n.stopPc with
  | .sidecars callEvents =>
      if ∀ c ∈ n.sidecars, c.stopping = .none then
        match n.activity with
        | some a => some { n with stopPc := .activityDesc callEvents a }
        | none => some (n.finishStop callEvents)
      else none
  | _ => none

/-- `get_provider_desc()` in `stop()` ends; then `destroy()` is called. -/
def activityDescEnds (n : ClusterNode) (o : Outcome) : Option ClusterNode :=
  match n.stopPc, o with
  | .activityDesc callEvents a, .ok =>
      some { n with destroyed := a :: n.destroyed, stopPc := .activityDestroy callEvents a }
  | .activityDesc _ _, .raised _ => some { n with stopPc := .idle }
  | _, _ => none

/-- `destroy()` in `stop()` ends; its exceptions are swallowed. -/
def activityDestroyEnds (n : ClusterNode) : Option ClusterNode :=
  match n.stopPc with
  | .activityDestroy callEvents _ => some (n.finishStop callEvents)
  | _ => none

/-- A monitor task ends by itself, or a tunnel's process exits. -/
def sidecarExited (n : ClusterNode) (i : Nat) : Option ClusterNode :=
  match n.sidecars[i]? with
  | some c => if c.isRunning then some (n.setSidecar i { c with isRunning := false }) else none
  | none => none

/-- Steps of the start task. -/
inductive StartAct
  | begins
  | agreement (o : Outcome)
  | providerDesc (o : Outcome)
  | createActivity (o : Outcome)
  | addToNetwork (r : Except Exc String)
  | setup (o : Outcome)
  | cleanupDesc (o : Outcome)
  | cleanupDestroy
  | sidecarsStarted

/-- Steps of one sidecar and its child tasks. -/
inductive SidecarAct
  | start
  | spawned
  | startRaised
  | stop
  | stopped
  | stopRaised
  | exited

/-- Steps of the task that runs `stop()`. -/
inductive StopAct
  | cancelDelivered
  | resumes
  | sidecarsStopped
  | activityDesc (o : Outcome)
  | activityDestroy

/-- What can happen to a node: a call of one of its two methods, or a step of
one of its tasks. -/
inductive Act
  | scheduleStart
  | stop (callEvents : Bool)
  | start (a : StartAct)
  | sidecar (i : Nat) (a : SidecarAct)
  | stopping (a : StopAct)

/-- A step of the start task; a task that was cancelled takes no other step
than to receive the `CancelledError`. -/
def stepStart (n : ClusterNode) (a : StartAct) : Option ClusterNode :=
  match n.stopPc with
  | .cancelling _ => none
  | _ =>
      match a with
      | .begins => if n.startTask = .scheduled then some n.startBegins else none
      | .agreement o => n.agreementEnds o
      | .providerDesc o => n.providerDescEnds o
      | .createActivity o => n.createActivityEnds o
      | .addToNetwork r => n.addToNetworkEnds r
      | .setup o => n.setupEnds o
      | .cleanupDesc o => n.cleanupDescEnds o
      | .cleanupDestroy => n.cleanupDestroyEnds
      | .sidecarsStarted => n.sidecarsStarted

/-- A step of a sidecar. -/
def stepSidecar (n : ClusterNode) (i : Nat) : SidecarAct → Option ClusterNode
  | .start => n.sidecarStart i
  | .spawned => n.tunnelSpawned i
  | .startRaised => n.sidecarStartRaised i
  | .stop => n.sidecarStop i
  | .stopped => n.sidecarStopped i
  | .stopRaised => n.sidecarStopRaised i
  | .exited => n.sidecarExited i

/-- A step of the stop. -/
def stepStop (n : ClusterNode) : StopAct → Option ClusterNode
  | .cancelDelivered => n.cancelDelivered
  | .resumes => n.stopResumes
  | .sidecarsStopped => n.sidecarsStopped
  | .activityDesc o => n.activityDescEnds o
  | .activityDestroy => n.activityDestroyEnds

/-- One step of the node. -/
def step (n : ClusterNode) : Act → Option ClusterNode
  | .scheduleStart => some n.scheduleStart
  | .stop callEvents => some (n.stop callEvents)
  | .start a => n.stepStart a
  | .sidecar i a => n.stepSidecar i a
  | .stopping a => n.stepStop a

/-- A node as its constructor leaves it, with any sidecars. -/
def Initial (n : ClusterNode) : Prop :=
  ∃ g p, ∃ kinds : List SidecarKind, n =
    { golemService := g, hasPriorityStack := p, sidecars := kinds.map fun k => { kind := k } }

end ClusterNode
