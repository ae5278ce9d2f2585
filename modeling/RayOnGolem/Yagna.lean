import RayOnGolem.Lib.GuardedRun
import RayOnGolem.Lib.Polling
import RayOnGolem.PortTunnel

/-!
# The yagna service

`YagnaService` over its whole life, as `yagna_service_ctx` drives it: `start()`, then the web
server serves, then `stop()`, which is only called once `start()` has returned.  Beside it run
the daemon that `start()` may have made, and the task that waits for its early exit.  Every
await of `start()` may raise, or be cancelled.

The phases of a process are those of a tunnel's.  Times are whole seconds, and
`datetime.now()`, which is the local time, is not set back while a loop runs.
-/

/-- `YAGNA_CHECK_INTERVAL`. -/
def yagnaCheckInterval : Nat := 2

/-- `YAGNA_START_TIMEOUT`. -/
def yagnaStartTimeout : Nat := 120

/-- `YAGNA_APPKEY` and `YAGNA_APPNAME`. -/
structure YagnaSettings where
  yagnaAppkey : Option String := none
  yagnaAppname : String := "ray-on-golem"
  deriving DecidableEq, Repr

/-- The daemon, with whether `terminate()` reached it while it ran. -/
structure YagnaProcess where
  phase : ProcessPhase := .alive
  terminated : Bool := false
  deriving DecidableEq, Repr

/-- `returncode is not None`. -/
def YagnaProcess.ended (p : YagnaProcess) : Bool := p.phase = .returned || p.phase = .closed

/-- Where the task of `_on_yagna_early_exit` stands, and how it ended. -/
inductive EarlyExitPc
  | scheduled
  | communicating
  | warned
  | cancelled
  deriving DecidableEq, Repr

/-- The task is `done()`. -/
def EarlyExitPc.over : EarlyExitPc → Bool
  | .scheduled | .communicating => false
  | .warned | .cancelled => true

/-- The task, with whether it was cancelled. -/
structure EarlyExitTask where
  pc : EarlyExitPc := .scheduled
  cancelled : Bool := false
  deriving DecidableEq, Repr

/-- How `start()` raised: the daemon ended, or was not there in time, or an await raised. -/
inductive YagnaStartError
  | exited
  | timeout
  | awaited
  deriving DecidableEq, Repr

/-- How `stop()` raised. -/
inductive YagnaStopError
  | attributeError
  | processLookupError
  | cancelledError
  deriving DecidableEq, Repr

/-- Where the service stands.  `deadline` and `count` are those of the loop of `_run_yagna`,
where `count` is the number of rounds that were begun. -/
inductive YagnaPc
  | starting
  | spawning
  | communicating (deadline count wake : Nat)
  | checking (deadline count : Nat)
  | listing
  | creating
  | serving
  | cancelling
  | waiting
  | stopped
  | startRaised (e : YagnaStartError)
  | stopRaised (e : YagnaStopError)
  deriving DecidableEq, Repr

/-- An application key of yagna. -/
structure YagnaApp where
  name : String
  key : String
  deriving DecidableEq, Repr

/-- The service with its daemon and its task; `external` is what the first check found. -/
structure Yagna where
  pc : YagnaPc := .starting
  now : Nat := 0
  external : Bool := false
  yagnaAppkey : Option String := none
  yagnaProcess : Option YagnaProcess := none
  earlyExitTask : Option EarlyExitTask := none
  deriving DecidableEq, Repr

namespace Yagna

open Runs

/-- The head of the loop of `_run_yagna`. -/
def poll (now deadline count : Nat) : YagnaPc :=
  if now < deadline then .communicating deadline (count + 1) (now + yagnaCheckInterval)
  else .startRaised .timeout

/-- `start()` goes on with `_get_or_create_yagna_appkey`. -/
def getOrCreateYagnaAppkey (settings : YagnaSettings) (s : Yagna) : Yagna :=
  match settings.yagnaAppkey with
  | some key =>
      if key = "" then { s with pc := .listing }
      else { s with pc := .serving, yagnaAppkey := some key }
  | none => { s with pc := .listing }

/-- `_check_if_yagna_is_running` answers. -/
def checked (settings : YagnaSettings) (s : Yagna) (running : Bool) : Option Yagna :=
  match s.pc with
  | .starting =>
      if running then some (getOrCreateYagnaAppkey settings { s with external := true })
      else some { s with pc := .spawning }
  | .checking deadline count =>
      if running then
        some (getOrCreateYagnaAppkey settings { s with earlyExitTask := some {} })
      else some { s with pc := poll s.now deadline count }
  | _ => none

/-- `run_subprocess` returns. -/
def spawned (s : Yagna) : Option Yagna :=
  if s.pc = .spawning then
    some { s with
      yagnaProcess := some {}
      pc := poll s.now (s.now + yagnaStartTimeout) 0 }
  else none

/-- `communicate()` returns within a round. -/
def communicated (s : Yagna) : Option Yagna :=
  match s.pc with
  | .communicating _ _ _ =>
      if s.yagnaProcess.any YagnaProcess.ended then some { s with pc := .startRaised .exited }
      else none
  | _ => none

/-- `wait_for` reaches the end of a round. -/
def timedOut (s : Yagna) : Option Yagna :=
  match s.pc with
  | .communicating deadline count wake =>
      if wake ≤ s.now then some { s with pc := .checking deadline count } else none
  | _ => none

/-- The list of application keys is there. -/
def listed (settings : YagnaSettings) (s : Yagna) (apps : List YagnaApp) : Option Yagna :=
  if s.pc = .listing then
    match apps.find? fun app => app.name == settings.yagnaAppname with
    | some app => some { s with pc := .serving, yagnaAppkey := some app.key }
    | none => some { s with pc := .creating }
  else none

/-- The new application key is there. -/
def created (s : Yagna) (key : String) : Option Yagna :=
  if s.pc = .creating then some { s with pc := .serving, yagnaAppkey := some key } else none

/-- An await of `start()` raises.  If it is the one for a new process, none is left of it. -/
def raised (s : Yagna) : Option Yagna :=
  match s.pc with
  | .starting | .spawning | .communicating _ _ _ | .checking _ _ | .listing | .creating =>
      some { s with pc := .startRaised .awaited }
  | _ => none

/-- `stop()` up to its first await. -/
def stop (s : Yagna) : Option Yagna :=
  if s.pc = .serving then
    if s.yagnaProcess.all YagnaProcess.ended then some { s with pc := .stopped }
    else
      match s.earlyExitTask with
      | some t =>
          some { s with
            earlyExitTask := some { t with cancelled := t.cancelled || !t.pc.over }
            pc := .cancelling }
      | none => some { s with pc := .stopRaised .attributeError }
  else none

/-- The task is over, and `stop()` goes on up to its next await. -/
def terminate (s : Yagna) : Option Yagna :=
  if s.pc = .cancelling ∧ s.earlyExitTask.all (fun t => t.pc.over) then
    match s.yagnaProcess with
    | some p =>
        if p.phase = .closed then some { s with pc := .stopRaised .processLookupError }
        else
          some { s with
            yagnaProcess := some { p with terminated := p.terminated || p.phase = .alive }
            pc := .waiting }
    | none => some { s with pc := .stopRaised .attributeError }
  else none

/-- The end of a `stop()`, unless it is cancelled. -/
def waited (s : Yagna) (cancelled : Bool) : Option Yagna :=
  if s.pc = .waiting then
    if cancelled then some { s with pc := .stopRaised .cancelledError }
    else if s.yagnaProcess.all YagnaProcess.ended then some { s with pc := .stopped }
    else none
  else none

/-- The daemon goes on to its next phase. -/
def processEnds (s : Yagna) : Option Yagna :=
  s.yagnaProcess.bind fun p =>
    match p.phase with
    | .alive => some { s with yagnaProcess := some { p with phase := .exited } }
    | .exited => some { s with yagnaProcess := some { p with phase := .returned } }
    | .returned => some { s with yagnaProcess := some { p with phase := .closed } }
    | .closed => none

/-- The task of `_on_yagna_early_exit` runs for the first time. -/
def communicate (s : Yagna) : Option Yagna :=
  s.earlyExitTask.bind fun t =>
    if t.pc = .scheduled ∧ t.cancelled = false then
      some { s with earlyExitTask := some { t with pc := .communicating } }
    else none

/-- `communicate()` returns to the task, which warns. -/
def warn (s : Yagna) : Option Yagna :=
  s.earlyExitTask.bind fun t =>
    if t.pc = .communicating ∧ t.cancelled = false ∧ s.yagnaProcess.all YagnaProcess.ended then
      some { s with earlyExitTask := some { t with pc := .warned } }
    else none

/-- `CancelledError` reaches the task. -/
def cancelDelivered (s : Yagna) : Option Yagna :=
  s.earlyExitTask.bind fun t =>
    if t.cancelled = true ∧ t.pc.over = false then
      some { s with earlyExitTask := some { t with pc := .cancelled } }
    else none

/-- What can happen. -/
inductive Act
  | checked (running : Bool)
  | spawned
  | communicated
  | timedOut
  | listed (apps : List YagnaApp)
  | created (key : String)
  | raised
  | stop
  | terminate
  | waited (cancelled : Bool)
  | processEnds
  | communicate
  | warn
  | cancelDelivered
  | tick (seconds : Nat)
  deriving DecidableEq, Repr

/-- One step of the service. -/
def step (settings : YagnaSettings) (s : Yagna) : Act → Option Yagna
  | .checked running => s.checked settings running
  | .spawned => s.spawned
  | .communicated => s.communicated
  | .timedOut => s.timedOut
  | .listed apps => s.listed settings apps
  | .created key => s.created key
  | .raised => s.raised
  | .stop => s.stop
  | .terminate => s.terminate
  | .waited cancelled => s.waited cancelled
  | .processEnds => s.processEnds
  | .communicate => s.communicate
  | .warn => s.warn
  | .cancelDelivered => s.cancelDelivered
  | .tick seconds => some { s with now := s.now + seconds }

/-- The service when `start()` is called. -/
def Initial (s : Yagna) : Prop := ∃ now, s = { now := now }

end Yagna
