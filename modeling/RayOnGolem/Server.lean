import RayOnGolem.RayService

/-!
# The web server

The handlers that may add nodes or end the process.  `request_nodes` and
`terminate_node` test the application's `shutting_down` flag on entry
(`reject_if_shutting_down`), await the body of the request, and then call the
service.  `shutdown` decides on what the service knows at that moment and sets the
flag; it has no await after its own body is there, so it is a single step.

All other steps are those of the service.  Among them is `RayService.stop`, a
cleanup of the application that runs once its connections are closed, whether
the exit came from `shutdown` or from a signal.
-/

/-- `ShutdownRequestData`. -/
structure ShutdownRequestData where
  ignoreSelfShutdown : Bool := false
  forceShutdown : Bool := false
  shutdownDelay : Option Int := none
  deriving DecidableEq, Repr

/-- A handler that passed `reject_if_shutting_down` and awaits its request's body. -/
inductive Handler
  | requestNodes (name : String) (q : Request)
  | terminateNode (name : String) (nodeId : Nat)
  deriving DecidableEq, Repr

/-- The call of the service that the handler makes. -/
def Handler.call : Handler → RayService.Act
  | .requestNodes name q => .requestNodes name q
  | .terminateNode name nodeId => .terminateNode name nodeId

/-- The application.  `answers` records what shutdown requests were answered. -/
structure Server where
  service : RayService := {}
  selfShutdown : Bool
  shuttingDown : Bool := false
  reading : List Handler := []
  answers : List ShutdownState := []

namespace Server

/-- Requests are served until the cleanup begins. -/
def serves (s : Server) : Bool := s.service.stopping == .notCalled

/-- `reject_if_shutting_down`: a rejected request changes nothing. -/
def rejectIfShuttingDown (func : Server → Server) (s : Server) : Server :=
  if s.shuttingDown then s else func s

/-- A handler runs up to `await request.text()`. -/
def enter (h : Handler) : Server → Server :=
  rejectIfShuttingDown fun s => { s with reading := s.reading ++ [h] }

/-- The body is there; the handler calls the service. -/
def read (digest : NodeConfigData → String) (s : Server) (i : Nat) : Option Server :=
  match s.reading[i]? with
  | some h =>
      (s.service.step digest h.call).map fun service =>
        { s with service := service, reading := s.reading.eraseIdx i }
  | none => none

/-- The body does not come, or does not parse. -/
def abort (s : Server) (i : Nat) : Option Server :=
  if i < s.reading.length then some { s with reading := s.reading.eraseIdx i } else none

/-- What `shutdown` decides. -/
def shutdownState (s : Server) (r : ShutdownRequestData) : ShutdownState :=
  if !(r.ignoreSelfShutdown || s.selfShutdown) then .notEnabled
  else if s.service.isAnyNodeRunning then
    if r.forceShutdown then .forcedShutdown else .clusterNotEmpty
  else .willShutdown

/-- `shutdown`.  Without a delay `call_later` raises, which leaves the flag as it
is, and the request gets no answer. -/
def shutdown (s : Server) (r : ShutdownRequestData) : Server :=
  let state := s.shutdownState r
  if state = .willShutdown ∨ state = .forcedShutdown then
    match r.shutdownDelay with
    | some _ => { s with shuttingDown := true, answers := s.answers ++ [state] }
    | none => s
  else { s with answers := s.answers ++ [state] }

/-- What can happen to the server. -/
inductive Act
  | requestNodes (name : String) (q : Request)
  | terminateNode (name : String) (nodeId : Nat)
  | read (i : Nat)
  | abort (i : Nat)
  | shutdown (r : ShutdownRequestData)
  | service (a : RayService.Act)
  deriving DecidableEq, Repr

/-- The steps that the service makes without a handler: only handlers call
`request_nodes` and `terminate_node`. -/
def internal : RayService.Act → Bool
  | .requestNodes _ _ => false
  | .terminateNode _ _ => false
  | _ => true

/-- One step of the server. -/
def step (digest : NodeConfigData → String) (s : Server) : Act → Option Server
  | .requestNodes name q => if s.serves then some (enter (.requestNodes name q) s) else none
  | .terminateNode name nodeId =>
      if s.serves then some (enter (.terminateNode name nodeId) s) else none
  | .read i => if s.serves then s.read digest i else none
  | .abort i => s.abort i
  | .shutdown r => if s.serves then some (s.shutdown r) else none
  | .service a =>
      if internal a then (s.service.step digest a).map fun service => { s with service := service }
      else none

/-- The application as `create_application` leaves it. -/
def Initial (s : Server) : Prop := ∃ selfShutdown, s = { selfShutdown := selfShutdown }

end Server
