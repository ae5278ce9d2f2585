import Mathlib.Data.Nat.Digits.Defs
import RayOnGolem.Lib.GuardedRun
import RayOnGolem.Lib.ProcessTable
import RayOnGolem.Models

/-!
# Starting and stopping the web server

The `start` and `stop` commands with the methods of `RayOnGolemCtl` that they call, as they
run beside each other, beside the processes of the machine and beside a web server that may
answer anything.  A `CtlSession` is one command between two calls of the outside world; what
it asks of the file and the processes is a `CtlEffect`.

The commands are given for one data directory, so that they share one pid file.  `_save_pid`
opens it, which empties it, and writes to its beginning later, so that two commands in
`_save_pid` at once mix their numbers.

The logger of the commands raises `RayOnGolemCtlError` in `error`, and so does the one of the
node provider, so `error` ends a method here.  An interrupt may end a command anywhere.
Times are whole seconds, and the clock that `datetime.now()` and the file system read is not
set back.
-/

/-- What a process runs: a web server, with its arguments, or anything else. -/
inductive Program
  | webserver (args : List String)
  | other
  deriving DecidableEq, Repr

/-- The process is one that `start_webserver` made. -/
def Program.isWebserver : Program → Bool
  | .webserver _ => true
  | .other => false

/-- `str(pid)`, as its digits. -/
def pidText (pid : Nat) : List Nat := if pid = 0 then [0] else (Nat.digits 10 pid).reverse

/-- `int(text)` of digits; there is no number in an empty text. -/
def intOfText (text : List Nat) : Option Nat :=
  if text = [] then none else some (Nat.ofDigits 10 text.reverse)

/-- What is written is read. -/
theorem intOfText_pidText (pid : Nat) : intOfText (pidText pid) = some pid := by
  by_cases hzero : pid = 0
  · subst hzero
    rfl
  · have hne : Nat.digits 10 pid ≠ [] := Nat.digits_ne_nil_iff_ne_zero.mpr hzero
    rw [pidText, if_neg hzero, intOfText, if_neg (by simpa using hne), List.reverse_reverse,
      Nat.ofDigits_digits]

/-- The file under the name of the pid file: which file it is, the digits in it, and its
`st_mtime`. -/
structure PidFile where
  inode : Nat
  text : List Nat
  mtime : Nat
  deriving DecidableEq, Repr

namespace PidFile

/-- The number in the file. -/
def content (f : PidFile) : Option Nat := intOfText f.text

/-- A write at the beginning of the file leaves what stands behind it. -/
def write (f : PidFile) (text : List Nat) (now : Nat) : PidFile :=
  { f with text := text ++ f.text.drop text.length, mtime := now }

theorem content_write {f : PidFile} (h : f.text = []) (pid now : Nat) :
    (f.write (pidText pid) now).content = some pid := by
  simp [content, write, h, intOfText_pidText]

end PidFile

/-- `RAY_ON_GOLEM_CHECK_INTERVAL`. -/
def rayOnGolemCheckInterval : Nat := 2

/-- `RAY_ON_GOLEM_START_TIMEOUT`. -/
def rayOnGolemStartTimeout : Nat := 300

/-- `RAY_ON_GOLEM_SHUTDOWN_TIMEOUT`. -/
def rayOnGolemShutdownTimeout : Nat := 60

/-- `RAY_ON_GOLEM_STOP_TIMEOUT`. -/
def rayOnGolemStopTimeout : Nat := 180

/-- The loops that a deadline ends: of `start_webserver`, `_wait_for_shutdown` and
`_wait_for_process_stop`. -/
inductive CtlLoop
  | start
  | shutdown
  | processStop
  deriving DecidableEq, Repr

/-- The timeout of a loop. -/
def CtlLoop.timeout : CtlLoop → Nat
  | .start => rayOnGolemStartTimeout
  | .shutdown => rayOnGolemShutdownTimeout
  | .processStop => rayOnGolemStopTimeout

/-- The options of `start` and `stop`, apart from the data directory. -/
inductive CtlCommand
  | start (port : Nat) (registryStats selfShutdown : Bool)
  | stop (force kill : Bool)
  deriving DecidableEq, Repr

/-- The process that `Popen` made: its place in the table and its number. -/
structure Popened where
  entry : Nat
  pid : Nat
  deriving DecidableEq, Repr

/-- Who called `get_process_info`: the loop of `_wait_for_process_stop`, or `stop` itself. -/
inductive InfoCaller
  | poll (deadline count : Nat)
  | final
  deriving DecidableEq, Repr

/-- How a command ends. -/
inductive CtlEnd
  | alreadyRunning
  | started
  | failed
  | cancelled
  | completed
  | stillRunning
  | terminated
  | raised
  deriving DecidableEq, Repr

/-- Where a command stands.  `deadline` and `count` are those of its loops, where `count` is
what the code counts in `_wait_for_process_stop` and else the number of rounds; `wake` is the
end of a sleep or of a timeout; `inode` is the file that `_save_pid` has opened. -/
inductive CtlPc
  | getStatus
  | spawn
  | truncatePid (child : Popened)
  | writePid (child : Popened) (inode : Nat)
  | startPoll (child : Popened) (deadline count : Nat)
  | communicate (child : Popened) (deadline count wake : Nat)
  | startServiceable (child : Popened) (deadline count : Nat)
  | stopServiceable (force : Bool)
  | shutdown (force : Bool)
  | confirmForce
  | shutdownBegin
  | shutdownPoll (deadline count : Nat)
  | shutdownSleep (deadline count wake : Nat)
  | shutdownServiceable (deadline count : Nat)
  | processPoll (deadline count : Nat)
  | readPid (caller : InfoCaller)
  | openProcess (caller : InfoCaller) (pid : Nat)
  | statPid (caller : InfoCaller) (process : ProcessTable.Handle)
  | processSleep (deadline count wake : Nat)
  | clearStopped
  | confirmKill (process : ProcessTable.Handle)
  | kill (process : ProcessTable.Handle)
  | clearKilled
  | ended (e : CtlEnd)
  deriving DecidableEq, Repr

/-- What a command learnt or did, and when one of its loops began and when it passed its
deadline. -/
inductive CtlEvent
  | status (shuttingDown : Option Bool)
  | serviceable (answer : Option Bool)
  | shutdown (force : Bool) (state : ShutdownState)
  | confirm (kill yes : Bool)
  | processInfo (found : Bool)
  | spawned
  | exited
  | killed
  | waiting (loop : CtlLoop) (since : Nat)
  | timedOut (loop : CtlLoop) (now : Nat)
  deriving DecidableEq, Repr

/-- What a command does to the pid file and the processes. -/
inductive CtlEffect
  | none
  | spawn (pid : Nat) (args : List String)
  | truncate
  | write (inode pid : Nat)
  | unlink
  | wait (entry : Nat)
  | kill (process : ProcessTable.Handle)
  deriving DecidableEq, Repr

/-- A running command; `history` has the newest event first. -/
structure CtlSession where
  command : CtlCommand
  pc : CtlPc
  history : List CtlEvent := []
  deriving DecidableEq, Repr

/-- What a command sees when it goes on: the clock, its data directory, the pid file and the
number of a new file, and the processes. -/
structure CtlView where
  now : Nat
  datadir : Option String
  pidfile : Option PidFile
  inodes : Nat
  find : Nat → Option ProcessTable.Handle
  entries : Nat

/-- The answers of the outside world: of the web server, of the user, of `Popen`, and the
ends of sleeps and timeouts. -/
inductive CtlAct
  | go
  | status (shuttingDown : Option Bool)
  | serviceable (answer : Option Bool)
  | shutdown (state : ShutdownState)
  | confirm (yes : Bool)
  | spawned (pid : Nat)
  | exited
  | slept
  | raised
  deriving DecidableEq, Repr

/-- The arguments that `start_webserver` gives to the web server. -/
def webserverArgs (port : Nat) (registryStats selfShutdown : Bool) (datadir : Option String) :
    List String :=
  ["webserver", "-p", toString port,
    if registryStats then "--registry-stats" else "--no-registry-stats",
    if selfShutdown then "--self-shutdown" else "--no-self-shutdown"] ++
    match datadir with
    | some d => ["--datadir", d]
    | none => []

namespace CtlCommand

/-- The first call of the command. -/
def entry : CtlCommand → CtlPc
  | .start _ _ _ => .getStatus
  | .stop _ _ => .stopServiceable false

/-- What the command does when `wait_for_stop` returned. -/
def afterWait : CtlCommand → CtlPc
  | .start _ _ _ => .spawn
  | .stop _ _ => .readPid .final

/-- What the command does when `wait_for_stop` raised a `RayOnGolemCtlError`. -/
def afterTimeout : CtlCommand → CtlPc
  | .start _ _ _ => .ended .failed
  | .stop _ _ => .readPid .final

/-- The arguments of the process that the command may create. -/
def args (datadir : Option String) : CtlCommand → List String
  | .start port registryStats selfShutdown =>
      webserverArgs port registryStats selfShutdown datadir
  | .stop _ _ => []

/-- `--force`. -/
def force : CtlCommand → Bool
  | .start _ _ _ => false
  | .stop force _ => force

/-- `--kill`. -/
def kill : CtlCommand → Bool
  | .start _ _ _ => false
  | .stop _ kill => kill

end CtlCommand

/-- The process that a command made and has not waited for. -/
def CtlPc.child : CtlPc → Option Popened
  | .truncatePid c | .writePid c _ | .startPoll c _ _ | .communicate c _ _ _
  | .startServiceable c _ _ => some c
  | _ => none

/-- `get_process_info` has read the pid file and has not returned. -/
def CtlPc.inInfo : CtlPc → Bool
  | .openProcess _ _ | .statPid _ _ => true
  | _ => false

/-- `_save_pid` has opened the pid file and has not written. -/
def CtlPc.inSave : CtlPc → Bool
  | .writePid _ _ => true
  | _ => false

namespace CtlSession

/-- The command goes on, and may have learnt something. -/
def next (s : CtlSession) (pc : CtlPc) (events : List CtlEvent) : CtlSession :=
  { s with pc := pc, history := events ++ s.history }

/-- `get_process_info` found no process. -/
def notFound (s : CtlSession) : InfoCaller → CtlSession
  | .poll _ count =>
      s.next (if count = 0 then s.command.afterWait else .clearStopped) [.processInfo false]
  | .final => s.next (.ended .completed) [.processInfo false]

/-- `get_process_info` found a process. -/
def found (s : CtlSession) (now : Nat) (process : ProcessTable.Handle) : InfoCaller → CtlSession
  | .poll deadline count =>
      s.next (.processSleep deadline (count + 1) (now + rayOnGolemCheckInterval))
        [.processInfo true]
  | .final =>
      s.next (if s.command.kill then .kill process else .confirmKill process) [.processInfo true]

/-- One step of a command that begins or ends no wait by itself. -/
def go (s : CtlSession) (v : CtlView) : Option (CtlEffect × CtlSession) :=
  match s.pc with
  | .truncatePid c =>
      some (.truncate, s.next (.writePid c ((v.pidfile.map PidFile.inode).getD v.inodes)) [])
  | .writePid c inode =>
      some (.write inode c.pid,
        s.next (.startPoll c (v.now + rayOnGolemStartTimeout) 0) [.waiting .start v.now])
  | .startPoll c deadline count =>
      some (.none, if v.now < deadline then
        s.next (.communicate c deadline count (v.now + rayOnGolemCheckInterval)) []
        else s.next (.ended .failed) [.timedOut .start v.now])
  | .shutdownPoll deadline count =>
      some (.none, if v.now < deadline then
        s.next (.shutdownSleep deadline count (v.now + rayOnGolemCheckInterval)) []
        else s.next s.command.afterTimeout [.timedOut .shutdown v.now])
  | .processPoll deadline count =>
      some (.none, if v.now < deadline then s.next (.readPid (.poll deadline count)) []
        else s.next s.command.afterTimeout [.timedOut .processStop v.now])
  | .readPid caller =>
      match v.pidfile.bind PidFile.content with
      | some pid => some (.none, s.next (.openProcess caller pid) [])
      | none => some (.none, s.notFound caller)
  | .openProcess caller pid =>
      match v.find pid with
      | some process => some (.none, s.next (.statPid caller process) [])
      | none => some (.none, s.notFound caller)
  | .statPid caller process =>
      match v.pidfile with
      | some f =>
          some (.none, if f.mtime ≥ process.created then s.found v.now process caller
            else s.notFound caller)
      | none => some (.none, s.notFound caller)
  | .clearStopped => some (.unlink, s.next s.command.afterWait [])
  | .kill process => some (.kill process, s.next .clearKilled [.killed])
  | .clearKilled => some (.unlink, s.next (.ended .terminated) [])
  | _ => none

/-- `_wait_for_shutdown` returns, as there is no web server any more, and
`_wait_for_process_stop` begins. -/
def waitForProcess (s : CtlSession) (now : Nat) : CtlSession :=
  s.next (.processPoll (now + rayOnGolemStopTimeout) 0)
    [.waiting .processStop now, .serviceable none]

/-- `is_webserver_serviceable` returns. -/
def serviceable (s : CtlSession) (v : CtlView) (answer : Option Bool) : Option CtlSession :=
  match s.pc with
  | .startServiceable c deadline count =>
      some (s.next (if answer = some true then .ended .started
        else .startPoll c deadline count) [.serviceable answer])
  | .stopServiceable force =>
      some (s.next (if answer = some true then .shutdown force else .shutdownBegin)
        [.serviceable answer])
  | .shutdownBegin =>
      some (if answer = none then s.waitForProcess v.now
        else s.next (.shutdownPoll (v.now + rayOnGolemShutdownTimeout) 0)
          [.waiting .shutdown v.now, .serviceable answer])
  | .shutdownServiceable deadline count =>
      some (if answer = none then s.waitForProcess v.now
        else s.next (.shutdownPoll deadline count) [.serviceable answer])
  | _ => none

/-- A sleep or the timeout of `communicate` ends. -/
def slept (s : CtlSession) (v : CtlView) : Option CtlSession :=
  match s.pc with
  | .communicate c deadline count wake =>
      if wake ≤ v.now then some (s.next (.startServiceable c deadline (count + 1)) []) else none
  | .shutdownSleep deadline count wake =>
      if wake ≤ v.now then some (s.next (.shutdownServiceable deadline (count + 1)) []) else none
  | .processSleep deadline count wake =>
      if wake ≤ v.now then some (s.next (.processPoll deadline count) []) else none
  | _ => none

/-- The user answers a question. -/
def confirm (s : CtlSession) (yes : Bool) : Option CtlSession :=
  match s.pc with
  | .confirmForce =>
      some (s.next (if yes then .stopServiceable true else .ended .cancelled)
        [.confirm false yes])
  | .confirmKill process =>
      some (s.next (if yes then .kill process else .ended .stillRunning) [.confirm true yes])
  | _ => none

/-- One step of a command. -/
def step (s : CtlSession) (v : CtlView) : CtlAct → Option (CtlEffect × CtlSession)
  | .go => s.go v
  | .status shuttingDown =>
      match s.pc with
      | .getStatus =>
          some (.none, s.next
            (match shuttingDown with
              | none => .spawn
              | some true => .shutdownBegin
              | some false => .ended .alreadyRunning) [.status shuttingDown])
      | _ => none
  | .serviceable answer => (s.serviceable v answer).map fun s => (.none, s)
  | .shutdown state =>
      match s.pc with
      | .shutdown force =>
          some (.none, s.next
            (if force = true ∨ state ≠ .clusterNotEmpty then .shutdownBegin
              else if s.command.force then .stopServiceable true
              else .confirmForce) [.shutdown force state])
      | _ => none
  | .confirm yes => (s.confirm yes).map fun s => (.none, s)
  | .spawned pid =>
      match s.pc with
      | .spawn =>
          some (.spawn pid (s.command.args v.datadir),
            s.next (.truncatePid ⟨v.entries, pid⟩) [.spawned])
      | _ => none
  | .exited =>
      match s.pc with
      | .communicate c _ _ _ => some (.wait c.entry, s.next (.ended .failed) [.exited])
      | _ => none
  | .slept => (s.slept v).map fun s => (.none, s)
  | .raised =>
      match s.pc with
      | .ended _ => none
      | _ => some (.none, s.next (.ended .raised) [])

end CtlSession

/-- The machine: its processes, the data directory of the commands with the pid file in it,
the commands, and the processes that `stop` killed.  `inodes` numbers new files. -/
structure CtlWorld where
  processes : ProcessTable.Table Program := {}
  datadir : Option String := none
  pidfile : Option PidFile := none
  inodes : Nat := 0
  sessions : List CtlSession := []
  killed : List Nat := []
  deriving DecidableEq, Repr

namespace CtlWorld

open Runs

/-- What a command sees. -/
def view (w : CtlWorld) : CtlView where
  now := w.processes.now
  datadir := w.datadir
  pidfile := w.pidfile
  inodes := w.inodes
  find := w.processes.find
  entries := w.processes.entries.length

/-- What a command does to the file and the processes.  `open("w")` empties the file that is
there or makes a new one, and the write goes to that file, which may have been removed.
`kill()` does nothing when the handle names no process any more. -/
def perform (w : CtlWorld) : CtlEffect → Option CtlWorld
  | .none => some w
  | .spawn pid args =>
      (w.processes.spawn pid (.webserver args)).map fun T => { w with processes := T }
  | .truncate =>
      match w.pidfile with
      | some f => some { w with pidfile := some ⟨f.inode, [], w.processes.now⟩ }
      | none =>
          some { w with
            pidfile := some ⟨w.inodes, [], w.processes.now⟩
            inodes := w.inodes + 1 }
  | .write inode pid =>
      some { w with
        pidfile := w.pidfile.map fun f =>
          if f.inode = inode then f.write (pidText pid) w.processes.now else f }
  | .unlink => some { w with pidfile := none }
  | .wait entry => (w.processes.free entry).map fun T => { w with processes := T }
  | .kill process =>
      match w.processes.resolve process with
      | some i => some { w with killed := w.killed ++ [i] }
      | none => some w

/-- What can happen: time passes, other processes come, processes are gone, a command is
given, or one goes on. -/
inductive Act
  | tick (seconds : Nat)
  | spawnOther (pid : Nat)
  | free (entry : Nat)
  | command (c : CtlCommand)
  | session (i : Nat) (a : CtlAct)
  deriving DecidableEq, Repr

/-- A process keeps its number while the command that made it may wait for it. -/
def hasParent (w : CtlWorld) (entry : Nat) : Bool :=
  w.sessions.any fun s => s.pc.child.any fun c => c.entry = entry

/-- One step of the machine. -/
def step (w : CtlWorld) : Act → Option CtlWorld
  | .tick seconds => some { w with processes := w.processes.tick seconds }
  | .spawnOther pid => (w.processes.spawn pid .other).map fun T => { w with processes := T }
  | .free entry =>
      if w.hasParent entry then none
      else (w.processes.free entry).map fun T => { w with processes := T }
  | .command c => some { w with sessions := w.sessions ++ [⟨c, c.entry, []⟩] }
  | .session i a =>
      match w.sessions[i]? with
      | some s =>
          match s.step w.view a with
          | some (effect, s') =>
              (w.perform effect).map fun w => { w with sessions := w.sessions.set i s' }
          | none => none
      | none => none

/-- A machine without a pid file and commands. -/
def Initial (w : CtlWorld) : Prop :=
  w.pidfile = none ∧ w.sessions = [] ∧ w.killed = [] ∧ w.processes.Wf

/-- Where the command stands that goes on by itself, if it is one. -/
def writer (w : CtlWorld) : Act → CtlPc
  | .session i .go => ((w.sessions[i]?).map CtlSession.pc).getD .getStatus
  | _ => .getStatus

/-- No command writes the pid file while another one is in `get_process_info`. -/
def apartFromInfo (w : CtlWorld) (a : Act) : Bool :=
  match w.writer a with
  | .truncatePid _ | .writePid _ _ => w.sessions.all fun s => !s.pc.inInfo
  | _ => true

/-- No command opens the pid file for writing while another one has it open for writing. -/
def apartFromSave (w : CtlWorld) (a : Act) : Bool :=
  match w.writer a with
  | .truncatePid _ => w.sessions.all fun s => !s.pc.inSave
  | _ => true

/-- The commands write the pid file apart from each other. -/
def apart (w : CtlWorld) (a : Act) : Bool := w.apartFromInfo a && w.apartFromSave a

variable {w w' : CtlWorld}

/-- What a command asks changes no command. -/
theorem sessions_perform {effect : CtlEffect} (h : w.perform effect = some w') :
    w'.sessions = w.sessions := by
  cases effect with
  | spawn pid args =>
      obtain ⟨T', -, rfl⟩ := Option.map_eq_some_iff.mp h
      rfl
  | wait entry =>
      obtain ⟨T', -, rfl⟩ := Option.map_eq_some_iff.mp h
      rfl
  | truncate | kill process =>
      simp only [perform] at h
      split at h <;> cases h <;> rfl
  | _ =>
      cases h
      rfl

/-- What a command asks takes no time. -/
theorem now_perform {effect : CtlEffect} (h : w.perform effect = some w') :
    w'.processes.now = w.processes.now := by
  cases effect with
  | spawn pid args =>
      obtain ⟨T', hspawn, rfl⟩ := Option.map_eq_some_iff.mp h
      rw [(ProcessTable.Table.spawn_cases hspawn).1]
  | wait entry =>
      obtain ⟨T', hfree, rfl⟩ := Option.map_eq_some_iff.mp h
      obtain ⟨e, -, -, rfl⟩ := ProcessTable.Table.free_cases hfree
      rfl
  | truncate | kill process =>
      simp only [perform] at h
      split at h <;> cases h <;> rfl
  | _ =>
      cases h
      rfl

end CtlWorld
