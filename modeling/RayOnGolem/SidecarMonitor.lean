import RayOnGolem.ClusterNodeStep

/-!
# The monitor tasks of a node

The two `_monitor` loops, each with the awaited calls of the helpers it uses:
`verify_ssh_connection` with its attempts and `restart_ssh_server` for the ssh monitor,
`activity.get_state()` for the activity monitor.  Every call may return or raise.  A monitor
is the position of its task, its counters, and the calls of
`_handle_monitor_check_failure`; the ssh monitor also keeps the attempts of its checks.

`MonitorTask.Move` are the effects that the steps of both loops have on the task.  Main
results:

* `SshMonitor.step_cases` -- what a step of the ssh monitor does;
* `ActivityMonitor.step_move`, `SshMonitor.step_move` -- every step moves the task;
* `ActivityMonitor.step_tracked`, `SshMonitor.step_tracked` -- the monitor tasks live the
  life that the node's model gives to a sidecar.
-/

/-- The classes of exceptions that the loops tell apart; a `baseException` is none of the
`Exception`s, such as the `CancelledError` of a call that was cancelled elsewhere. -/
inductive Raised
  | rayOnGolem
  | exception
  | baseException
  deriving DecidableEq, Repr

/-- How an awaited call ends. -/
inductive Answer
  | returned
  | raised (e : Raised)
  deriving DecidableEq, Repr

/-! ### The task -/

/-- How a task ended. -/
inductive TaskEnd
  | returned
  | raised (e : Raised)
  | cancelled
  deriving DecidableEq, Repr

/-- The task of a monitor, whose loop has positions in `π`: where it stands or how it
ended, whether `stop()` cancelled it, and the calls of `_handle_monitor_check_failure`. -/
structure MonitorTask (π : Type) where
  pc : π ⊕ TaskEnd
  stopRequested : Bool := false
  handled : Nat := 0
  deriving DecidableEq, Repr

namespace MonitorTask

variable {π : Type}

/-- `is_running()`. -/
def isRunning (t : MonitorTask π) : Bool := t.pc.isLeft

/-- The sidecar's `stop()` up to the end of the task. -/
def stop (t : MonitorTask π) : MonitorTask π :=
  if t.isRunning then { t with stopRequested := true } else t

/-- `CancelledError` reaches the task, which catches it nowhere. -/
def cancelled (t : MonitorTask π) : Option (MonitorTask π) :=
  if t.stopRequested = true ∧ t.isRunning = true then some { t with pc := .inr .cancelled }
  else none

/-- The loop is at `pc`; a task that was cancelled does not go on. -/
def At (t : MonitorTask π) (pc : π) : Prop := t.pc = .inl pc ∧ t.stopRequested = false

instance [DecidableEq π] (t : MonitorTask π) (pc : π) : Decidable (t.At pc) :=
  inferInstanceAs (Decidable (_ ∧ _))

/-- The loop goes on to its next await. -/
def goesOn (t : MonitorTask π) (pc : π) : MonitorTask π := { t with pc := .inl pc }

/-- An exception leaves the loop. -/
def raises (t : MonitorTask π) (e : Raised) : MonitorTask π := { t with pc := .inr (.raised e) }

/-- `_handle_monitor_check_failure()`, and the loop returns. -/
def handleMonitorCheckFailure (t : MonitorTask π) : MonitorTask π :=
  { t with pc := .inr .returned, handled := t.handled + 1 }

@[simp] theorem pc_goesOn (t : MonitorTask π) (pc : π) : (t.goesOn pc).pc = .inl pc := rfl

@[simp] theorem handled_goesOn (t : MonitorTask π) (pc : π) :
    (t.goesOn pc).handled = t.handled := rfl

@[simp] theorem pc_raises (t : MonitorTask π) (e : Raised) :
    (t.raises e).pc = .inr (.raised e) := rfl

@[simp] theorem handled_raises (t : MonitorTask π) (e : Raised) :
    (t.raises e).handled = t.handled := rfl

@[simp] theorem pc_stop (t : MonitorTask π) : t.stop.pc = t.pc := by
  unfold stop
  split <;> rfl

@[simp] theorem handled_stop (t : MonitorTask π) : t.stop.handled = t.handled := by
  unfold stop
  split <;> rfl

theorem isRunning_of_at {t : MonitorTask π} {pc : π} (h : t.At pc) : t.isRunning = true := by
  simp [isRunning, h.1]

/-- The effects of a step on the task; the flag says that an exception is handled nowhere. -/
inductive Move (t : MonitorTask π) : Bool → MonitorTask π → Prop
  | goesOn (pc pc' : π) (hat : t.At pc) : Move t false (t.goesOn pc')
  | fails (pc : π) (hat : t.At pc) : Move t false t.handleMonitorCheckFailure
  | raises (pc : π) (e : Raised) (hat : t.At pc) : Move t true (t.raises e)
  | stop : Move t false t.stop
  | cancelled (hstop : t.stopRequested = true) (hrunning : t.isRunning = true) :
      Move t false { t with pc := .inr .cancelled }

/-- The sidecar, as the node's model has it, stands where the task does. -/
structure Tracks (t : MonitorTask π) (c : Sidecar) : Prop where
  running : c.isRunning = t.isRunning
  waiting : c.stopping = .waiting ↔ t.stopRequested = true ∧ t.isRunning = true

/-- A loop that ends by itself. -/
theorem Tracks.exits {t t' : MonitorTask π} {pc : π} {c : Sidecar} (h : t.Tracks c)
    (hat : t.At pc) (hend : t'.isRunning = false) :
    ∃ a c', Sidecar.Step c a c' ∧ t'.Tracks c' := by
  have hrunning : c.isRunning = true := by rw [h.running, isRunning_of_at hat]
  have hwaiting : c.stopping ≠ .waiting := by
    intro hw
    have hrequested := (h.waiting.mp hw).1
    rw [hat.2] at hrequested
    cases hrequested
  refine ⟨_, _, .exited hrunning, hend.symm, fun hw => absurd hw hwaiting, fun ht => ?_⟩
  rw [hend] at ht
  cases ht.2

/-- **A monitor task lives the life of a monitor sidecar**: each of its steps is a step of
the sidecar or none at all.  The sidecar's `stop()` runs in a task that `gather` made. -/
theorem Move.tracked {t t' : MonitorTask π} {b : Bool} {c : Sidecar} (h : t.Move b t')
    (htracks : t.Tracks c)
    (hstop : t'.stopRequested ≠ t.stopRequested → c.stopping = .scheduled) :
    t'.Tracks c ∨ ∃ a c', Sidecar.Step c a c' ∧ t'.Tracks c' := by
  cases h with
  | goesOn pc pc' hat =>
      refine Or.inl ⟨?_, ?_⟩
      · rw [htracks.running, isRunning_of_at hat]
        rfl
      · rw [htracks.waiting, isRunning_of_at hat]
        rfl
  | fails pc hat => exact Or.inr (htracks.exits hat rfl)
  | raises pc e hat => exact Or.inr (htracks.exits hat rfl)
  | stop =>
      by_cases hrunning : t.isRunning = true
      · have hc : c.isRunning = true := by rw [htracks.running, hrunning]
        have hstopped : t.stop = { t with stopRequested := true } := by
          simp [MonitorTask.stop, hrunning]
        rw [hstopped] at hstop ⊢
        by_cases hrequested : t.stopRequested = true
        · -- it was cancelled before
          refine Or.inl ⟨htracks.running, ?_⟩
          rw [htracks.waiting, hrequested]
          rfl
        · have hscheduled := hstop fun heq => hrequested heq.symm
          refine Or.inr ⟨_, _, .stops hscheduled, ?_, ?_⟩
          · exact htracks.running
          · simp only [Sidecar.stop, hc, if_true, true_iff]
            exact ⟨trivial, hrunning⟩
      · have hsame : t.stop = t := by simp [MonitorTask.stop, hrunning]
        rw [hsame]
        exact Or.inl htracks
  | cancelled hrequested hrunning =>
      have hwaiting := htracks.waiting.mpr ⟨hrequested, hrunning⟩
      refine Or.inr ⟨_, _, .stopped hwaiting, rfl, ?_⟩
      simp [isRunning]

end MonitorTask

/-! ### The activity monitor -/

/-- The `ActivityState` that `get_state()` returns. -/
structure ActivityState where
  state : List (Option String)
  errorMessage : Option String := none
  deriving DecidableEq, Repr

/-- The activity is in a non-working state. -/
def ActivityState.failed (s : ActivityState) : Bool :=
  some "Terminated" ∈ s.state || some "Unresponsive" ∈ s.state || s.errorMessage.isSome

/-- The awaits of the loop of the activity monitor. -/
inductive ActivityMonitorPc
  | getState
  | checkSleep
  deriving DecidableEq, Repr

/-- The task of an `ActivityStateMonitorClusterNodeSidecar`. -/
structure ActivityMonitor where
  task : MonitorTask ActivityMonitorPc := { pc := .inl .getState }
  deriving DecidableEq, Repr

namespace ActivityMonitor

/-- What can happen.  A value that is no activity state makes the loop raise. -/
inductive Act
  | getState (r : Except Raised ActivityState)
  | slept
  | stop
  | cancelled

/-- One step. -/
def step (m : ActivityMonitor) : Act → Option ActivityMonitor
  | .getState r =>
      if m.task.At .getState then
        match r with
        | .error e => some ⟨m.task.raises e⟩
        | .ok state =>
            if state.failed then some ⟨m.task.handleMonitorCheckFailure⟩
            else some ⟨m.task.goesOn .checkSleep⟩
      else none
  | .slept => if m.task.At .checkSleep then some ⟨m.task.goesOn .getState⟩ else none
  | .stop => some ⟨m.task.stop⟩
  | .cancelled => m.task.cancelled.map ActivityMonitor.mk

/-- An exception that no handler of the loop catches. -/
def Act.unhandled : Act → Bool
  | .getState (.error _) => true
  | .getState (.ok _) | .slept | .stop | .cancelled => false

/-- **Every step of the activity monitor moves its task.** -/
theorem step_move {m m' : ActivityMonitor} {a : Act} (hs : m.step a = some m') :
    m.task.Move a.unhandled m'.task := by
  cases a with
  | getState r =>
      obtain ⟨hat, hs⟩ := Option.ite_none_right_eq_some.mp hs
      cases r with
      | error e =>
          cases hs
          exact .raises _ e hat
      | ok state =>
          dsimp only at hs
          split at hs
          · cases hs
            exact .fails _ hat
          · cases hs
            exact .goesOn _ _ hat
  | slept =>
      obtain ⟨hat, hs⟩ := Option.ite_none_right_eq_some.mp hs
      cases hs
      exact .goesOn _ _ hat
  | stop =>
      cases hs
      exact .stop
  | cancelled =>
      obtain ⟨t, ht, rfl⟩ := Option.map_eq_some_iff.mp hs
      obtain ⟨⟨hstop, hrunning⟩, ht⟩ := Option.ite_none_right_eq_some.mp ht
      cases ht
      exact .cancelled hstop hrunning

/-- The activity monitor of a node is one of its sidecars. -/
theorem step_tracked {m m' : ActivityMonitor} {a : Act} {c : Sidecar} (hs : m.step a = some m')
    (htracks : m.task.Tracks c)
    (hstop : m'.task.stopRequested ≠ m.task.stopRequested → c.stopping = .scheduled) :
    m'.task.Tracks c ∨ ∃ b c', Sidecar.Step c b c' ∧ m'.task.Tracks c' :=
  (step_move hs).tracked htracks hstop

end ActivityMonitor

/-! ### The ssh monitor -/

/-- How a subprocess ends. -/
inductive Subprocess
  | notCreated (e : Raised)
  | timedOut
  | lost (e : Raised)
  | exited (returncode : Int)
  deriving DecidableEq, Repr

/-- `run_subprocess_output`. -/
def runSubprocessOutput : Subprocess → Answer
  | .notCreated e => .raised e
  | .timedOut => .raised .rayOnGolem
  | .lost e => .raised e
  | .exited returncode => if returncode ≠ 0 then .raised .rayOnGolem else .returned

/-- The awaits of `verify_ssh_connection`. -/
inductive VerifyPc
  | providerDesc
  | attempt (retry : Nat)
  | retrySleep (retry : Nat)
  deriving DecidableEq, Repr

/-- What `verify_ssh_connection` awaits ends. -/
inductive VerifyAct
  | providerDesc (a : Answer)
  | attempt (p : Subprocess)
  | slept
  deriving DecidableEq, Repr

/-- `verify_ssh_connection` with `num_retries` attempts: the next await, or how it ends. -/
def VerifyPc.step (numRetries : Nat) : VerifyPc → VerifyAct → Option (VerifyPc ⊕ Answer)
  | .providerDesc, .providerDesc .returned => some (.inl (.attempt numRetries))
  | .providerDesc, .providerDesc (.raised e) => some (.inr (.raised e))
  | .attempt retry, .attempt p =>
      match runSubprocessOutput p with
      | .raised .rayOnGolem =>
          if 0 < retry - 1 then some (.inl (.retrySleep (retry - 1)))
          else some (.inr (.raised .rayOnGolem))
      | .raised e => some (.inr (.raised e))
      | .returned => some (.inr .returned)
  | .retrySleep retry, .slept => some (.inl (.attempt retry))
  | _, _ => none

/-- The awaits of the loop of the ssh monitor. -/
inductive SshMonitorPc
  | verify (pc : VerifyPc)
  | restartDesc
  | restartCommand
  | retrySleep
  | checkSleep
  deriving DecidableEq, Repr

/-- A call of `verify_ssh_connection` that ended: which attempts failed, and whether the call
raised `RayOnGolemError`. -/
structure SshCheck where
  attempts : List Bool
  raised : Bool
  deriving DecidableEq, Repr

/-- The task of an `SshStateMonitorClusterNodeSidecar`: its counter, the attempts of the
check in progress, and the checks that ended, the latest one first. -/
structure SshMonitor where
  task : MonitorTask SshMonitorPc := { pc := .inl (.verify .providerDesc) }
  failsCount : Nat := 0
  attempts : List Bool := []
  checks : List SshCheck := []
  deriving DecidableEq, Repr

namespace SshMonitor

/-- What can happen: what the loop awaits ends, or `stop()` is called. -/
inductive Act
  | verify (a : VerifyAct)
  | restartDesc (a : Answer)
  | restartCommand (a : Answer)
  | slept
  | stop
  | cancelled
  deriving DecidableEq, Repr

/-- An attempt that ended is recorded. -/
def record (m : SshMonitor) : VerifyAct → SshMonitor
  | .attempt p =>
      { m with attempts := m.attempts ++ [decide (runSubprocessOutput p = .raised .rayOnGolem)] }
  | .providerDesc _ | .slept => m

/-- The next check begins. -/
def nextCheck (m : SshMonitor) : SshMonitor :=
  { m with task := m.task.goesOn (.verify .providerDesc), attempts := [] }

/-- `verify_ssh_connection()` ends in the loop. -/
def verifyEnds (maxFailCount : Nat) (m : SshMonitor) : Answer → SshMonitor
  | .returned =>
      { m with
        task := m.task.goesOn .checkSleep
        checks := ⟨m.attempts, false⟩ :: m.checks }
  | .raised .rayOnGolem =>
      { m with
        task :=
          if maxFailCount ≤ m.failsCount + 1 then m.task.handleMonitorCheckFailure
          else m.task.goesOn .restartDesc
        failsCount := m.failsCount + 1
        checks := ⟨m.attempts, true⟩ :: m.checks }
  | .raised e => { m with task := m.task.raises e }

/-- One step of the loop with `max_fail_count` and `num_retries`. -/
def step (numRetries maxFailCount : Nat) (m : SshMonitor) : Act → Option SshMonitor
  | .verify a =>
      match m.task.pc with
      | .inl (.verify pc) =>
          if m.task.stopRequested then none
          else
            match pc.step numRetries a with
            | some (.inl pc) =>
                some { m.record a with task := m.task.goesOn (.verify pc) }
            | some (.inr answer) => some ((m.record a).verifyEnds maxFailCount answer)
            | none => none
      | _ => none
  | .restartDesc a =>
      if m.task.At .restartDesc then
        match a with
        | .returned => some { m with task := m.task.goesOn .restartCommand }
        | .raised e => some { m with task := m.task.raises e }
      else none
  | .restartCommand a =>
      if m.task.At .restartCommand then
        match a with
        | .raised .baseException => some { m with task := m.task.raises .baseException }
        -- any other exception is logged by `restart_ssh_server`
        | _ => some { m with task := m.task.goesOn .retrySleep }
      else none
  | .slept =>
      if m.task.At .retrySleep ∨ m.task.At .checkSleep then some m.nextCheck else none
  | .stop => some { m with task := m.task.stop }
  | .cancelled => m.task.cancelled.map fun t => { m with task := t }

/-- An exception that no handler of the loop catches. -/
def Act.unhandled : Act → Bool
  | .verify (.providerDesc (.raised e)) => e ≠ .rayOnGolem
  | .verify (.attempt p) =>
      match runSubprocessOutput p with
      | .raised e => e ≠ .rayOnGolem
      | .returned => false
  | .verify (.providerDesc .returned) | .verify .slept => false
  | .restartDesc (.raised _) => true
  | .restartCommand (.raised e) => e = .baseException
  | .restartDesc .returned | .restartCommand .returned | .slept | .stop | .cancelled => false

variable {numRetries maxFailCount : Nat} {m m' : SshMonitor} {a : Act}

/-- The effects of the steps. -/
inductive Step (numRetries maxFailCount : Nat) (m : SshMonitor) : Act → SshMonitor → Prop
  | lookedUp (hat : m.task.At (.verify .providerDesc)) :
      Step numRetries maxFailCount m (.verify (.providerDesc .returned))
        { m with task := m.task.goesOn (.verify (.attempt numRetries)) }
  | lookupRaised (e : Raised) (hat : m.task.At (.verify .providerDesc)) :
      Step numRetries maxFailCount m (.verify (.providerDesc (.raised e)))
        (m.verifyEnds maxFailCount (.raised e))
  | attemptWorks (p : Subprocess) (retry : Nat) (hat : m.task.At (.verify (.attempt retry)))
      (hp : runSubprocessOutput p = .returned) :
      Step numRetries maxFailCount m (.verify (.attempt p))
        { m with
          task := m.task.goesOn .checkSleep
          attempts := m.attempts ++ [false]
          checks := ⟨m.attempts ++ [false], false⟩ :: m.checks }
  | attemptFails (p : Subprocess) (retry : Nat) (hat : m.task.At (.verify (.attempt retry)))
      (hp : runSubprocessOutput p = .raised .rayOnGolem) (hretry : 0 < retry - 1) :
      Step numRetries maxFailCount m (.verify (.attempt p))
        { m with
          task := m.task.goesOn (.verify (.retrySleep (retry - 1)))
          attempts := m.attempts ++ [true] }
  | checkFails (p : Subprocess) (retry : Nat) (hat : m.task.At (.verify (.attempt retry)))
      (hp : runSubprocessOutput p = .raised .rayOnGolem) (hretry : ¬ 0 < retry - 1) :
      Step numRetries maxFailCount m (.verify (.attempt p))
        ({ m with attempts := m.attempts ++ [true] }.verifyEnds maxFailCount
          (.raised .rayOnGolem))
  | attemptRaised (p : Subprocess) (e : Raised) (retry : Nat)
      (hat : m.task.At (.verify (.attempt retry))) (hp : runSubprocessOutput p = .raised e)
      (he : e ≠ .rayOnGolem) :
      Step numRetries maxFailCount m (.verify (.attempt p))
        { m with task := m.task.raises e, attempts := m.attempts ++ [false] }
  | nextAttempt (retry : Nat) (hat : m.task.At (.verify (.retrySleep retry))) :
      Step numRetries maxFailCount m (.verify .slept)
        { m with task := m.task.goesOn (.verify (.attempt retry)) }
  | restarts (hat : m.task.At .restartDesc) :
      Step numRetries maxFailCount m (.restartDesc .returned)
        { m with task := m.task.goesOn .restartCommand }
  | restartDescRaised (e : Raised) (hat : m.task.At .restartDesc) :
      Step numRetries maxFailCount m (.restartDesc (.raised e))
        { m with task := m.task.raises e }
  | restarted (r : Answer) (hat : m.task.At .restartCommand)
      (hr : r ≠ .raised .baseException) :
      Step numRetries maxFailCount m (.restartCommand r)
        { m with task := m.task.goesOn .retrySleep }
  | restartRaised (hat : m.task.At .restartCommand) :
      Step numRetries maxFailCount m (.restartCommand (.raised .baseException))
        { m with task := m.task.raises .baseException }
  | slept (pc : SshMonitorPc) (hat : m.task.At pc) (hpc : pc = .retrySleep ∨ pc = .checkSleep) :
      Step numRetries maxFailCount m .slept m.nextCheck
  | stop : Step numRetries maxFailCount m .stop { m with task := m.task.stop }
  | cancelled (hstop : m.task.stopRequested = true) (hrunning : m.task.isRunning = true) :
      Step numRetries maxFailCount m .cancelled
        { m with task := { m.task with pc := .inr .cancelled } }

theorem step_cases_verify {b : VerifyAct}
    (hs : m.step numRetries maxFailCount (.verify b) = some m') :
    Step numRetries maxFailCount m (.verify b) m' := by
  simp only [step] at hs
  split at hs
  · rename_i pc hpc
    split at hs
    · cases hs
    · rename_i hstop
      have hat : m.task.At (.verify pc) := ⟨hpc, by simpa using hstop⟩
      cases pc with
      | providerDesc =>
          cases b with
          | providerDesc r =>
              cases r with
              | returned =>
                  cases hs
                  exact .lookedUp hat
              | raised e =>
                  cases hs
                  exact .lookupRaised e hat
          | attempt p => cases hs
          | slept => cases hs
      | attempt retry =>
          cases b with
          | providerDesc r => cases r <;> cases hs
          | attempt p =>
              simp only [VerifyPc.step] at hs
              cases hp : runSubprocessOutput p with
              | returned =>
                  simp only [hp, record, verifyEnds] at hs
                  cases hs
                  exact .attemptWorks p retry hat hp
              | raised e =>
                  cases e with
                  | rayOnGolem =>
                      simp only [hp, record] at hs
                      split at hs
                      · rename_i hretry
                        split at hretry
                        · rename_i hpos
                          cases hs
                          cases hretry
                          exact .attemptFails p retry hat hp hpos
                        · cases hretry
                      · rename_i hretry
                        split at hretry
                        · cases hretry
                        · rename_i hpos
                          cases hs
                          cases hretry
                          exact .checkFails p retry hat hp hpos
                      · cases hs
                  | exception =>
                      simp only [hp, record, verifyEnds] at hs
                      cases hs
                      exact .attemptRaised p _ retry hat hp (by decide)
                  | baseException =>
                      simp only [hp, record, verifyEnds] at hs
                      cases hs
                      exact .attemptRaised p _ retry hat hp (by decide)
          | slept => cases hs
      | retrySleep retry =>
          cases b with
          | providerDesc r => cases hs
          | attempt p => cases hs
          | slept =>
              cases hs
              exact .nextAttempt retry hat
  · cases hs

theorem step_cases (hs : m.step numRetries maxFailCount a = some m') :
    Step numRetries maxFailCount m a m' := by
  cases a with
  | verify b => exact step_cases_verify hs
  | restartDesc r =>
      obtain ⟨hat, hs⟩ := Option.ite_none_right_eq_some.mp hs
      cases r with
      | returned =>
          cases hs
          exact .restarts hat
      | raised e =>
          cases hs
          exact .restartDescRaised e hat
  | restartCommand r =>
      obtain ⟨hat, hs⟩ := Option.ite_none_right_eq_some.mp hs
      split at hs
      · cases hs
        exact .restartRaised hat
      · rename_i hr
        cases hs
        exact .restarted r hat hr
  | slept =>
      obtain ⟨hat, hs⟩ := Option.ite_none_right_eq_some.mp hs
      cases hs
      rcases hat with hat | hat
      · exact .slept _ hat (Or.inl rfl)
      · exact .slept _ hat (Or.inr rfl)
  | stop =>
      cases hs
      exact .stop
  | cancelled =>
      obtain ⟨t, ht, rfl⟩ := Option.map_eq_some_iff.mp hs
      obtain ⟨⟨hstop, hrunning⟩, ht⟩ := Option.ite_none_right_eq_some.mp ht
      cases ht
      exact .cancelled hstop hrunning

/-- The end of `verify_ssh_connection()` moves the task. -/
theorem move_verifyEnds {pc : SshMonitorPc} (hat : m.task.At pc) (e : Raised) :
    m.task.Move (e ≠ .rayOnGolem) (m.verifyEnds maxFailCount (.raised e)).task := by
  cases e with
  | rayOnGolem =>
      simp only [verifyEnds]
      split
      · exact .fails _ hat
      · exact .goesOn _ _ hat
  | exception => exact .raises _ _ hat
  | baseException => exact .raises _ _ hat

/-- **Every step of the ssh monitor moves its task.** -/
theorem step_move (hs : m.step numRetries maxFailCount a = some m') :
    m.task.Move a.unhandled m'.task := by
  cases step_cases hs with
  | lookedUp hat => exact .goesOn _ _ hat
  | lookupRaised e hat => exact move_verifyEnds hat e
  | attemptWorks p retry hat hp =>
      simp only [Act.unhandled, hp]
      exact .goesOn _ _ hat
  | attemptFails p retry hat hp =>
      simp only [Act.unhandled, hp]
      exact .goesOn _ _ hat
  | checkFails p retry hat hp =>
      simp only [Act.unhandled, hp]
      exact move_verifyEnds hat .rayOnGolem
  | attemptRaised p e retry hat hp he =>
      simp only [Act.unhandled, hp, he, ne_eq, not_false_eq_true, decide_true]
      exact .raises _ e hat
  | nextAttempt retry hat => exact .goesOn _ _ hat
  | restarts hat => exact .goesOn _ _ hat
  | restartDescRaised e hat => exact .raises _ e hat
  | restarted r hat hr =>
      cases r with
      | returned => exact .goesOn _ _ hat
      | raised e =>
          have he : e ≠ .baseException := fun h => hr (by rw [h])
          simp only [Act.unhandled, he, decide_false]
          exact .goesOn _ _ hat
  | restartRaised hat => exact .raises _ _ hat
  | slept pc hat => exact .goesOn _ _ hat
  | stop => exact .stop
  | cancelled hstop hrunning => exact .cancelled hstop hrunning

/-- The ssh monitor of a node is one of its sidecars. -/
theorem step_tracked {c : Sidecar} (hs : m.step numRetries maxFailCount a = some m')
    (htracks : m.task.Tracks c)
    (hstop : m'.task.stopRequested ≠ m.task.stopRequested → c.stopping = .scheduled) :
    m'.task.Tracks c ∨ ∃ b c', Sidecar.Step c b c' ∧ m'.task.Tracks c' :=
  (step_move hs).tracked htracks hstop

end SshMonitor
