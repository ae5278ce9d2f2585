import RayOnGolem.Lib.GuardedRun
import RayOnGolem.Lib.Streaks
import RayOnGolem.SidecarMonitor

/-!
# When the ssh monitor gives up

`verify_ssh_connection` counts the attempts that are left and the loop of the ssh monitor
counts the checks that failed.  The first counter is new for every check; the second one is
never set back, so that the monitor gives up after `max_fail_count` failed checks in all,
however many checks succeed in between.

`Counts` says where the two counters stand.  Main results:

* `failure_callback_consecutive` -- a check fails when all its attempts do, the failure is
  reported at most once, and it is reported for failures in a row if and only if no check
  succeeds between the failures that are counted;
* `transient_failures_reported` -- three failures with a working connection in between.
-/

/-- All the attempts of a check failed. -/
def SshCheck.allFailed (numRetries : Nat) (c : SshCheck) : Bool :=
  c.attempts = List.replicate numRetries true

namespace SshMonitor

open Runs Streaks

variable {numRetries maxFailCount : Nat} {m m' : SshMonitor} {a : Act}

/-- The checks are decided by their attempts: the lookup of the provider's name, which is
not the server's code, raises no `RayOnGolemError`. -/
def byAttempts : Act → Bool
  | .verify (.providerDesc (.raised .rayOnGolem)) => false
  | _ => true

/-- Which of the checks failed, the latest one first. -/
def failures (numRetries : Nat) (m : SshMonitor) : List Bool :=
  m.checks.map (SshCheck.allFailed numRetries)

/-- The attempts that the check in progress has behind itself. -/
def Tried (numRetries : Nat) (m : SshMonitor) : VerifyPc → Prop
  | .providerDesc => m.attempts = []
  | .attempt retry | .retrySleep retry =>
      0 < retry ∧ retry ≤ numRetries ∧ m.attempts = List.replicate (numRetries - retry) true

/-- Where the two counters stand. -/
structure Counts (numRetries maxFailCount : Nat) (m : SshMonitor) : Prop where
  tried : ∀ pc, m.task.pc = .inl (.verify pc) → m.Tried numRetries pc
  checks : ∀ c ∈ m.checks, c.raised = c.allFailed numRetries
  failsCount : m.failsCount = (m.failures numRetries).count true
  running : m.task.isRunning = true → m.task.handled = 0 ∧ m.failsCount < maxFailCount
  ended : m.task.isRunning = false →
    m.task.handled = 0 ∧ m.failsCount < maxFailCount ∨
      m.task.handled = 1 ∧ m.failsCount = maxFailCount

/-- What is counted, whether the task runs or not. -/
theorem Counts.reported (h : Counts numRetries maxFailCount m) :
    m.task.handled = 0 ∧ m.failsCount < maxFailCount ∨
      m.task.handled = 1 ∧ m.failsCount = maxFailCount := by
  cases hrunning : m.task.isRunning with
  | true => exact Or.inl (h.running hrunning)
  | false => exact h.ended hrunning

/-- The loop goes on to an await, with the counters as they are. -/
theorem Counts.goesOn (h : Counts numRetries maxFailCount m) {pc : SshMonitorPc}
    (hat : m.task.At pc) (pc' : SshMonitorPc) (attempts : List Bool)
    (htried : ∀ v, pc' = .verify v → ({ m with attempts }).Tried numRetries v) :
    Counts numRetries maxFailCount { m with task := m.task.goesOn pc', attempts } := by
  refine ⟨fun v hv => ?_, h.checks, h.failsCount, fun _ => ?_, fun hended => (by cases hended)⟩
  · obtain rfl := Sum.inl.inj hv
    exact htried v rfl
  · exact h.running (MonitorTask.isRunning_of_at hat)

/-- An exception ends the loop. -/
theorem Counts.raises (h : Counts numRetries maxFailCount m) {pc : SshMonitorPc}
    (hat : m.task.At pc) (e : Raised) (attempts : List Bool) :
    Counts numRetries maxFailCount { m with task := m.task.raises e, attempts } := by
  refine ⟨fun v hv => (by cases hv), h.checks, h.failsCount, fun hrunning => (by cases hrunning),
    fun _ => Or.inl ?_⟩
  exact h.running (MonitorTask.isRunning_of_at hat)

/-- A check succeeds. -/
theorem Counts.works (h : Counts numRetries maxFailCount m) {pc : SshMonitorPc}
    (hat : m.task.At pc) {attempts : List Bool} (hattempts : false ∈ attempts) :
    Counts numRetries maxFailCount
      { m with
        task := m.task.goesOn .checkSleep
        attempts := attempts
        checks := ⟨attempts, false⟩ :: m.checks } := by
  have hnot : SshCheck.allFailed numRetries ⟨attempts, false⟩ = false := by
    apply decide_eq_false
    intro hall
    rw [show attempts = List.replicate numRetries true from hall] at hattempts
    cases List.eq_of_mem_replicate hattempts
  refine ⟨fun v hv => (by cases hv), ?_, ?_, fun _ => ?_, fun hended => (by cases hended)⟩
  · intro c hc
    rcases List.mem_cons.mp hc with rfl | hc
    · exact hnot.symm
    · exact h.checks c hc
  · show m.failsCount = _
    rw [h.failsCount]
    simp [failures, hnot]
  · exact h.running (MonitorTask.isRunning_of_at hat)

/-- A check fails. -/
theorem Counts.fails (h : Counts numRetries maxFailCount m) {pc : SshMonitorPc}
    (hat : m.task.At pc) {attempts : List Bool}
    (hattempts : attempts = List.replicate numRetries true) :
    Counts numRetries maxFailCount
      ({ m with attempts }.verifyEnds maxFailCount (.raised .rayOnGolem)) := by
  have hall : SshCheck.allFailed numRetries ⟨attempts, true⟩ = true := decide_eq_true hattempts
  obtain ⟨hhandled, hless⟩ := h.running (MonitorTask.isRunning_of_at hat)
  have hchecks : ∀ c ∈ ⟨attempts, true⟩ :: m.checks, c.raised = c.allFailed numRetries := by
    intro c hc
    rcases List.mem_cons.mp hc with rfl | hc
    · exact hall.symm
    · exact h.checks c hc
  have hcount : m.failsCount + 1 =
      ((⟨attempts, true⟩ :: m.checks).map (SshCheck.allFailed numRetries)).count true := by
    rw [h.failsCount]
    simp [failures, hall]
  by_cases hlast : maxFailCount ≤ m.failsCount + 1
  · simp only [verifyEnds, hlast, if_true]
    refine ⟨fun v hv => (by cases hv), hchecks, hcount, fun hrunning => (by cases hrunning),
      fun _ => Or.inr ⟨?_, ?_⟩⟩
    · show m.task.handled + 1 = 1
      omega
    · show m.failsCount + 1 = maxFailCount
      omega
  · simp only [verifyEnds, hlast, if_false]
    refine ⟨fun v hv => (by cases hv), hchecks, hcount, fun _ => ⟨hhandled, ?_⟩,
      fun hended => (by cases hended)⟩
    show m.failsCount + 1 < maxFailCount
    omega

theorem Counts.step (hN : 0 < numRetries) (h : Counts numRetries maxFailCount m)
    (hok : byAttempts a = true) (hs : Step numRetries maxFailCount m a m') :
    Counts numRetries maxFailCount m' := by
  cases hs with
  | lookedUp hat =>
      have hnone : m.attempts = [] := h.tried _ hat.1
      apply h.goesOn hat _ m.attempts
      intro v hv
      obtain rfl := SshMonitorPc.verify.inj hv
      exact ⟨hN, Nat.le_refl _, by simpa using hnone⟩
  | lookupRaised e hat =>
      cases e with
      | rayOnGolem => cases hok
      | exception => exact h.raises hat _ m.attempts
      | baseException => exact h.raises hat _ m.attempts
  | attemptWorks p retry hat hp => exact h.works hat (by simp)
  | attemptFails p retry hat hp hretry =>
      obtain ⟨hpos, hle, hattempts⟩ := h.tried _ hat.1
      apply h.goesOn hat
      intro v hv
      obtain rfl := SshMonitorPc.verify.inj hv
      refine ⟨hretry, by omega, ?_⟩
      have hnext : numRetries - (retry - 1) = numRetries - retry + 1 := by omega
      show m.attempts ++ [true] = _
      rw [hnext, List.replicate_succ', hattempts]
  | checkFails p retry hat hp hretry =>
      obtain ⟨hpos, hle, hattempts⟩ := h.tried _ hat.1
      apply h.fails hat
      have hlast : numRetries = numRetries - retry + 1 := by omega
      rw [hlast, List.replicate_succ', hattempts]
  | attemptRaised p e retry hat => exact h.raises hat e _
  | nextAttempt retry hat =>
      have htried := h.tried _ hat.1
      apply h.goesOn hat _ m.attempts
      intro v hv
      obtain rfl := SshMonitorPc.verify.inj hv
      exact htried
  | restarts hat => exact h.goesOn hat _ m.attempts fun v hv => by cases hv
  | restartDescRaised e hat => exact h.raises hat e m.attempts
  | restarted r hat => exact h.goesOn hat _ m.attempts fun v hv => by cases hv
  | restartRaised hat => exact h.raises hat _ m.attempts
  | slept pc hat =>
      apply h.goesOn hat _ []
      intro v hv
      obtain rfl := SshMonitorPc.verify.inj hv
      rfl
  | stop =>
      have hrunning : m.task.stop.isRunning = m.task.isRunning := by
        simp [MonitorTask.isRunning]
      refine ⟨fun v hv => h.tried v (by simpa using hv), h.checks, h.failsCount, ?_, ?_⟩
      · intro hr
        rw [hrunning] at hr
        simpa using h.running hr
      · intro hr
        rw [hrunning] at hr
        simpa using h.ended hr
  | cancelled hstop hrunning =>
      exact ⟨fun v hv => (by cases hv), h.checks, h.failsCount, fun hr => (by cases hr),
        fun _ => Or.inl (h.running hrunning)⟩

/-- A monitor that was just started. -/
theorem counts_initial (hM : 0 < maxFailCount) : Counts numRetries maxFailCount {} :=
  { tried := fun v hv => by
      obtain rfl := SshMonitorPc.verify.inj (Sum.inl.inj hv)
      rfl
    checks := fun c hc => by cases hc
    failsCount := rfl
    running := fun _ => ⟨rfl, hM⟩
    ended := fun hended => by cases hended }

/-- **The ssh monitor reports failures in a row if and only if nothing interrupts the
failures it counts.**  In every run with any outcomes of the attempts, a check fails exactly
when all its attempts fail and the failure is reported at most once; that it is reported when
`maxFailCount` checks in a row have failed, and only then, holds until `maxFailCount` checks
have failed in all of which two have a successful one in between. -/
theorem failure_callback_consecutive (hN : 0 < numRetries) (hM : 0 < maxFailCount)
    (h : Reach (fun m => m = {}) (step numRetries maxFailCount) (fun _ a => byAttempts a) m) :
    (∀ c ∈ m.checks, c.raised = c.allFailed numRetries) ∧ m.task.handled ≤ 1 ∧
      ((m.task.handled = 1 ↔ InARow maxFailCount true (m.failures numRetries)) ↔
        (m.failures numRetries).count true < maxFailCount ∨
          ¬ Interrupted true (m.failures numRetries)) := by
  have hcounts : Counts numRetries maxFailCount m := by
    apply Reach.invariant (I := Counts numRetries maxFailCount) ?_ ?_ h
    · rintro _ rfl
      exact counts_initial hM
    · intro s b s' hi hok hstep
      exact hi.step hN hok (step_cases hstep)
  refine ⟨hcounts.checks, ?_, ?_⟩
  · rcases hcounts.reported with ⟨hzero, -⟩ | ⟨hone, -⟩ <;> omega
  have hcount := hcounts.failsCount
  rcases hcounts.reported with ⟨hzero, hless⟩ | ⟨hone, hall⟩
  · have hnot : ¬ InARow maxFailCount true (m.failures numRetries) := by
      intro hrow
      have hle := hrow.le_count
      omega
    have hreported : m.task.handled ≠ 1 := by omega
    exact iff_of_true (iff_of_false hreported hnot) (Or.inl (by omega))
  · have hrow := inARow_iff (n := maxFailCount) (x := true) (l := m.failures numRetries) (by omega)
    have hmany : ¬ (m.failures numRetries).count true < maxFailCount := by omega
    simp only [hone, true_iff, hrow, hmany, false_or]

/-- A check whose three attempts fail. -/
def failingCheck : List Act :=
  [.verify (.providerDesc .returned), .verify (.attempt (.exited 255)), .verify .slept,
    .verify (.attempt (.exited 255)), .verify .slept, .verify (.attempt (.exited 255))]

/-- The ssh server is restarted. -/
def restart : List Act := [.restartDesc .returned, .restartCommand .returned, .slept]

/-- A check that succeeds. -/
def workingCheck : List Act :=
  [.verify (.providerDesc .returned), .verify (.attempt (.exited 0)), .slept]

/-- The connection breaks for good. -/
def brokenConnection : List Act :=
  workingCheck ++ failingCheck ++ restart ++ failingCheck ++ restart ++ failingCheck

/-- Every restart repairs the connection. -/
def repairedConnection : List Act :=
  failingCheck ++ restart ++ workingCheck ++ failingCheck ++ restart ++ workingCheck ++ failingCheck

theorem failure_callback_consecutive_broken :
    ∃ m, exec (step 3 3) brokenConnection {} = some m ∧
      (∀ c ∈ m.checks, c.raised = c.allFailed 3) ∧ m.task.handled ≤ 1 ∧
      ((m.task.handled = 1 ↔ InARow 3 true (m.failures 3)) ↔
        (m.failures 3).count true < 3 ∨ ¬ Interrupted true (m.failures 3)) := by
  refine ⟨_, rfl, ?_⟩
  have hinit : Reach (fun m => m = {}) (step 3 3) (fun _ a => byAttempts a) ({} : SshMonitor) :=
    .start rfl
  exact failure_callback_consecutive (by decide) (by decide)
    (Reach.execGuarded brokenConnection hinit rfl)

/-- **Three failures with a working connection in between** are reported like three in a
row: the restarts helped, and the monitor gives up all the same. -/
theorem transient_failures_reported :
    ∃ m, exec (step 3 3) repairedConnection {} = some m ∧
      m.task.handled = 1 ∧ m.failures 3 = [true, false, true, false, true] ∧
      ¬ InARow 3 true (m.failures 3) := by
  exact ⟨_, rfl, rfl, rfl, by decide⟩

end SshMonitor
