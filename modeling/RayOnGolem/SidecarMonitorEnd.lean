import RayOnGolem.Lib.GuardedRun
import RayOnGolem.SidecarMonitor

/-!
# How a monitor ends

A monitor that ends should have been stopped by its sidecar or have reported a failed check.
Some of the awaited calls raise past every handler of the loops: then the task ends, nobody
is told, and the node stays running without it.

A task is `Healthy` until such an exception and `Lost` from it on, whatever follows
(`MonitorTask.Move.healthy`, `MonitorTask.Move.lost`).  Main results:

* `MonitorTask.monitors_supervised` -- both monitors end as they should if and only if no
  exception passes their handlers;
* `MonitorTask.silent_ends` -- one transient error of each of three calls.
-/

namespace MonitorTask

open Runs

variable {π : Type} {t t' : MonitorTask π} {b : Bool}

/-- A task that ended was cancelled by the sidecar's `stop()`, or has called
`_handle_monitor_check_failure` once. -/
def Supervised (t : MonitorTask π) : Prop :=
  ∀ e, t.pc = .inr e → (e = .cancelled ∧ t.stopRequested = true) ∨ t.handled = 1

/-- A task that runs and has reported nothing, or that ended as it should. -/
structure Healthy (t : MonitorTask π) : Prop where
  running : t.isRunning = true → t.handled = 0
  ended : t.Supervised

/-- A task that an exception ended. -/
def Lost (t : MonitorTask π) : Prop := ∃ e, t.pc = .inr (.raised e) ∧ t.handled = 0

theorem Lost.not_supervised (h : t.Lost) : ¬ t.Supervised := by
  obtain ⟨e, hpc, hhandled⟩ := h
  intro hsupervised
  rcases hsupervised _ hpc with ⟨hcancelled, -⟩ | hone
  · cases hcancelled
  · omega

/-- A task that runs. -/
theorem supervised_of_at {pc : π} (h : t.pc = .inl pc) : t.Supervised := by
  intro e he
  rw [h] at he
  cases he

/-- Every step without an exception that is handled nowhere. -/
theorem Move.healthy (h : t.Healthy) (hmove : t.Move false t') : t'.Healthy := by
  cases hmove with
  | goesOn pc pc' hat => exact ⟨fun _ => h.running (isRunning_of_at hat), supervised_of_at rfl⟩
  | fails pc hat =>
      have hone : t.handleMonitorCheckFailure.handled = 1 := by
        show t.handled + 1 = 1
        rw [h.running (isRunning_of_at hat)]
      exact ⟨fun hrunning => (by cases hrunning), fun _ _ => Or.inr hone⟩
  | stop =>
      unfold MonitorTask.stop
      split
      · rename_i hrunning
        refine ⟨h.running, fun e he => ?_⟩
        have hended : t.pc = .inr e := he
        simp [isRunning, hended] at hrunning
      · exact h
  | cancelled hstop _ =>
      refine ⟨fun hrunning => (by cases hrunning), fun e he => ?_⟩
      cases he
      exact Or.inl ⟨rfl, hstop⟩

/-- An exception that is handled nowhere. -/
theorem Move.spoils (h : t.Healthy) (hmove : t.Move true t') : t'.Lost := by
  cases hmove with
  | raises pc e hat => exact ⟨e, rfl, h.running (isRunning_of_at hat)⟩

/-- **Nothing brings a lost monitor back.** -/
theorem Move.lost (h : t.Lost) (hmove : t.Move b t') : t'.Lost := by
  obtain ⟨e, hpc, hhandled⟩ := h
  have hnot : ∀ pc, ¬ t.At pc := by
    intro pc hat
    rw [hat.1] at hpc
    cases hpc
  cases hmove with
  | goesOn pc pc' hat => exact absurd hat (hnot pc)
  | fails pc hat => exact absurd hat (hnot pc)
  | raises pc e hat => exact absurd hat (hnot pc)
  | stop => exact ⟨e, by rw [pc_stop, hpc], by rw [handled_stop, hhandled]⟩
  | cancelled hstop hrunning => simp [isRunning, hpc] at hrunning

/-- The fate of a monitor with the steps `step`, of which those with a label that is
`unhandled` let an exception pass. -/
theorem supervised_iff {σ α : Type} {step : σ → α → Option σ} (task : σ → MonitorTask π)
    (unhandled : α → Bool)
    (hmove : ∀ s a s', step s a = some s' → (task s).Move (unhandled a) (task s'))
    {acts : List α} {s s' : σ} (h : (task s).Healthy) (hrun : exec step acts s = some s') :
    (task s').Supervised ↔ ∀ a ∈ acts, unhandled a = false := by
  have hfate := exec_fate (G := fun s => (task s).Healthy) (B := fun s => (task s).Lost)
    (K := fun a => unhandled a = false)
    (fun s a s' hs hstep hok => (hok ▸ hmove s a s' hstep).healthy hs)
    (fun s a s' hs hstep hok => by
      rw [Bool.not_eq_false] at hok
      exact (hok ▸ hmove s a s' hstep).spoils hs)
    (fun s a s' hs hstep => (hmove s a s' hstep).lost hs) acts h hrun
  rcases hfate with ⟨hall, hgood⟩ | ⟨hnot, hbad⟩
  · exact ⟨fun _ => hall, fun _ => hgood.ended⟩
  · exact ⟨fun hs => absurd hs hbad.not_supervised, fun hall => absurd hall hnot⟩

/-- A task that was just created. -/
theorem healthy_created (pc : π) : Healthy { pc := .inl pc } :=
  ⟨fun _ => rfl, supervised_of_at rfl⟩

/-- **The monitors of a node end as they should if and only if no exception passes the
handlers of their loops**, whatever the calls they await return or raise. -/
theorem monitors_supervised (numRetries maxFailCount : Nat) :
    (∀ acts m, exec (SshMonitor.step numRetries maxFailCount) acts {} = some m →
      (m.task.Supervised ↔ ∀ a ∈ acts, a.unhandled = false)) ∧
    ∀ acts m, exec ActivityMonitor.step acts {} = some m →
      (m.task.Supervised ↔ ∀ a ∈ acts, a.unhandled = false) := by
  constructor
  · intro acts m hrun
    exact supervised_iff SshMonitor.task SshMonitor.Act.unhandled
      (fun _ _ _ => SshMonitor.step_move) (healthy_created _) hrun
  · intro acts m hrun
    exact supervised_iff ActivityMonitor.task ActivityMonitor.Act.unhandled
      (fun _ _ _ => ActivityMonitor.step_move) (healthy_created _) hrun

/-- **Monitors that end silently**: `get_state()` raises once; the provider's name cannot be
looked up before a check; the ssh program cannot be started. -/
theorem silent_ends :
    (∃ m, exec ActivityMonitor.step [.getState (.error .exception)] {} = some m ∧
      m.task.isRunning = false ∧ m.task.handled = 0 ∧ ¬ m.task.Supervised) ∧
    (∃ m, exec (SshMonitor.step 3 3) [.verify (.providerDesc (.raised .exception))] {} = some m ∧
      m.task.isRunning = false ∧ m.task.handled = 0 ∧ ¬ m.task.Supervised) ∧
    ∃ m, exec (SshMonitor.step 3 3)
        [.verify (.providerDesc .returned), .verify (.attempt (.notCreated .exception))] {} =
          some m ∧
      m.task.isRunning = false ∧ m.task.handled = 0 ∧ ¬ m.task.Supervised := by
  refine ⟨⟨_, rfl, rfl, rfl, ?_⟩, ⟨_, rfl, rfl, rfl, ?_⟩, ⟨_, rfl, rfl, rfl, ?_⟩⟩
  all_goals exact Lost.not_supervised ⟨.exception, rfl, rfl⟩

end MonitorTask
