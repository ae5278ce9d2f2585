import RayOnGolem.ClusterNode

/-!
# What a step of a node can do

`Sidecar.Step` and `ClusterNode.Step` list the effects that the steps of a node
have, one constructor for each, with the facts that the step found.
`ClusterNode.step_cases` says that the list is complete.  Invariants of a node are
proved by cases on `Step` and never unfold the step function again.

The awaits of the creation loop share three effects: the start task goes on
(`goesOn`), takes a new activity (`created`) or raises (`fails`).
-/

/-- What a step makes of one sidecar. -/
inductive Sidecar.Step (c : Sidecar) : ClusterNode.SidecarAct → Sidecar → Prop
  | starts (hscheduled : c.starting = .scheduled) : Step c .start c.start
  | spawned (hwaiting : c.starting = .waiting) :
      Step c .spawned { c with isRunning := true, starting := .none }
  | startRaised (hwaiting : c.starting = .waiting) :
      Step c .startRaised { c with starting := .none }
  | stops (hscheduled : c.stopping = .scheduled) : Step c .stop c.stop
  | stopped (hwaiting : c.stopping = .waiting) :
      Step c .stopped { c with isRunning := false, stopping := .none }
  | stopRaised (hwaiting : c.stopping = .waiting) :
      Step c .stopRaised { c with stopping := .none }
  | exited (hrunning : c.isRunning = true) : Step c .exited { c with isRunning := false }

namespace ClusterNode

variable {n n' : ClusterNode} {a : Act}

/-- The start task was not cancelled. -/
def Going (n : ClusterNode) : Prop := ∀ ce, n.stopPc ≠ .cancelling ce

/-- The effects of the steps. -/
inductive Step (n : ClusterNode) : Act → ClusterNode → Prop
  | scheduleSkips : Step n .scheduleStart n
  | schedules (hover : n.startTask.over = true) (hrunning : n.state ≠ .running)
      (hterminating : n.state ≠ .terminating) :
      Step n .scheduleStart { n with startTask := .scheduled }
  | stopSkips (ce : Bool) (hstate : n.state = .terminating ∨ n.state = .terminated) :
      Step n (.stop ce) n
  | stopsAtOnce (ce : Bool) (hlive : n.state.live = true) (hover : n.startTask.over = true) :
      Step n (.stop ce) ({ n with state := .terminating }.stopSidecars ce)
  | stopCancels (ce : Bool) (hlive : n.state.live = true) (hover : n.startTask.over = false) :
      Step n (.stop ce) { n with state := .terminating, stopPc := .cancelling ce }
  | startSkips (hgoing : n.Going) (hpc : n.startTask = .scheduled)
      (hstate : n.state = .running ∨ n.state = .terminating) :
      Step n (.start .begins) { n with startTask := .done }
  | begins (hgoing : n.Going) (hpc : n.startTask = .scheduled) (hrunning : n.state ≠ .running)
      (hterminating : n.state ≠ .terminating) :
      Step n (.start .begins) { n with state := .pending, startTask := n.firstAgreement }
  | goesOn (b : StartAct) (pc : StartPc) (hgoing : n.Going)
      (hcreating : n.startTask.creating = true) (hpc : pc.creating = true)
      (hheld : pc.held = n.startTask.held) : Step n (.start b) { n with startTask := pc }
  | created (hgoing : n.Going) (hpc : n.startTask = .createActivity) :
      Step n (.start (.createActivity .ok))
        { n with
          created := n.created.length :: n.created
          startTask := .addToNetwork n.created.length }
  | ready (i : Nat) (ip : String) (step : SetupStep) (hgoing : n.Going)
      (hpc : n.startTask = .setup i ip step) :
      Step n (.start (.setup .ok)) (n.activityReady i ip)
  | destroys (i : Nat) (e : Exc) (hgoing : n.Going) (hpc : n.startTask = .cleanupDesc i e) :
      Step n (.start (.cleanupDesc .ok))
        { n with destroyed := i :: n.destroyed, startTask := .cleanupDestroy i e }
  | fails (b : StartAct) (e : Exc) (hgoing : n.Going) (hcreating : n.startTask.creating = true)
      (hheld : n.startTask.held = none ∨ b = .cleanupDesc (.raised e)) :
      Step n (.start b) (n.createFailed e)
  | startReturns (hgoing : n.Going) (hpc : n.startTask = .sidecars)
      (hall : ∀ c ∈ n.sidecars, c.starting = .none) :
      Step n (.start .sidecarsStarted) { n with startTask := .done }
  | sidecar (i : Nat) (b : SidecarAct) (c c' : Sidecar) (hc : n.sidecars[i]? = some c)
      (hmove : c.Step b c') (hstart : b = .startRaised → n.startTask ≠ .sidecars)
      (hstop : b = .stopRaised → ∀ ce, n.stopPc ≠ .sidecars ce) :
      Step n (.sidecar i b) (n.setSidecar i c')
  | sidecarStartFails (i : Nat) (c : Sidecar) (hc : n.sidecars[i]? = some c)
      (hwaiting : c.starting = .waiting) (hpc : n.startTask = .sidecars) :
      Step n (.sidecar i .startRaised)
        { n.setSidecar i { c with starting := .none } with startTask := .done }
  | sidecarStopFails (i : Nat) (c : Sidecar) (ce : Bool) (hc : n.sidecars[i]? = some c)
      (hwaiting : c.stopping = .waiting) (hpc : n.stopPc = .sidecars ce) :
      Step n (.sidecar i .stopRaised)
        { n.setSidecar i { c with stopping := .none } with stopPc := .idle }
  | cancelled (ce : Bool) (cs : List Sidecar) (hpc : n.stopPc = .cancelling ce)
      (hover : n.startTask.over = false)
      (hcs : cs = if n.startTask = .sidecars then
          n.sidecars.map (fun c => { c with starting := .none })
        else n.sidecars) :
      Step n (.stopping .cancelDelivered) { n with sidecars := cs, startTask := .done }
  | resumes (ce : Bool) (hpc : n.stopPc = .cancelling ce) (hover : n.startTask.over = true) :
      Step n (.stopping .resumes) (n.stopSidecars ce)
  | describes (ce : Bool) (i : Nat) (hpc : n.stopPc = .sidecars ce)
      (hall : ∀ c ∈ n.sidecars, c.stopping = .none) (hactivity : n.activity = some i) :
      Step n (.stopping .sidecarsStopped) { n with stopPc := .activityDesc ce i }
  | stopsWithout (ce : Bool) (hpc : n.stopPc = .sidecars ce)
      (hall : ∀ c ∈ n.sidecars, c.stopping = .none) (hactivity : n.activity = none) :
      Step n (.stopping .sidecarsStopped) (n.finishStop ce)
  | stopDestroys (ce : Bool) (i : Nat) (hpc : n.stopPc = .activityDesc ce i) :
      Step n (.stopping (.activityDesc .ok))
        { n with destroyed := i :: n.destroyed, stopPc := .activityDestroy ce i }
  | descRaised (ce : Bool) (i : Nat) (e : Exc) (hpc : n.stopPc = .activityDesc ce i) :
      Step n (.stopping (.activityDesc (.raised e))) { n with stopPc := .idle }
  | stopReturns (ce : Bool) (i : Nat) (hpc : n.stopPc = .activityDestroy ce i) :
      Step n (.stopping .activityDestroy) (n.finishStop ce)

/-! ### The start task -/

theorem creating_firstAgreement (n : ClusterNode) : n.firstAgreement.creating = true := by
  unfold firstAgreement
  split <;> rfl

/-- A step of the creation loop that stays in it. -/
theorem Step.on {b : StartAct} {pc pc' : StartPc} (hgoing : n.Going) (hpc : n.startTask = pc)
    (hcreating : pc.creating = true) (hpc' : pc'.creating = true) (hheld : pc'.held = pc.held) :
    Step n (.start b) { n with startTask := pc' } := by
  apply Step.goesOn b pc' hgoing _ hpc'
  · rw [hpc]
    exact hheld
  · rw [hpc]
    exact hcreating

/-- A step of the creation loop that raises with nothing held. -/
theorem Step.raise {b : StartAct} {pc : StartPc} (e : Exc) (hgoing : n.Going)
    (hpc : n.startTask = pc) (hcreating : pc.creating = true) (hheld : pc.held = none) :
    Step n (.start b) (n.createFailed e) := by
  apply Step.fails b e hgoing
  · rw [hpc]
    exact hcreating
  · rw [hpc]
    exact .inl hheld

theorem step_cases_start {b : StartAct} (hs : n.stepStart b = some n') :
    Step n (.start b) n' := by
  unfold stepStart at hs
  split at hs
  · cases hs
  · rename_i hgoing
    have hgoing : n.Going := hgoing
    cases b with
    | begins =>
        obtain ⟨hpc, hs⟩ := Option.ite_none_right_eq_some.mp hs
        cases hs
        unfold startBegins
        split
        · rename_i hstate
          exact .startSkips hgoing hpc hstate
        · rename_i hstate
          rw [not_or] at hstate
          exact .begins hgoing hpc hstate.1 hstate.2
    | agreement o =>
        simp only [agreementEnds] at hs
        split at hs
        all_goals
          cases hs
        all_goals
          rename_i hpc
        · exact .on hgoing hpc rfl rfl rfl
        · exact .on hgoing hpc rfl rfl rfl
        · exact .on hgoing hpc rfl rfl rfl
        · exact .raise _ hgoing hpc rfl rfl
        · exact .raise _ hgoing hpc rfl rfl
    | providerDesc o =>
        simp only [providerDescEnds] at hs
        split at hs
        all_goals
          cases hs
        all_goals
          rename_i hpc
        · exact .on hgoing hpc rfl rfl rfl
        · exact .raise _ hgoing hpc rfl rfl
    | createActivity o =>
        simp only [createActivityEnds] at hs
        split at hs
        all_goals
          cases hs
        all_goals
          rename_i hpc
        · exact .created hgoing hpc
        · exact .raise _ hgoing hpc rfl rfl
    | addToNetwork r =>
        simp only [addToNetworkEnds] at hs
        split at hs
        all_goals
          cases hs
        all_goals
          rename_i hpc
          exact .on hgoing hpc rfl rfl rfl
    | setup o =>
        simp only [setupEnds] at hs
        split at hs
        · rename_i i ip step hpc
          split at hs
          all_goals
            cases hs
          · exact .on hgoing hpc rfl rfl rfl
          · exact .ready i ip step hgoing hpc
        · rename_i i ip step e hpc
          split at hs
          all_goals
            cases hs
            exact .on hgoing hpc rfl rfl rfl
        · cases hs
    | cleanupDesc o =>
        simp only [cleanupDescEnds] at hs
        split at hs
        all_goals
          cases hs
        · rename_i i e hpc
          exact .destroys i e hgoing hpc
        · rename_i i e' e hpc
          exact .fails _ e hgoing (by rw [hpc]; rfl) (.inr rfl)
    | cleanupDestroy =>
        simp only [cleanupDestroyEnds] at hs
        split at hs
        all_goals
          cases hs
        rename_i hpc
        exact .raise _ hgoing hpc rfl rfl
    | sidecarsStarted =>
        obtain ⟨⟨hpc, hall⟩, hs⟩ := Option.ite_none_right_eq_some.mp hs
        cases hs
        exact .startReturns hgoing hpc hall

/-! ### The sidecars -/

theorem step_cases_sidecar {i : Nat} {b : SidecarAct} (hs : n.stepSidecar i b = some n') :
    Step n (.sidecar i b) n' := by
  -- every step of a sidecar first looks it up
  have hfound : ∃ c, n.sidecars[i]? = some c := by
    cases hc : n.sidecars[i]? with
    | some c => exact ⟨c, rfl⟩
    | none =>
        exfalso
        cases b <;> simp [stepSidecar, sidecarStart, tunnelSpawned, sidecarStartRaised,
          sidecarStop, sidecarStopped, sidecarStopRaised, sidecarExited, hc] at hs
  obtain ⟨c, hc⟩ := hfound
  cases b with
  | start =>
      simp only [stepSidecar, sidecarStart, hc] at hs
      obtain ⟨hscheduled, hs⟩ := Option.ite_none_right_eq_some.mp hs
      cases hs
      exact .sidecar i _ c _ hc (.starts hscheduled) (by simp) (by simp)
  | spawned =>
      simp only [stepSidecar, tunnelSpawned, hc] at hs
      obtain ⟨hwaiting, hs⟩ := Option.ite_none_right_eq_some.mp hs
      cases hs
      exact .sidecar i _ c _ hc (.spawned hwaiting) (by simp) (by simp)
  | startRaised =>
      simp only [stepSidecar, sidecarStartRaised, hc] at hs
      obtain ⟨hwaiting, hs⟩ := Option.ite_none_right_eq_some.mp hs
      cases hs
      split
      · rename_i hpc
        exact .sidecarStartFails i c hc hwaiting hpc
      · rename_i hpc
        exact .sidecar i _ c _ hc (.startRaised hwaiting) (fun _ => hpc) (by simp)
  | stop =>
      simp only [stepSidecar, sidecarStop, hc] at hs
      obtain ⟨hscheduled, hs⟩ := Option.ite_none_right_eq_some.mp hs
      cases hs
      exact .sidecar i _ c _ hc (.stops hscheduled) (by simp) (by simp)
  | stopped =>
      simp only [stepSidecar, sidecarStopped, hc] at hs
      obtain ⟨hwaiting, hs⟩ := Option.ite_none_right_eq_some.mp hs
      cases hs
      exact .sidecar i _ c _ hc (.stopped hwaiting) (by simp) (by simp)
  | stopRaised =>
      simp only [stepSidecar, sidecarStopRaised, hc] at hs
      obtain ⟨hwaiting, hs⟩ := Option.ite_none_right_eq_some.mp hs
      split at hs
      · rename_i ce hpc
        cases hs
        exact .sidecarStopFails i c ce hc hwaiting hpc
      · rename_i hpc
        cases hs
        exact .sidecar i _ c _ hc (.stopRaised hwaiting) (by simp) (fun _ ce => hpc ce)
  | exited =>
      simp only [stepSidecar, sidecarExited, hc] at hs
      obtain ⟨hrunning, hs⟩ := Option.ite_none_right_eq_some.mp hs
      cases hs
      exact .sidecar i _ c _ hc (.exited hrunning) (by simp) (by simp)

/-! ### The stop -/

theorem step_cases_stopping {b : StopAct} (hs : n.stepStop b = some n') :
    Step n (.stopping b) n' := by
  cases b with
  | cancelDelivered =>
      simp only [stepStop, cancelDelivered] at hs
      split at hs
      · rename_i ce hpc
        split at hs
        · cases hs
        · rename_i hover
          have hover : n.startTask.over = false := by simpa using hover
          split at hs
          · rename_i hsidecars
            cases hs
            exact .cancelled ce _ hpc hover (by rw [if_pos hsidecars])
          · rename_i hsidecars
            cases hs
            exact .cancelled ce _ hpc hover (by rw [if_neg hsidecars])
      · cases hs
  | resumes =>
      simp only [stepStop, stopResumes] at hs
      split at hs
      · rename_i ce hpc
        obtain ⟨hover, hs⟩ := Option.ite_none_right_eq_some.mp hs
        cases hs
        exact .resumes ce hpc hover
      · cases hs
  | sidecarsStopped =>
      simp only [stepStop, sidecarsStopped] at hs
      split at hs
      · rename_i ce hpc
        obtain ⟨hall, hs⟩ := Option.ite_none_right_eq_some.mp hs
        split at hs
        · rename_i i hactivity
          cases hs
          exact .describes ce i hpc hall hactivity
        · rename_i hactivity
          cases hs
          exact .stopsWithout ce hpc hall hactivity
      · cases hs
  | activityDesc o =>
      simp only [stepStop, activityDescEnds] at hs
      split at hs
      · rename_i ce i hpc
        cases hs
        exact .stopDestroys ce i hpc
      · rename_i ce i e hpc
        cases hs
        exact .descRaised ce i e hpc
      · cases hs
  | activityDestroy =>
      simp only [stepStop, activityDestroyEnds] at hs
      split at hs
      · rename_i ce i hpc
        cases hs
        exact .stopReturns ce i hpc
      · cases hs

/-- `stop()` up to its first await. -/
theorem step_cases_stop (n : ClusterNode) (ce : Bool) : Step n (.stop ce) (n.stop ce) := by
  unfold stop
  split
  · rename_i hstate
    exact .stopSkips ce hstate
  · rename_i hstate
    have hlive : n.state.live = true := by grind
    split
    · rename_i hover
      exact .stopsAtOnce ce hlive hover
    · rename_i hover
      exact .stopCancels ce hlive (by simpa using hover)

theorem step_cases_scheduleStart (n : ClusterNode) : Step n .scheduleStart n.scheduleStart := by
  unfold scheduleStart
  split
  · exact .scheduleSkips
  · rename_i hskip
    obtain ⟨hover, hrunning, hterminating⟩ : n.startTask.over = true ∧ n.state ≠ .running ∧
        n.state ≠ .terminating := by simpa using hskip
    exact .schedules hover hrunning hterminating

/-- **The effects of a step are those of `Step`.** -/
theorem step_cases (hs : n.step a = some n') : Step n a n' := by
  cases a with
  | scheduleStart =>
      cases hs
      exact step_cases_scheduleStart n
  | stop ce =>
      cases hs
      exact step_cases_stop n ce
  | start b => exact step_cases_start hs
  | sidecar i b => exact step_cases_sidecar hs
  | stopping b => exact step_cases_stopping hs

end ClusterNode
