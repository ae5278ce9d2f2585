import RayOnGolem.ClusterFinish

/-!
# Stops that leave nothing behind

A stop that raises leaves its object in a state that passes for being stopped.  As long as
none raised, a node that is terminating is being stopped, a terminating cluster has a stop
in progress, and no stop awaits a stack whose own stop raised.

Main results:

* `Unstuck.step` -- a step in which no stop raises keeps a cluster unstuck;
* `Unstuck.sound` -- every stop in progress of such a cluster can come to its end;
* `Unstuck.settles` -- the cluster gets settled, with neither itself nor a node of it being
  stopped, by its own steps.
-/

/-- The stop awaits the stop of stack `r`. -/
def StopStage.awaitsStack (r : Nat) : StopStage → Bool
  | .managerStacks _ busy => busy.contains r
  | _ => false

namespace Cluster

open Runs

variable {digest : NodeConfigData → String} {s s' : Cluster} {a : Act}

/-- Some stop awaits the stop of stack `r`. -/
def awaitsStack (s : Cluster) (r : Nat) : Bool := s.stops.any fun σ => σ.pc.awaitsStack r

/-- A stop raises: that of a node, of a stack that is awaited, or of the cluster. -/
def stopRaises (s : Cluster) : Act → Bool
  | .node _ .stopRaised => true
  | .stack r .managerStopRaised => s.awaitsStack r
  | .stopping _ .raised => true
  | _ => false

/-- Nothing is in the state that a raised stop leaves behind. -/
def unstuck (s : Cluster) : Bool :=
  (s.state != .terminating || s.stopInProgress) &&
    (s.allNodes.all fun v => v.state != .terminating || v.stopping.isSome) &&
    (List.range s.allStacks.length).all fun r =>
      !s.awaitsStack r || (s.allStacks[r]?).map ManagerStack.stopLoop != some .raised

/-- The same as an invariant. -/
structure Unstuck (s : Cluster) : Prop where
  state : s.state = .terminating → ∃ (i : Nat) (σ : StopRun),
    s.stops[i]? = some σ ∧ σ.pc ≠ .over
  nodes : ∀ (n : Nat) (v : NodeView), s.allNodes[n]? = some v → ¬ v.Abandoned
  managerStacks : ∀ (r : Nat) (m : ManagerStack), s.allStacks[r]? = some m →
    s.awaitsStack r = true → m.stopLoop ≠ .raised

theorem unstuck_of (h : s.unstuck = true) : Unstuck s := by
  simp only [unstuck, Bool.and_eq_true, List.all_eq_true, Bool.or_eq_true, bne_iff_ne,
    Bool.not_eq_true', List.mem_range] at h
  obtain ⟨⟨hstate, hnodes⟩, hstacks⟩ := h
  refine ⟨fun hterminating => ?_, fun n v hv habandoned => ?_, fun r m hm hawaits hraised => ?_⟩
  · have hgoes := hstate.resolve_left (not_not.mpr hterminating)
    obtain ⟨σ, hσ, hpc⟩ := List.any_eq_true.mp hgoes
    obtain ⟨i, hi⟩ := List.mem_iff_getElem?.mp hσ
    exact ⟨i, σ, hi, bne_iff_ne.mp hpc⟩
  · have hstopping := (hnodes v (List.mem_of_getElem? hv)).resolve_left
      (not_not.mpr habandoned.1)
    rw [habandoned.2] at hstopping
    cases hstopping
  · rcases hstacks r (List.getElem?_eq_some_iff.mp hm).1 with hnot | hne
    · rw [hawaits] at hnot
      cases hnot
    · exact hne (by rw [hm, Option.map_some, hraised])

/-! ### Steps in which no stop raises -/

/-- A stop that goes on, and awaits no other stack than it did. -/
theorem awaitsStack_set {r i : Nat} {σ : StopRun} (hawaits : s'.awaitsStack r = true)
    (hstops : s'.stops = s.stops.set i σ) :
    s.awaitsStack r = true ∨ σ.pc.awaitsStack r = true := by
  obtain ⟨τ, hτ, hr⟩ := List.any_eq_true.mp hawaits
  rw [hstops] at hτ
  rcases List.mem_or_eq_of_mem_set hτ with hold | rfl
  · exact .inl (List.any_eq_true.mpr ⟨τ, hold, hr⟩)
  · exact .inr hr

theorem awaitsStack_kept {r i : Nat} {σ : StopRun} (hawaits : s'.awaitsStack r = true)
    (hstops : s'.stops = s.stops.set i σ) (hσ : σ.pc.awaitsStack r = false) :
    s.awaitsStack r = true := by
  refine (awaitsStack_set hawaits hstops).resolve_right ?_
  simp [hσ]

theorem awaitsStack_append {r : Nat} {σ : StopRun} (hawaits : s'.awaitsStack r = true)
    (hstops : s'.stops = s.stops ++ [σ]) (hσ : σ.pc.awaitsStack r = false) :
    s.awaitsStack r = true := by
  obtain ⟨τ, hτ, hr⟩ := List.any_eq_true.mp hawaits
  rw [hstops] at hτ
  rcases List.mem_append.mp hτ with hold | hlast
  · exact List.any_eq_true.mpr ⟨τ, hold, hr⟩
  · obtain rfl := List.mem_singleton.mp hlast
    rw [hσ] at hr
    cases hr

/-- A stop of the cluster comes to a stack, and awaits it if it runs. -/
theorem awaitsStack_stopsStack {r k i : Nat} {σ : StopRun} {todo busy : List Nat}
    {running : Bool} (hawaits : s'.awaitsStack r = true) (hσ : s.stops[i]? = some σ)
    (hpc : σ.pc = .managerStacks (k :: todo) busy)
    (hstops : s'.stops = s.stops.set i
      { σ with pc := .managerStacks todo (if running then busy ++ [k] else busy) }) :
    s.awaitsStack r = true ∨ (r = k ∧ running = true) := by
  rcases awaitsStack_set hawaits hstops with hold | hnew
  · exact .inl hold
  · have hold : r ∈ busy → s.awaitsStack r = true := fun hr =>
      List.any_eq_true.mpr ⟨σ, List.mem_of_getElem? hσ, by
        simpa [hpc, StopStage.awaitsStack] using hr⟩
    cases running with
    | false => exact .inl (hold (by simpa [StopStage.awaitsStack] using hnew))
    | true =>
        have hr : r ∈ busy ∨ r = k := by simpa [StopStage.awaitsStack] using hnew
        exact hr.imp hold fun heq => ⟨heq, rfl⟩

/-- The stop of a running stack has not raised yet. -/
theorem stop_ne_raised {m : ManagerStack} (hrunning : m.isRunning = true) :
    m.stop.stopLoop ≠ .raised := by
  intro hraised
  rcases ManagerStack.halting_stop hrunning with hgo | hdone
  · rw [hraised] at hgo
    cases hgo
  · rw [hraised] at hdone
    cases hdone

/-- A further stop of a stack does not raise by itself. -/
theorem stop_kept_ne_raised {m : ManagerStack} (h : m.stopLoop ≠ .raised) :
    m.stop.stopLoop ≠ .raised := by
  cases hrunning : m.isRunning with
  | true => exact stop_ne_raised hrunning
  | false =>
      rw [ManagerStack.stop, if_neg (by simp [hrunning])]
      exact h

/-- A terminating cluster has a stop in progress. -/
theorem Unstuck.state_step (h : Unstuck s) (hraises : s.stopRaises a = false)
    (hs : Step digest s a s') :
    s'.state = .terminating → ∃ (i : Nat) (σ : StopRun),
      s'.stops[i]? = some σ ∧ σ.pc ≠ .over := by
  have hset : ∀ {i : Nat} {σ σ' : StopRun}, s.stops[i]? = some σ → σ'.pc ≠ .over →
      s'.stops = s.stops.set i σ' →
      ∃ (j : Nat) (τ : StopRun), s'.stops[j]? = some τ ∧ τ.pc ≠ .over := by
    intro i σ σ' hσ hpc hstops
    exact ⟨i, σ', by rw [hstops]; exact Objects.set_self hσ, hpc⟩
  cases hs with
  | stopPasses ce => exact fun _ => ⟨_, _, List.getElem?_concat_length, by simp⟩
  | lastNodeStops n v => exact fun _ => ⟨_, _, List.getElem?_concat_length, by simp⟩
  | stopsNode i n σ todo busy v hσ => exact fun _ => hset hσ (by simp) rfl
  | nodesDone i σ busy hσ => exact fun _ => hset hσ (by simp) rfl
  | stopsStack i r σ todo busy m hσ => exact fun _ => hset hσ (by simp) rfl
  | stacksDone i σ busy hσ => exact fun _ => hset hσ (by simp) rfl
  | startPasses q => exact fun hst => by cases hst
  | startDone t c => exact fun hst => by cases hst
  | paymentStopped i σ => exact fun hst => by cases hst
  | stopRaised i σ => cases hraises
  | _ => exact h.state

/-- A terminating node is being stopped. -/
theorem Unstuck.nodes_step (h : Unstuck s) (hraises : s.stopRaises a = false)
    (hs : Step digest s a s') (n : Nat) (v : NodeView) (hv : s'.allNodes[n]? = some v) :
    ¬ v.Abandoned := by
  have hset : ∀ {k : Nat} {w : NodeView}, (s.allNodes.set k w)[n]? = some v →
      ¬ w.Abandoned → ¬ v.Abandoned := by
    intro k w hv hw
    rcases Objects.set_cases hv with ⟨-, rfl, -⟩ | ⟨-, hold⟩
    · exact hw
    · exact h.nodes n v hold
  have hstop : ∀ {k : Nat} {w : NodeView} (ce : Bool), s.allNodes[k]? = some w →
      ¬ (w.stop ce).Abandoned := by
    intro k w ce hw
    unfold NodeView.stop
    split
    · exact fun habandoned => absurd habandoned.2 (by simp)
    · exact h.nodes k w hw
  cases hs with
  | finishes t k c r p id =>
      rcases addNodes_cases hv with hold | ⟨-, hpending, -⟩
      · exact h.nodes n v hold
      · intro habandoned
        rw [habandoned.1] at hpending
        cases hpending
  | stopsNode i k σ todo busy w hσ hpc hw => exact hset hv (hstop false hw)
  | nodeReady k w => exact hset hv fun habandoned => by cases habandoned.1
  | nodeStartFailed k w => exact hset hv fun habandoned => by cases habandoned.1
  | nodeStop k w hw => exact hset hv (hstop true hw)
  | nodeStopped k w ce => exact hset hv fun habandoned => by cases habandoned.1
  | nodeStopRaised k w ce => cases hraises
  | _ => exact h.nodes n v hv

/-- No stop awaits a stack whose own stop raised. -/
theorem Unstuck.stacks_step (h : Unstuck s) (hraises : s.stopRaises a = false)
    (hs : Step digest s a s') (r : Nat) (m : ManagerStack) (hm : s'.allStacks[r]? = some m)
    (hawaits : s'.awaitsStack r = true) : m.stopLoop ≠ .raised := by
  have hset : ∀ {k : Nat} {w w' : ManagerStack}, s.allStacks[k]? = some w →
      (s.allStacks.set k w')[r]? = some m → s.awaitsStack r = true →
      (r = k → w.stopLoop ≠ .raised → w'.stopLoop ≠ .raised) → m.stopLoop ≠ .raised := by
    intro k w w' hw hm hr hkept
    rcases Objects.set_cases hm with ⟨rfl, rfl, -⟩ | ⟨-, hold⟩
    · exact hkept rfl (h.managerStacks r w hw hr)
    · exact h.managerStacks r m hold hr
  cases hs with
  | creates t c goal hash hc hstage =>
      rcases Objects.append_cases hm with hold | ⟨-, rfl⟩
      · exact h.managerStacks r m hold hawaits
      · exact fun hraised => by cases hraised
  | managerStarted t c goal hash k w w' hc hstage hw hw' =>
      refine hset hw hm hawaits fun _ hne => ?_
      rw [(ManagerStack.frame_managerStarted hw').1]
      exact hne
  | handsOut t c goal hash k w w' stage L hc hstage hw hw' =>
      refine hset hw hm hawaits fun _ hne => ?_
      rw [(ManagerStack.frame_managerStarted hw').1]
      exact hne
  | managerStartRaised t c goal hash k w w' L hc hstage hw hw' =>
      refine hset hw hm hawaits fun _ hne => ?_
      rw [(ManagerStack.frame_managerStartRaised hw').1]
      exact hne
  | stopPasses ce => exact h.managerStacks r m hm (awaitsStack_append hawaits rfl rfl)
  | lastNodeStops n v => exact h.managerStacks r m hm (awaitsStack_append hawaits rfl rfl)
  | stopsNode i n σ todo busy v =>
      exact h.managerStacks r m hm (awaitsStack_kept hawaits rfl rfl)
  | nodesDone i σ busy =>
      exact h.managerStacks r m hm (awaitsStack_kept hawaits rfl rfl)
  | stopsStack i k σ todo busy w hσ hpc hw =>
      rcases awaitsStack_stopsStack hawaits hσ hpc rfl with hold | ⟨rfl, hrunning⟩
      · exact hset hw hm hold fun _ hne => stop_kept_ne_raised hne
      · obtain rfl := Option.some.inj (hm.symm.trans (Objects.set_self hw))
        exact stop_ne_raised hrunning
  | stacksDone i σ busy =>
      exact h.managerStacks r m hm (awaitsStack_kept hawaits rfl rfl)
  | paymentStopped i σ =>
      exact h.managerStacks r m hm (awaitsStack_kept hawaits rfl rfl)
  | stopRaised i σ => cases hraises
  | stackStops k w hw => exact hset hw hm hawaits fun _ hne => stop_kept_ne_raised hne
  | managerStopped k w w' hw hw' =>
      refine hset hw hm hawaits fun _ _ hraised => ?_
      unfold ManagerStack.managerStopped at hw'
      split at hw' <;> cases hw' <;> cases hraised
  | managerStopRaised k w w' hw =>
      refine hset hw hm hawaits ?_
      rintro rfl
      have hnot : s.awaitsStack r = false := hraises
      exact absurd (show s.awaitsStack r = true from hawaits) (by simp [hnot])
  | _ => exact h.managerStacks r m hm hawaits

/-- **A step in which no stop raises** leaves nothing behind. -/
theorem Unstuck.step (h : Unstuck s) (hraises : s.stopRaises a = false)
    (hs : Step digest s a s') : Unstuck s' :=
  ⟨h.state_step hraises hs, h.nodes_step hraises hs, h.stacks_step hraises hs⟩

/-! ### Such a cluster gets settled -/

/-- Neither the cluster nor a node of it is just being stopped. -/
def settled (s : Cluster) : Bool :=
  s.state != .terminating && s.allNodes.all fun v => v.state != .terminating

theorem settled_iff : s.settled = true ↔ s.state ≠ .terminating ∧
    ∀ (n : Nat) (v : NodeView), s.allNodes[n]? = some v → v.state ≠ .terminating := by
  rw [settled, Bool.and_eq_true, List.all_eq_true, bne_iff_ne]
  refine and_congr_right fun _ => ⟨fun h n v hv => ?_, fun h v hv => ?_⟩
  · exact bne_iff_ne.mp (h v (List.mem_of_getElem? hv))
  · obtain ⟨n, hn⟩ := List.mem_iff_getElem?.mp hv
    exact bne_iff_ne.mpr (h n v hn)

/-- **A stop in progress can come to its end.** -/
theorem Unstuck.sound (h : Unstuck s) (hknown : Known s) {i : Nat} {σ : StopRun}
    (hσ : s.stops[i]? = some σ) (hpc : σ.pc ≠ .over) : s.StageSound σ.pc := by
  have hstage := hknown.stops σ (List.mem_of_getElem? hσ)
  cases hst : σ.pc with
  | nodes todo busy =>
      rw [hst] at hstage
      refine ⟨fun n hn => ?_, fun n hn => ?_⟩
      · obtain ⟨v, hv⟩ := hstage.1 n hn
        exact ⟨v, hv, h.nodes n v hv⟩
      · obtain ⟨v, hv, hlive⟩ := hstage.2 n hn
        exact ⟨v, hv, hlive, h.nodes n v hv⟩
  | managerStacks todo busy =>
      rw [hst] at hstage
      refine ⟨hstage.1, fun r hr => ?_⟩
      obtain ⟨m, hm, hcalled⟩ := hstage.2 r hr
      have hawaits : s.awaitsStack r = true :=
        List.any_eq_true.mpr ⟨σ, List.mem_of_getElem? hσ, by
          simpa [hst, StopStage.awaitsStack] using hr⟩
      have hraised := h.managerStacks r m hm hawaits
      refine ⟨m, hm, ?_⟩
      cases hloop : m.stopLoop with
      | notCalled => exact absurd hloop hcalled
      | «at» k => exact .inl (by rw [hloop]; rfl)
      | returned => exact .inr hloop
      | raised => exact absurd hloop hraised
  | payment => trivial
  | «over» => exact absurd hst hpc

/-- Once nobody stops a node of it any more, no node is terminating. -/
theorem Unstuck.not_terminating (h : Unstuck s) (hkept : Kept s s') (hquiet : ∀ n, NodeQuiet n s')
    (n : Nat) (v : NodeView) (hv : s'.allNodes[n]? = some v) : v.state ≠ .terminating := by
  intro hterminating
  have hlt : n < s.allNodes.length := by
    rw [← hkept.nodesLength]
    exact (List.getElem?_eq_some_iff.mp hv).1
  obtain ⟨w, hw, hends⟩ := hkept.node n _ (List.getElem?_eq_getElem hlt)
  obtain rfl : w = v := Option.some.inj (hw.symm.trans hv)
  exact h.nodes n _ (List.getElem?_eq_getElem hlt)
    (hends.abandoned ⟨hterminating, hquiet n w hw⟩)

/-- **It gets settled** by its own steps, the last of which ends its stop, if it is being
stopped. -/
theorem Unstuck.settles (h : Unstuck s) (hknown : Known s) (digest : NodeConfigData → String) :
    ∃ s', FinishesTo digest s s' ∧ (s'.settled = true ∨
      ∃ i s'', s'.step digest (.stopping i .paymentStopped) = some s'' ∧ s''.settled = true) := by
  by_cases hterminating : s.state = .terminating
  · obtain ⟨i, σ, hσ, hpc⟩ := h.state hterminating
    obtain ⟨s', hrun, hσ', hquiet⟩ := finish digest hσ (h.sound hknown hσ hpc)
      hknown.managerStacks
    have hstep : s'.step digest (.stopping i .paymentStopped) =
        s'.paymentStopped i ⟨σ.callEvents, .payment⟩ := by
      simp only [Cluster.step, hσ', stepStop]
    have hnot := h.not_terminating (FinishesTo.kept hrun) hquiet
    exact ⟨s', hrun, .inr ⟨i, _, hstep, settled_iff.mpr ⟨fun hst => (by cases hst), hnot⟩⟩⟩
  · obtain ⟨s', hrun, -, hquiet⟩ := quiet_nodes digest s
    have hkept := FinishesTo.kept hrun
    refine ⟨s', hrun, .inl (settled_iff.mpr ⟨?_, h.not_terminating hkept hquiet⟩)⟩
    rw [hkept.state]
    exact hterminating

end Cluster
