import RayOnGolem.ClusterStep

/-!
# From a start to the next one

The states of a cluster follow its starts and stops as long as a stopped cluster
is only started again when nothing of it is going on.  `Life` says which state
goes with what: a stop in progress is the only one and the cluster is terminating;
a start in progress is all that goes on, and the cluster is pending; an on-stop
callback that has not run belongs to a terminated cluster.

Main results:

* `Life.step` -- every step but the service's own `stop` keeps this up, if a start
  finds the cluster at rest, or running and not being started;
* `Life.terminated`, `Life.callback_made`, `Step.starting` -- a stopped cluster stays
  stopped until it is started again, a callback is made by the end of a stop, and
  only a start puts a call into `start()`.
-/

namespace Cluster

variable {digest : NodeConfigData → String} {s s' : Cluster} {a : Act}

/-- Nothing of the cluster is going on, apart from call `t`. -/
structure Resting (s : Cluster) (t : Nat) : Prop where
  calls : ∀ (u : Nat) (c : Call), s.calls[u]? = some c → u ≠ t → c.stage = .over
  stops : ∀ (i : Nat) (σ : StopRun), s.stops[i]? = some σ → σ.pc = .over
  events : s.events = []
  nodes : ∀ (n : Nat) (v : NodeView), s.allNodes[n]? = some v →
    v.state.live = false ∧ v.stopping ≠ some true

/-- Nothing of the cluster is going on, and no on-stop callback is to come. -/
def atRest (s : Cluster) : Bool :=
  (s.calls.all fun c => c.stage == .over) && !s.stopInProgress && s.events.isEmpty &&
    (s.allNodes.all fun v => !v.state.live && v.stopping != some true) && s.onStop == 0

/-- No call is in `start()`. -/
def NoStarting (s : Cluster) : Prop :=
  ∀ (t : Nat) (c : Call), s.calls[t]? = some c → c.stage ≠ .starting

/-- What goes on in a cluster agrees with its state. -/
structure Life (s : Cluster) : Prop where
  stopping : ∀ (i : Nat) (σ : StopRun), s.stops[i]? = some σ → σ.pc ≠ .over →
    s.state = .terminating
  oneStop : ∀ (i j : Nat) (σ τ : StopRun), s.stops[i]? = some σ → s.stops[j]? = some τ →
    σ.pc ≠ .over → τ.pc ≠ .over → i = j
  starting : ∀ (t : Nat) (c : Call), s.calls[t]? = some c → c.stage = .starting →
    s.state = .pending ∧ s.Resting t
  callbacks : 0 < s.onStop → s.state = .terminated
  oneCallback : s.onStop ≤ 1

/-- **The condition**: the service does not stop the cluster or call
`request_nodes()` on its own, and a start finds the cluster at rest, or live and
not being started. -/
def Carries (s : Cluster) : Act → Prop
  | .start _ => s.atRest = true ∨ s.state.live = true ∧ s.NoStarting
  | .enter _ => False
  | .stop _ => False
  | _ => True

theorem resting_of_atRest (h : s.atRest = true) : s.Resting s.calls.length ∧ s.onStop = 0 := by
  simp only [atRest, Bool.and_eq_true, List.all_eq_true, beq_iff_eq, Bool.not_eq_true',
    List.isEmpty_iff, bne_iff_ne] at h
  obtain ⟨⟨⟨⟨hcalls, hstops⟩, hevents⟩, hnodes⟩, hzero⟩ := h
  refine ⟨⟨?_, ?_, hevents, ?_⟩, hzero⟩
  · intro u c hc _
    exact hcalls c (List.mem_of_getElem? hc)
  · intro i σ hσ
    simp only [stopInProgress, List.any_eq_false, bne_iff_ne, not_not] at hstops
    exact hstops σ (List.mem_of_getElem? hσ)
  · intro n v hv
    exact hnodes v (List.mem_of_getElem? hv)

theorem life_initial (h : Initial s) : Life s := by
  subst h
  refine ⟨?_, ?_, ?_, ?_, Nat.zero_le 1⟩
  · intro i σ hσ
    simp at hσ
  · intro i j σ τ hσ
    simp at hσ
  · intro t c hc
    simp at hc
  · intro hpos
    simp at hpos

/-- A call that was handed a stack is past `start()`. -/
theorem Onward.ne_starting {c : Call} {goal : Goal} {r : Nat} {stage : Stage}
    (h : Onward digest c r goal stage) : stage ≠ .starting := by
  cases h <;> simp

/-! ### What excludes a start -/

/-- A call that is past `start()` and not over. -/
theorem Life.noStarting_of_call (h : Life s) {t : Nat} {c : Call} (hc : s.calls[t]? = some c)
    (hover : c.stage ≠ .over) (hstart : c.stage ≠ .starting) : s.NoStarting := by
  intro u d hd hstarting
  have hne : t ≠ u := by
    rintro rfl
    obtain rfl : c = d := Option.some.inj (hc.symm.trans hd)
    exact hstart hstarting
  exact hover ((h.starting u d hd hstarting).2.calls t c hc hne)

/-- A stop in progress. -/
theorem Life.noStarting_of_stop (h : Life s) {i : Nat} {σ : StopRun} (hσ : s.stops[i]? = some σ)
    (hpc : σ.pc ≠ .over) : s.NoStarting :=
  fun t c hc hstarting => hpc ((h.starting t c hc hstarting).2.stops i σ hσ)

/-- A node event. -/
theorem Life.noStarting_of_event (h : Life s) {n : Nat} (hn : n ∈ s.events) : s.NoStarting := by
  intro t c hc hstarting
  rw [(h.starting t c hc hstarting).2.events] at hn
  cases hn

/-- A live node. -/
theorem Life.noStarting_of_live (h : Life s) {n : Nat} {v : NodeView}
    (hv : s.allNodes[n]? = some v) (hlive : v.state.live = true) : s.NoStarting := by
  intro t c hc hstarting
  have := ((h.starting t c hc hstarting).2.nodes n v hv).1
  rw [hlive] at this
  cases this

/-! ### Steps -/

/-- A step of a cluster that is not being started, and leaves its state, stops and
callbacks as they are. -/
theorem Life.frame (h : Life s) (hnone : s'.NoStarting) (hstate : s'.state = s.state)
    (hstops : s'.stops = s.stops) (honStop : s'.onStop = s.onStop) : Life s' := by
  refine ⟨?_, ?_, fun t c hc hst => absurd hst (hnone t c hc), ?_, ?_⟩
  · rw [hstops, hstate]
    exact h.stopping
  · rw [hstops]
    exact h.oneStop
  · rw [honStop, hstate]
    exact h.callbacks
  · rw [honStop]
    exact h.oneCallback

/-- A step that changes nothing that `Life` speaks of. -/
theorem Life.unrelated (h : Life s) (hcalls : s'.calls = s.calls) (hstate : s'.state = s.state)
    (hstops : s'.stops = s.stops) (hevents : s'.events = s.events)
    (hall : s'.allNodes = s.allNodes) (honStop : s'.onStop = s.onStop) : Life s' := by
  refine ⟨?_, ?_, ?_, ?_, ?_⟩
  · rw [hstops, hstate]
    exact h.stopping
  · rw [hstops]
    exact h.oneStop
  · intro t c hc hst
    rw [hcalls] at hc
    obtain ⟨hpending, hresting⟩ := h.starting t c hc hst
    refine ⟨hstate.trans hpending, ?_, ?_, ?_, ?_⟩
    · rw [hcalls]
      exact hresting.calls
    · rw [hstops]
      exact hresting.stops
    · rw [hevents]
      exact hresting.events
    · rw [hall]
      exact hresting.nodes
  · rw [honStop, hstate]
    exact h.callbacks
  · rw [honStop]
    exact h.oneCallback

/-- A call goes to a stage past `start()`. -/
theorem NoStarting.set (h : s.NoStarting) {t : Nat} {c : Call} (hstage : c.stage ≠ .starting)
    (hcalls : s'.calls = s.calls.set t c) : s'.NoStarting := by
  intro u d hd
  rw [hcalls] at hd
  rcases Objects.set_cases hd with ⟨-, rfl, -⟩ | ⟨-, hold⟩
  · exact hstage
  · exact h u d hold

/-- A call past `start()` goes on. -/
theorem Life.call (h : Life s) {t : Nat} {c c' : Call}
    (hcalls : s'.calls = s.calls.set t c') (hc : s.calls[t]? = some c)
    (hover : c.stage ≠ .over) (hstart : c.stage ≠ .starting) (hstage : c'.stage ≠ .starting)
    (hstate : s'.state = s.state)
    (hstops : s'.stops = s.stops) (honStop : s'.onStop = s.onStop) : Life s' :=
  h.frame ((h.noStarting_of_call hc hover hstart).set hstage hcalls) hstate hstops honStop

/-- A stop in progress goes on, or ends without making the cluster terminated. -/
theorem Life.stop (h : Life s) {i : Nat} {σ σ' : StopRun} (hσ : s.stops[i]? = some σ)
    (hpc : σ.pc ≠ .over) (hstops : s'.stops = s.stops.set i σ') (hcalls : s'.calls = s.calls)
    (hstate : s'.state = s.state) (honStop : s'.onStop = s.onStop) : Life s' := by
  have hold : ∀ {j : Nat} {τ : StopRun}, s'.stops[j]? = some τ → τ.pc ≠ .over →
      ∃ ρ, s.stops[j]? = some ρ ∧ ρ.pc ≠ .over := by
    intro j τ hτ hne
    rw [hstops] at hτ
    rcases Objects.set_cases hτ with ⟨rfl, -, -⟩ | ⟨-, hτ⟩
    · exact ⟨σ, hσ, hpc⟩
    · exact ⟨τ, hτ, hne⟩
  have hnone := h.noStarting_of_stop hσ hpc
  refine ⟨?_, ?_, ?_, ?_, ?_⟩
  · intro j τ hτ hne
    rw [hstate]
    exact h.stopping i σ hσ hpc
  · intro j k τ ρ hτ hρ hne hne'
    obtain ⟨τ', hτ', hne⟩ := hold hτ hne
    obtain ⟨ρ', hρ', hne'⟩ := hold hρ hne'
    exact h.oneStop j k τ' ρ' hτ' hρ' hne hne'
  · intro t c hc hst
    rw [hcalls] at hc
    exact absurd hst (hnone t c hc)
  · rw [honStop, hstate]
    exact h.callbacks
  · rw [honStop]
    exact h.oneCallback

/-- A stop makes the cluster terminated and its callback: no other stop is left. -/
theorem Life.paymentStopped (h : Life s) {i : Nat} {σ σ' : StopRun}
    (hstops : s'.stops = s.stops.set i σ') (hσ : s.stops[i]? = some σ)
    (hpc : σ.pc ≠ .over) (hover : σ'.pc = .over)
    (hcalls : s'.calls = s.calls) (hstate : s'.state = .terminated)
    (honStop : s'.onStop ≤ s.onStop + 1) : Life s' := by
  have hzero : s.onStop = 0 := by
    by_contra hne
    have hterm := h.callbacks (Nat.pos_of_ne_zero hne)
    rw [h.stopping i σ hσ hpc] at hterm
    cases hterm
  have hall : ∀ (j : Nat) (τ : StopRun), s'.stops[j]? = some τ → τ.pc = .over := by
    intro j τ hτ
    rw [hstops] at hτ
    rcases Objects.set_cases hτ with ⟨-, rfl, -⟩ | ⟨hne, hτ⟩
    · exact hover
    · by_contra hgo
      exact hne (h.oneStop j i τ σ hτ hσ hgo hpc)
  have hnone := h.noStarting_of_stop hσ hpc
  refine ⟨?_, ?_, ?_, fun _ => hstate, by omega⟩
  · exact fun j τ hτ hne => absurd (hall j τ hτ) hne
  · exact fun j k τ ρ hτ _ hne => absurd (hall j τ hτ) hne
  · intro t c hc hst
    rw [hcalls] at hc
    exact absurd hst (hnone t c hc)

/-- A node that is neither live nor stopped with events changes into another one. -/
theorem Life.node (h : Life s) {n : Nat} {v v' : NodeView}
    (hall : s'.allNodes = s.allNodes.set n v') (hv : s.allNodes[n]? = some v)
    (hrest : v.state.live = false → v.stopping ≠ some true →
      v'.state.live = false ∧ v'.stopping ≠ some true ∧ s'.events = s.events)
    (hcalls : s'.calls = s.calls) (hstate : s'.state = s.state) (hstops : s'.stops = s.stops)
    (honStop : s'.onStop = s.onStop) : Life s' := by
  refine ⟨?_, ?_, ?_, ?_, ?_⟩
  · rw [hstops, hstate]
    exact h.stopping
  · rw [hstops]
    exact h.oneStop
  · intro t c hc hst
    rw [hcalls] at hc
    obtain ⟨hpending, hresting⟩ := h.starting t c hc hst
    obtain ⟨hlive, hstopping⟩ := hresting.nodes n v hv
    obtain ⟨hlive', hstopping', hevents⟩ := hrest hlive hstopping
    refine ⟨hstate.trans hpending, ?_, ?_, ?_, ?_⟩
    · rw [hcalls]
      exact hresting.calls
    · rw [hstops]
      exact hresting.stops
    · rw [hevents]
      exact hresting.events
    · intro m w hw
      rw [hall] at hw
      rcases Objects.set_cases hw with ⟨-, rfl, -⟩ | ⟨-, hold⟩
      · exact ⟨hlive', hstopping'⟩
      · exact hresting.nodes m w hold
  · rw [honStop, hstate]
    exact h.callbacks
  · rw [honStop]
    exact h.oneCallback

/-- A start of a cluster at rest. -/
theorem Life.startPasses (hrest : s.atRest = true) (q : Request) :
    Life { s with state := .pending, calls := s.calls ++ [⟨q, q.nodeConfig, .starting⟩] } := by
  obtain ⟨hresting, hzero⟩ := resting_of_atRest hrest
  refine ⟨?_, ?_, ?_, ?_, ?_⟩
  · exact fun i σ hσ hne => absurd (hresting.stops i σ hσ) hne
  · exact fun i j σ τ hσ _ hne => absurd (hresting.stops i σ hσ) hne
  · intro t c hc hst
    refine ⟨rfl, ?_, hresting.stops, hresting.events, hresting.nodes⟩
    have hlast : t = s.calls.length := by
      rcases Objects.append_cases hc with hold | ⟨ht, -⟩
      · obtain ⟨hlt, -⟩ := List.getElem?_eq_some_iff.mp hold
        have hover := hresting.calls t c hold (by omega)
        rw [hover] at hst
        cases hst
      · exact ht
    intro u d hd hne
    rcases Objects.append_cases hd with hold | ⟨hu, -⟩
    · obtain ⟨hlt, -⟩ := List.getElem?_eq_some_iff.mp hold
      exact hresting.calls u d hold (by omega)
    · omega
  · intro hpos
    have hpos : 0 < s.onStop := hpos
    omega
  · show s.onStop ≤ 1
    omega

/-- The start in progress ends: no other call is there. -/
theorem Life.startEnds (h : Life s) {t : Nat} {c c' : Call}
    (hcalls : s'.calls = s.calls.set t c') (hc : s.calls[t]? = some c)
    (hstage : c.stage = .starting) (hstage' : c'.stage ≠ .starting) (hstops : s'.stops = s.stops)
    (honStop : s'.onStop = s.onStop) : Life s' := by
  obtain ⟨hpending, hresting⟩ := h.starting t c hc hstage
  have hzero : s.onStop = 0 := by
    by_contra hne
    have hterm := h.callbacks (Nat.pos_of_ne_zero hne)
    rw [hpending] at hterm
    cases hterm
  refine ⟨?_, ?_, ?_, ?_, ?_⟩
  · intro i σ hσ hne
    rw [hstops] at hσ
    exact absurd (hresting.stops i σ hσ) hne
  · rw [hstops]
    exact h.oneStop
  · intro u d hd hst
    rw [hcalls] at hd
    rcases Objects.set_cases hd with ⟨-, rfl, -⟩ | ⟨hne, hold⟩
    · exact absurd hst hstage'
    · rw [hresting.calls u d hold hne] at hst
      cases hst
  · intro hpos
    omega
  · omega

/-- `_on_node_stop` stops a live cluster: no other stop is in progress. -/
theorem Life.stopBegins (h : Life s) {σ : StopRun} (hlive : s.state.live = true)
    (hnone : s'.NoStarting) (hstops : s'.stops = s.stops ++ [σ])
    (hstate : s'.state = .terminating) (honStop : s'.onStop = s.onStop) : Life s' := by
  have hold : ∀ (j : Nat) (τ : StopRun), s.stops[j]? = some τ → τ.pc = .over := by
    intro j τ hτ
    by_contra hne
    rw [h.stopping j τ hτ hne] at hlive
    cases hlive
  have hlast : ∀ {j : Nat} {τ : StopRun}, s'.stops[j]? = some τ → τ.pc ≠ .over →
      j = s.stops.length := by
    intro j τ hτ hne
    rw [hstops] at hτ
    rcases Objects.append_cases hτ with hτ | ⟨hj, -⟩
    · exact absurd (hold j τ hτ) hne
    · exact hj
  have hzero : s.onStop = 0 := by
    by_contra hne
    rw [h.callbacks (Nat.pos_of_ne_zero hne)] at hlive
    cases hlive
  refine ⟨fun _ _ _ _ => hstate, ?_, fun t c hc hst => absurd hst (hnone t c hc), ?_, ?_⟩
  · intro i j τ ρ hτ hρ hne hne'
    rw [hlast hτ hne, hlast hρ hne']
  · intro hpos
    omega
  · omega

/-- **Every step the condition allows keeps state and tasks in agreement.** -/
theorem Life.step (h : Life s) (hok : s.Carries a) (hs : Step digest s a s') : Life s' := by
  cases hs with
  | startPasses q hpending hrunning =>
      rcases hok with hrest | ⟨hlive, -⟩
      · exact Life.startPasses hrest q
      · grind
  | startSkips q hstate =>
      have hnone : s.NoStarting := by
        rcases hok with hrest | ⟨-, hnone⟩
        · intro t c hc hst
          obtain ⟨hlt, -⟩ := List.getElem?_eq_some_iff.mp hc
          rw [(resting_of_atRest hrest).1.calls t c hc (by omega)] at hst
          cases hst
        · exact hnone
      refine h.frame (fun t c hc => ?_) rfl rfl rfl
      rcases Objects.append_cases hc with hold | ⟨-, rfl⟩
      · exact hnone t c hold
      · exact Stage.noConfusion
  | enters q => exact hok.elim
  | startDone t c hc hstage =>
      exact h.startEnds rfl hc hstage (by simp [Call.at]) rfl rfl
  | startRaised t c hc hstage =>
      exact h.startEnds rfl hc hstage (by simp [Call.at]) rfl rfl
  | leaves t c hc hstage =>
      exact h.call rfl hc (by simp [hstage]) (by simp [hstage]) (by simp [Call.at]) rfl rfl rfl
  | prepares t c goal hash hc hstage =>
      exact h.call rfl hc (by simp [hstage]) (by simp [hstage]) (by simp [Call.at]) rfl rfl rfl
  | wakes t c goal hash L hc hstage =>
      have hnone := h.noStarting_of_call hc (by simp [hstage]) (by simp [hstage])
      exact h.frame hnone rfl rfl rfl
  | cancels t c goal hash hc hstage =>
      have hnone := h.noStarting_of_call hc (by simp [hstage]) (by simp [hstage])
      exact h.frame hnone rfl rfl rfl
  | unwinds t c goal hash L hc hstage =>
      exact h.call rfl hc (by simp [hstage]) (by simp [hstage]) (by simp [Call.at]) rfl rfl rfl
  | finds t c goal hash k sem r stage L hc hstage hheld hr hon =>
      exact h.call rfl hc (by simp [hstage]) (by simp [hstage]) hon.ne_starting rfl rfl rfl
  | misses t c goal hash k sem hc hstage =>
      exact h.call rfl hc (by simp [hstage]) (by simp [hstage]) (by simp [Call.at]) rfl rfl rfl
  | creates t c goal hash hc hstage =>
      exact h.call rfl hc (by simp [hstage]) (by simp [hstage]) (by simp) rfl rfl rfl
  | createRaised t c goal hash L hc hstage =>
      exact h.call rfl hc (by simp [hstage]) (by simp [hstage]) (by simp [Call.at]) rfl rfl rfl
  | managerStarted t c goal hash r m m' hc hstage =>
      have hnone := h.noStarting_of_call hc (by simp [hstage]) (by simp [hstage])
      exact h.frame hnone rfl rfl rfl
  | handsOut t c goal hash r m m' stage L hc hstage hm hm' hlast hon =>
      exact h.call rfl hc (by simp [hstage]) (by simp [hstage]) hon.ne_starting rfl rfl rfl
  | managerStartRaised t c goal hash r m m' L hc hstage =>
      exact h.call rfl hc (by simp [hstage]) (by simp [hstage]) (by simp [Call.at]) rfl rfl rfl
  | finishes t k c r p id hc hstage =>
      exact h.call rfl hc (by simp [hstage]) (by simp [hstage]) (by simp [Call.at]) rfl rfl rfl
  | stopPasses ce => exact hok.elim
  | stopSkips ce => exact hok.elim
  | stopsNode i n σ todo busy v hσ hpc => exact h.stop hσ (by simp [hpc]) rfl rfl rfl rfl
  | nodesDone i σ busy hσ hpc => exact h.stop hσ (by simp [hpc]) rfl rfl rfl rfl
  | stopsStack i r σ todo busy m hσ hpc => exact h.stop hσ (by simp [hpc]) rfl rfl rfl rfl
  | stacksDone i σ busy hσ hpc => exact h.stop hσ (by simp [hpc]) rfl rfl rfl rfl
  | paymentStopped i σ hσ hpc =>
      refine h.paymentStopped rfl hσ (by simp [hpc]) rfl rfl rfl ?_
      show (if σ.callEvents then s.onStop + 1 else s.onStop) ≤ s.onStop + 1
      split <;> omega
  | stopRaised i σ hσ hpc => exact h.stop hσ hpc rfl rfl rfl rfl
  | nodeReady n v hv hstate =>
      have hnone := h.noStarting_of_live hv (by rw [hstate]; rfl)
      exact h.frame hnone rfl rfl rfl
  | nodeStartFailed n v hv hstate =>
      have hnone := h.noStarting_of_live hv (by rw [hstate]; rfl)
      exact h.frame hnone rfl rfl rfl
  | nodeStop n v hv =>
      refine h.node rfl hv (fun hlive hstopping => ?_) rfl rfl rfl rfl
      rw [NodeView.stop, if_neg (by simp [hlive])]
      exact ⟨hlive, hstopping, rfl⟩
  | nodeStopped n v ce hv hce =>
      refine h.node rfl hv (fun hlive hstopping => ⟨rfl, by simp, ?_⟩) rfl rfl rfl rfl
      cases ce with
      | true => exact absurd hce hstopping
      | false => rfl
  | nodeStopRaised n v ce hv hce =>
      exact h.node rfl hv (fun hlive hstopping => ⟨hlive, by simp, rfl⟩) rfl rfl rfl rfl
  | lastNodeStops n v hv hn hlast hlive =>
      exact h.stopBegins hlive (h.noStarting_of_event hn) rfl rfl rfl
  | lastNodeSkips n v hv hn => exact h.frame (h.noStarting_of_event hn) rfl rfl rfl
  | nodeStoppedStacks n v hv hn => exact h.frame (h.noStarting_of_event hn) rfl rfl rfl
  | stackStops r m => exact h.unrelated rfl rfl rfl rfl rfl rfl
  | managerStopped r m m' => exact h.unrelated rfl rfl rfl rfl rfl rfl
  | managerStopRaised r m m' => exact h.unrelated rfl rfl rfl rfl rfl rfl
  | onStopTaken hpos =>
      refine ⟨h.stopping, h.oneStop, ?_, ?_, ?_⟩
      · intro t c hc hst
        obtain ⟨hpending, hresting⟩ := h.starting t c hc hst
        exact ⟨hpending, hresting.calls, hresting.stops, hresting.events, hresting.nodes⟩
      · exact fun _ => h.callbacks hpos
      · exact Nat.le_trans (Nat.sub_le _ _) h.oneCallback

/-! ### What only a start or the end of a stop does -/

/-- A terminated cluster is terminated until it is started again. -/
theorem Life.terminated (h : Life s) (hs : Step digest s a s') (hstart : ∀ q, a ≠ .start q)
    (hterm : s.state = .terminated) : s'.state = .terminated := by
  have hlive : s.state.live ≠ true := by simp [hterm]
  cases hs with
  | startPasses q => exact absurd rfl (hstart q)
  | startDone t c hc hstage =>
      rw [(h.starting t c hc hstage).1] at hterm
      cases hterm
  | stopPasses ce hstate => exact absurd hstate hlive
  | paymentStopped i σ => rfl
  | lastNodeStops n v hv hn hlast hstate => exact absurd hstate hlive
  | _ => exact hterm

/-- A new on-stop callback is made by the end of a stop. -/
theorem Life.callback_made (h : Life s) (hs : Step digest s a s') (hmore : s.onStop < s'.onStop) :
    s.state = .terminating := by
  cases hs with
  | paymentStopped i σ hσ hpc => exact h.stopping i σ hσ (by simp [hpc])
  | onStopTaken hpos =>
      have hmore : s.onStop < s.onStop - 1 := hmore
      omega
  | _ => exact absurd hmore (Nat.lt_irrefl _)

/-- Only a start puts a call into `start()`. -/
theorem Step.starting (hs : Step digest s a s') (hstart : ∀ q, a ≠ .start q) {u : Nat} {d : Call}
    (hd : s'.calls[u]? = some d) (hst : d.stage = .starting) : s.calls[u]? = some d := by
  have hset : ∀ {t : Nat} {c : Call}, (s.calls.set t c)[u]? = some d → c.stage ≠ .starting →
      s.calls[u]? = some d := by
    intro t c hold hne
    rcases Objects.set_cases hold with ⟨-, rfl, -⟩ | ⟨-, hold⟩
    · exact absurd hst hne
    · exact hold
  cases hs with
  | startPasses q => exact absurd rfl (hstart q)
  | startSkips q => exact absurd rfl (hstart q)
  | enters q =>
      rcases Objects.append_cases hd with hold | ⟨-, rfl⟩
      · exact hold
      · cases hst
  | startDone t c => exact hset hd (by simp [Call.at])
  | startRaised t c => exact hset hd (by simp [Call.at])
  | leaves t c => exact hset hd (by simp [Call.at])
  | prepares t c => exact hset hd (by simp [Call.at])
  | unwinds t c => exact hset hd (by simp [Call.at])
  | finds t c goal hash k sem r stage L hc hstage hheld hr hon => exact hset hd hon.ne_starting
  | misses t c => exact hset hd (by simp [Call.at])
  | creates t c => exact hset hd (by simp)
  | createRaised t c => exact hset hd (by simp [Call.at])
  | handsOut t c goal hash r m m' stage L hc hstage hm hm' hlast hon =>
      exact hset hd hon.ne_starting
  | managerStartRaised t c => exact hset hd (by simp [Call.at])
  | finishes t k c => exact hset hd (by simp [Call.at])
  | _ => exact hd

/-- A call whose start returned or raised is past `start()`. -/
theorem Step.started {t : Nat} {r : CallAct} (hs : Step digest s (.call t r) s')
    (hr : r = .startDone ∨ r = .startRaised) {d : Call} (hd : s'.calls[t]? = some d) :
    d.stage ≠ .starting := by
  have hset : ∀ {c e : Call}, s.calls[t]? = some c → (s.calls.set t e)[t]? = some d → d = e := by
    intro c e hc he
    rw [Objects.set_self hc] at he
    exact (Option.some.inj he).symm
  cases hs with
  | startDone t c hc =>
      rw [hset hc hd]
      simp [Call.at]
  | startRaised t c hc =>
      rw [hset hc hd]
      simp [Call.at]
  | _ => simp at hr

/-! ### A finished cluster -/

/-- No call is going on. -/
def CallsOver (s : Cluster) : Prop :=
  ∀ (t : Nat) (c : Call), s.calls[t]? = some c → c.stage = .over

/-- The cluster is terminated and so are all its nodes. -/
structure Finished (s : Cluster) : Prop where
  state : s.state = .terminated
  nodes : ∀ (n : Nat) (v : NodeView), s.allNodes[n]? = some v → v.state = .terminated

/-- Without requests no call goes on. -/
theorem CallsOver.step (h : CallsOver s) (hs : Step digest s a s') (hstart : ∀ q, a ≠ .start q)
    (henter : ∀ q, a ≠ .enter q) : CallsOver s' := by
  have hset : ∀ {t : Nat} {c d : Call}, s.calls[t]? = some c → c.stage ≠ .over →
      s'.calls = s.calls.set t d → CallsOver s' :=
    fun hc hne _ => absurd (h _ _ hc) hne
  cases hs with
  | startPasses q => exact absurd rfl (hstart q)
  | startSkips q => exact absurd rfl (hstart q)
  | enters q => exact absurd rfl (henter q)
  | startDone t c hc hstage => exact hset hc (by simp [hstage]) rfl
  | startRaised t c hc hstage => exact hset hc (by simp [hstage]) rfl
  | leaves t c hc hstage => exact hset hc (by simp [hstage]) rfl
  | prepares t c goal hash hc hstage => exact hset hc (by simp [hstage]) rfl
  | unwinds t c goal hash L hc hstage => exact hset hc (by simp [hstage]) rfl
  | finds t c goal hash k sem r stage L hc hstage => exact hset hc (by simp [hstage]) rfl
  | misses t c goal hash k sem hc hstage => exact hset hc (by simp [hstage]) rfl
  | creates t c goal hash hc hstage => exact hset hc (by simp [hstage]) rfl
  | createRaised t c goal hash L hc hstage => exact hset hc (by simp [hstage]) rfl
  | handsOut t c goal hash r m m' stage L hc hstage => exact hset hc (by simp [hstage]) rfl
  | managerStartRaised t c goal hash r m m' L hc hstage => exact hset hc (by simp [hstage]) rfl
  | finishes t k c r p id hc hstage => exact hset hc (by simp [hstage]) rfl
  | _ => exact h

/-- A node of a finished cluster changes into a terminated one. -/
theorem Finished.setNode (h : Finished s) {n : Nat} {v : NodeView}
    (hall : s'.allNodes = s.allNodes.set n v) (hv : v.state = .terminated)
    (hstate : s'.state = s.state) : Finished s' := by
  refine ⟨hstate.trans h.state, fun m w hw => ?_⟩
  rw [hall] at hw
  rcases Objects.set_cases hw with ⟨-, rfl, -⟩ | ⟨-, hold⟩
  · exact hv
  · exact h.nodes m w hold

/-- **A finished cluster stays finished** without requests. -/
theorem Finished.step (h : Finished s) (hcalls : CallsOver s) (hs : Step digest s a s')
    (hstart : ∀ q, a ≠ .start q) : Finished s' := by
  have hlive : s.state.live ≠ true := by simp [h.state]
  cases hs with
  | startPasses q => exact absurd rfl (hstart q)
  | startDone t c hc hstage => simp [hcalls t c hc] at hstage
  | finishes t k c r p id hc hstage => simp [hcalls t c hc] at hstage
  | stopPasses ce hstate => exact absurd hstate hlive
  | stopsNode i n σ todo busy v hσ hpc hv =>
      have hterm := h.nodes n v hv
      refine h.setNode rfl ?_ rfl
      rw [NodeView.stop, if_neg (by simp [hterm])]
      exact hterm
  | paymentStopped i σ => exact ⟨rfl, h.nodes⟩
  | nodeReady n v hv hstate => simp [h.nodes n v hv] at hstate
  | nodeStartFailed n v hv => exact h.setNode rfl rfl rfl
  | nodeStop n v hv =>
      have hterm := h.nodes n v hv
      refine h.setNode rfl ?_ rfl
      rw [NodeView.stop, if_neg (by simp [hterm])]
      exact hterm
  | nodeStopped n v ce hv => exact h.setNode rfl rfl rfl
  | nodeStopRaised n v ce hv => exact h.setNode rfl (h.nodes n v hv) rfl
  | lastNodeStops n v hv hn hlast hstate => exact absurd hstate hlive
  | _ => exact ⟨h.state, h.nodes⟩

/-- A stop in progress goes on until it returns or raises. -/
theorem Step.stop_goes_on (hs : Step digest s a s') {i : Nat} {σ : StopRun}
    (hσ : s.stops[i]? = some σ) (hpc : σ.pc ≠ .over) (hreturn : a ≠ .stopping i .paymentStopped)
    (hraise : a ≠ .stopping i .raised) :
    ∃ σ', s'.stops[i]? = some σ' ∧ σ'.pc ≠ .over := by
  have hset : ∀ {j : Nat} {τ : StopRun}, (j = i → τ.pc ≠ .over) → s'.stops = s.stops.set j τ →
      ∃ σ', s'.stops[i]? = some σ' ∧ σ'.pc ≠ .over := by
    intro j τ hτ hstops
    rw [hstops]
    by_cases hji : j = i
    · subst hji
      exact ⟨τ, Objects.set_self hσ, hτ rfl⟩
    · exact ⟨σ, by rw [List.getElem?_set_ne hji]; exact hσ, hpc⟩
  cases hs with
  | stopPasses ce => exact ⟨σ, Objects.append_old hσ, hpc⟩
  | stopsNode j n τ todo busy v => exact hset (fun _ => by simp) rfl
  | nodesDone j τ busy => exact hset (fun _ => by simp) rfl
  | stopsStack j r τ todo busy m => exact hset (fun _ => by simp) rfl
  | stacksDone j τ busy => exact hset (fun _ => by simp) rfl
  | paymentStopped j τ => exact hset (fun hji => absurd (hji ▸ rfl) hreturn) rfl
  | stopRaised j τ => exact hset (fun hji => absurd (hji ▸ rfl) hraise) rfl
  | lastNodeStops n v => exact ⟨σ, Objects.append_old hσ, hpc⟩
  | _ => exact ⟨σ, hσ, hpc⟩

end Cluster
