import RayOnGolem.ClusterTerminated

/-!
# The stacks of live nodes

A node uses the stacks that its request was handed.  Between these two moments
the stacks are known only to the request, so that `_on_node_stop`, which looks
at the registered nodes, takes them for idle; and a stack that was stopped, or
whose start failed, stays in the dictionary and is handed out again.

A stack is `Needed` by a live node that uses it and by a request that was handed
it.  The invariant is that needed stacks run and that nobody is about to stop
them.  Main results:

* `live_nodes_stacks_run` -- in every run in which a request finds only running
  stacks that are not about to be stopped, nodes are registered only beside a
  `Cluster.stop`, and no stack is stopped while a request holds it
  (`keepsStacks`), the stacks of every live node run with all their managers;
* `stopped_stack_handed_out` -- a stopped stack is handed to a new node.
-/

namespace Cluster

open Runs

variable {digest : NodeConfigData → String} {s s' : Cluster} {a : Act} {r : Nat}

/-- The priority stack, when it is known. -/
def Goal.obtained : Goal → List Nat
  | .priority => []
  | .main p => p.toList

/-- The stacks that a call was handed and has not given to nodes yet. -/
def Call.obtained (c : Call) : List Nat :=
  match c.stage with
  | .locking goal _ => Goal.obtained goal
  | .creating goal _ => Goal.obtained goal
  | .startingStack goal _ _ => Goal.obtained goal
  | .ready r p => r :: p.toList
  | _ => []

/-- The stack that a call is starting. -/
def Call.starts (c : Call) : Option Nat :=
  match c.stage with
  | .startingStack _ _ r => some r
  | _ => none

/-- No request holds stack `r` or is starting it. -/
def unheld (s : Cluster) (r : Nat) : Bool :=
  s.calls.all fun c => !(Call.obtained c).contains r && Call.starts c != some r

/-- Stack `r` runs with all its managers. -/
def StackRuns (s : Cluster) (r : Nat) : Prop := ∃ m, s.allStacks[r]? = some m ∧ m.Running

instance (s : Cluster) (r : Nat) : Decidable (s.StackRuns r) :=
  match h : s.allStacks[r]? with
  | some m =>
      if hm : m.Running then .isTrue ⟨m, h, hm⟩
      else .isFalse fun ⟨m', h', hm'⟩ => hm (Option.some.inj (h.symm.trans h') ▸ hm')
  | none => .isFalse fun ⟨_, h', _⟩ => by rw [h] at h'; cases h'

/-- A request finds a stack only if it runs and no child task of a node's stop
is about to stop it. -/
def findsRunning (s : Cluster) : Act → Bool
  | .call t .lookup =>
      match (s.calls[t]?).map Call.stage with
      | some (.locking _ h) =>
          match s.managerStacks.get h with
          | some r => decide (s.StackRuns r) && !s.stackStops.contains r
          | none => true
      | _ => true
  | _ => true

/-- Neither `Cluster.stop` nor `_on_node_stop` sets out to stop a running stack
that a request holds. -/
def stopsUnheld (s : Cluster) : Act → Bool
  | .stopping i .stack =>
      match stoppedStack s (.stopping i .stack) with
      | some r => (s.allStacks[r]?).map ManagerStack.isRunning != some true || s.unheld r
      | none => true
  | .onNodeStop n =>
      match s.allNodes[n]? with
      | some v => s.getNonTerminatedNodes.isEmpty || v.isHead || (s.idleStacks v).all s.unheld
      | none => true
  | _ => true

/-- **The condition** on the state before a step. -/
def keepsStacks (s : Cluster) (a : Act) : Bool :=
  besideStop registersNodes s a && findsRunning s a && stopsUnheld s a

/-- The claimed property. -/
def LiveStacksRun (s : Cluster) : Prop :=
  ∀ v ∈ s.allNodes, v.state.live = true → ∀ r ∈ v.managerStacks, s.StackRuns r

/-! ### What a step does to one stack -/

/-- The start of stack `r` returned. -/
def StackStarted (s : Cluster) (r : Nat) : Prop :=
  ∃ m, s.allStacks[r]? = some m ∧ m.startLoop = .returned

theorem StackRuns.started (h : s.StackRuns r) : s.StackStarted r := by
  obtain ⟨m, hm, hrun⟩ := h
  exact ⟨m, hm, hrun.2.1⟩

theorem startLoop_stop (m : ManagerStack) : m.stop.startLoop = m.startLoop := by
  unfold ManagerStack.stop
  split <;> rfl

theorem startLoop_managerStopped {m m' : ManagerStack} (h : m.managerStopped = some m') :
    m'.startLoop = m.startLoop := by
  unfold ManagerStack.managerStopped at h
  split at h <;> cases h <;> rfl

theorem startLoop_managerStopRaised {m m' : ManagerStack} (h : m.managerStopRaised = some m') :
    m'.startLoop = m.startLoop := by
  unfold ManagerStack.managerStopRaised at h
  split at h <;> cases h
  rfl

theorem starting_of_managerStarted {m m' : ManagerStack} (h : m.managerStarted = some m') :
    m.startLoop.inProgress = true ∧ m'.stopLoop = m.stopLoop := by
  unfold ManagerStack.managerStarted at h
  split at h <;> cases h
  rename_i hi
  exact ⟨by rw [hi]; rfl, rfl⟩

theorem starting_of_managerStartRaised {m m' : ManagerStack}
    (h : m.managerStartRaised = some m') :
    m.startLoop.inProgress = true ∧ m'.startLoop = .raised := by
  unfold ManagerStack.managerStartRaised at h
  split at h <;> cases h
  rename_i hi
  exact ⟨by rw [hi]; rfl, rfl⟩

theorem stopping_of_managerStopped {m m' : ManagerStack} (h : m.managerStopped = some m') :
    m.stopLoop ≠ .notCalled := by
  intro hloop
  have hstopping := ManagerStack.stopping_of_stopped h
  rw [hloop] at hstopping
  cases hstopping

theorem stopping_of_managerStopRaised {m m' : ManagerStack} (h : m.managerStopRaised = some m') :
    m.stopLoop ≠ .notCalled := by
  intro hloop
  have hstopping := ManagerStack.stopping_of_stopRaised h
  rw [hloop] at hstopping
  cases hstopping

/-- Replacing stack `k` keeps a fact about stack `r` when it keeps it of the
replaced object. -/
theorem stack_set {P : ManagerStack → Prop} {l : List ManagerStack} {k : Nat}
    {m m' : ManagerStack} (hm : l[k]? = some m) (hP : k = r → P m → P m')
    (h : ∃ w, l[r]? = some w ∧ P w) : ∃ w, (l.set k m')[r]? = some w ∧ P w := by
  obtain ⟨w, hw, hPw⟩ := h
  by_cases hk : k = r
  · subst hk
    obtain rfl : w = m := Option.some.inj (hw.symm.trans hm)
    exact ⟨m', Objects.set_self hm, hP rfl hPw⟩
  · exact ⟨w, by rwa [List.getElem?_set_ne hk], hPw⟩

/-- A start that returned has returned for good. -/
theorem StackStarted.step (h : s.StackStarted r) (hs : Step digest s a s') :
    s'.StackStarted r := by
  have hnot : ∀ m : ManagerStack, m.startLoop.inProgress = true → m.startLoop ≠ .returned := by
    intro m hp hret
    simp [hret, Loop.inProgress] at hp
  cases hs with
  | creates t c goal hash =>
      obtain ⟨m, hm, hret⟩ := h
      exact ⟨m, Objects.append_old hm, hret⟩
  | managerStarted t c goal hash k m m' hc hstage hm hm' =>
      exact stack_set hm
        (fun _ hret => absurd hret (hnot m (starting_of_managerStarted hm').1)) h
  | handsOut t c goal hash k m m' stage L hc hstage hm hm' hlast =>
      exact stack_set hm (fun _ _ => hlast) h
  | managerStartRaised t c goal hash k m m' L hc hstage hm hm' =>
      exact stack_set hm
        (fun _ hret => absurd hret (hnot m (starting_of_managerStartRaised hm').1)) h
  | stopsStack i k σ todo busy m hσ hpc hm =>
      exact stack_set hm (fun _ hret => (startLoop_stop m).trans hret) h
  | stackStops k m hm => exact stack_set hm (fun _ hret => (startLoop_stop m).trans hret) h
  | managerStopped k m m' hm hm' =>
      exact stack_set hm (fun _ hret => (startLoop_managerStopped hm').trans hret) h
  | managerStopRaised k m m' hm hm' =>
      exact stack_set hm (fun _ hret => (startLoop_managerStopRaised hm').trans hret) h
  | _ => exact h

/-- A running stack runs on unless the step stops it. -/
theorem StackRuns.step (h : s.StackRuns r) (hne : stoppedStack s a ≠ some r)
    (hs : Step digest s a s') : s'.StackRuns r := by
  have hnot : ∀ m : ManagerStack, m.startLoop.inProgress = true → ¬ m.Running := by
    intro m hp hrun
    simp [hrun.2.1, Loop.inProgress] at hp
  cases hs with
  | creates t c goal hash =>
      obtain ⟨m, hm, hrun⟩ := h
      exact ⟨m, Objects.append_old hm, hrun⟩
  | managerStarted t c goal hash k m m' hc hstage hm hm' =>
      exact stack_set hm
        (fun _ hrun => absurd hrun (hnot m (starting_of_managerStarted hm').1)) h
  | handsOut t c goal hash k m m' stage L hc hstage hm hm' =>
      exact stack_set hm
        (fun _ hrun => absurd hrun (hnot m (starting_of_managerStarted hm').1)) h
  | managerStartRaised t c goal hash k m m' L hc hstage hm hm' =>
      exact stack_set hm
        (fun _ hrun => absurd hrun (hnot m (starting_of_managerStartRaised hm').1)) h
  | stopsStack i k σ todo busy m hσ hpc hm =>
      refine stack_set hm (fun hk _ => absurd ?_ hne) h
      simp [stoppedStack, hσ, hpc, hk]
  | stackStops k m hm =>
      exact stack_set hm (fun hk _ => absurd (congrArg some hk) hne) h
  | managerStopped k m m' hm hm' =>
      exact stack_set hm
        (fun _ hrun => absurd hrun.2.2.1 (stopping_of_managerStopped hm')) h
  | managerStopRaised k m m' hm hm' =>
      exact stack_set hm
        (fun _ hrun => absurd hrun.2.2.1 (stopping_of_managerStopRaised hm')) h
  | _ => exact h

/-! ### Who needs a stack -/

/-- A live node uses stack `r`, or a request was handed it. -/
def Needed (s : Cluster) (r : Nat) : Prop :=
  (∃ v ∈ s.allNodes, v.state.live = true ∧ r ∈ v.managerStacks) ∨
    ∃ c ∈ s.calls, r ∈ Call.obtained c

/-- A call that was handed stack `k` was handed what it had before, and `k`. -/
theorem obtained_onward {c : Call} {goal : Goal} {k : Nat} {stage : Stage}
    (hgoal : Goal.obtained goal = Call.obtained c) (hon : Onward digest c k goal stage)
    (h : r ∈ Call.obtained (Call.at c stage)) : r ∈ Call.obtained c ∨ r = k := by
  cases hon with
  | seek =>
      obtain rfl : r = k := by simpa [Call.at, Call.obtained, Goal.obtained] using h
      exact .inr rfl
  | ready =>
      rcases List.mem_cons.mp h with rfl | h
      · exact .inr rfl
      · exact .inl (hgoal ▸ h)

/-- Replacing a call makes nothing needed but what the new call was handed. -/
theorem Needed.of_setCall {t : Nat} {c' : Call} (h : s'.Needed r)
    (hnodes : s'.allNodes = s.allNodes) (hcalls : s'.calls = s.calls.set t c') :
    s.Needed r ∨ r ∈ Call.obtained c' := by
  rcases h with hnode | ⟨d, hd, hr⟩
  · exact .inl (.inl (hnodes ▸ hnode))
  · rw [hcalls] at hd
    rcases List.mem_or_eq_of_mem_set hd with hold | rfl
    · exact .inl (.inr ⟨d, hold, hr⟩)
    · exact .inr hr

/-- Replacing a node by one that is live only if it was makes nothing needed. -/
theorem Needed.of_setNode {n : Nat} {v v' : NodeView} (h : s'.Needed r)
    (hv : s.allNodes[n]? = some v) (hnodes : s'.allNodes = s.allNodes.set n v')
    (hcalls : s'.calls = s.calls) (hlive : v'.state.live = true → v.state.live = true)
    (hstacks : v'.managerStacks = v.managerStacks) : s.Needed r := by
  rcases h with ⟨w, hw, hwlive, hr⟩ | hcall
  · rw [hnodes] at hw
    rcases List.mem_or_eq_of_mem_set hw with hold | rfl
    · exact .inl ⟨w, hold, hwlive, hr⟩
    · exact .inl ⟨v, List.mem_of_getElem? hv, hlive hwlive, hstacks ▸ hr⟩
  · exact .inr (hcalls ▸ hcall)

theorem live_stop {v : NodeView} {ce : Bool} (h : (v.stop ce).state.live = true) :
    v.state.live = true :=
  nodePredicate_live.of_stop h

theorem managerStacks_stop (v : NodeView) (ce : Bool) :
    (v.stop ce).managerStacks = v.managerStacks := by
  unfold NodeView.stop
  split <;> rfl

/-- The new nodes of a request use the stacks it was handed. -/
theorem Needed.of_addNodes {t k : Nat} {c : Call} {m : Nat} {p : Option Nat}
    (h : s'.Needed r) (hc : s.calls[t]? = some c) (hstage : c.stage = .ready m p)
    (hnodes : s'.allNodes = (addNodes c.request.isHead m p k s).allNodes)
    (hcalls : s'.calls = s.calls.set t (Call.at c .over)) : s.Needed r := by
  have hobtained : Call.obtained c = m :: p.toList := by simp [Call.obtained, hstage]
  rcases h with ⟨v, hv, hlive, hr⟩ | ⟨d, hd, hr⟩
  · obtain ⟨n, hn⟩ := List.mem_iff_getElem?.mp (hnodes ▸ hv)
    rcases addNodes_cases hn with hold | ⟨-, -, -, hmain, hprio⟩
    · exact .inl ⟨v, List.mem_of_getElem? hold, hlive, hr⟩
    · refine .inr ⟨c, List.mem_of_getElem? hc, ?_⟩
      rw [hobtained]
      subst hmain hprio
      unfold NodeView.managerStacks at hr
      cases hp : v.priorityManagerStack <;> simpa [hp] using hr
  · rw [hcalls] at hd
    rcases List.mem_or_eq_of_mem_set hd with hold | rfl
    · exact .inr ⟨d, hold, hr⟩
    · cases hr

/-- **What becomes needed.**  A stack is needed after a step if it was before, or
if the step handed it out. -/
theorem needed_cases (hs : Step digest s a s') (h : s'.Needed r) :
    s.Needed r ∨ ∃ x, s'.handed = x :: s.handed ∧ x.stack = r := by
  -- a call whose stage keeps what it was handed, or forgets it
  have hcall : ∀ {t : Nat} {c c' : Call}, s.calls[t]? = some c → s'.allNodes = s.allNodes →
      s'.calls = s.calls.set t c' → (r ∈ Call.obtained c' → r ∈ Call.obtained c) →
      s.Needed r ∨ ∃ x, s'.handed = x :: s.handed ∧ x.stack = r := by
    intro t c c' hc hnodes hcalls hobtained
    rcases h.of_setCall hnodes hcalls with hold | hr
    · exact .inl hold
    · exact .inl (.inr ⟨c, List.mem_of_getElem? hc, hobtained hr⟩)
  -- a new call was handed nothing
  have hnew : ∀ {c : Call}, s'.allNodes = s.allNodes → s'.calls = s.calls ++ [c] →
      Call.obtained c = [] → s.Needed r := by
    intro c hnodes hcalls hnone
    rcases h with hnode | ⟨d, hd, hr⟩
    · exact .inl (hnodes ▸ hnode)
    · rw [hcalls] at hd
      rcases List.mem_append.mp hd with hold | hlast
      · exact .inr ⟨d, hold, hr⟩
      · obtain rfl := List.mem_singleton.mp hlast
        rw [hnone] at hr
        cases hr
  cases hs with
  | startPasses q => exact .inl (hnew rfl rfl rfl)
  | startSkips q => exact .inl (hnew rfl rfl rfl)
  | enters q => exact .inl (hnew rfl rfl rfl)
  | startDone t c hc => exact hcall hc rfl rfl (by simp [Call.at, Call.obtained])
  | startRaised t c hc => exact hcall hc rfl rfl (by simp [Call.at, Call.obtained])
  | leaves t c hc => exact hcall hc rfl rfl (by simp [Call.at, Call.obtained])
  | prepares t c goal hash hc hstage hgoal =>
      apply hcall hc rfl rfl
      intro hr
      subst hgoal
      simp only [Call.at, Call.obtained] at hr
      split at hr <;> simp [Goal.obtained] at hr
  | unwinds t c goal hash L hc => exact hcall hc rfl rfl (by simp [Call.at, Call.obtained])
  | finds t c goal hash k sem m stage L hc hstage hheld hm hon hL =>
      rcases h.of_setCall (s := s) rfl rfl with hold | hr
      · exact .inl hold
      · rcases obtained_onward (by simp [Call.obtained, hstage]) hon hr with hr | rfl
        · exact .inl (.inr ⟨c, List.mem_of_getElem? hc, hr⟩)
        · exact .inr ⟨_, rfl, rfl⟩
  | misses t c goal hash k sem hc hstage =>
      exact hcall hc rfl rfl (by simp [Call.at, Call.obtained, hstage])
  | creates t c goal hash hc hstage =>
      exact hcall hc rfl rfl (by simp [Call.obtained, hstage])
  | createRaised t c goal hash L hc => exact hcall hc rfl rfl (by simp [Call.at, Call.obtained])
  | handsOut t c goal hash k m m' stage L hc hstage hm hm' hlast hon hL =>
      rcases h.of_setCall (s := s) rfl rfl with hold | hr
      · exact .inl hold
      · rcases obtained_onward (by simp [Call.obtained, hstage]) hon hr with hr | rfl
        · exact .inl (.inr ⟨c, List.mem_of_getElem? hc, hr⟩)
        · exact .inr ⟨_, rfl, rfl⟩
  | managerStartRaised t c goal hash k m m' L hc =>
      exact hcall hc rfl rfl (by simp [Call.at, Call.obtained])
  | finishes t k c m p id hc hstage => exact .inl (h.of_addNodes hc hstage rfl rfl)
  | stopsNode i n σ todo busy v hσ hpc hv =>
      exact .inl (h.of_setNode hv rfl rfl live_stop (managerStacks_stop v false))
  | nodeReady n v hv hstate =>
      exact .inl (h.of_setNode hv rfl rfl (by rw [hstate]; exact id) rfl)
  | nodeStartFailed n v hv => exact .inl (h.of_setNode hv rfl rfl (by simp) rfl)
  | nodeStop n v hv =>
      exact .inl (h.of_setNode hv rfl rfl live_stop (managerStacks_stop v true))
  | nodeStopped n v ce hv => exact .inl (h.of_setNode hv rfl rfl (by simp) rfl)
  | nodeStopRaised n v ce hv => exact .inl (h.of_setNode hv rfl rfl id rfl)
  | _ => exact .inl h

/-! ### Who is starting a stack -/

/-- A stack whose start is under way is being started by a request. -/
def StartsWatched (s : Cluster) : Prop :=
  ∀ (r : Nat) (m : ManagerStack), s.allStacks[r]? = some m → m.startLoop.inProgress = true →
    ∃ c ∈ s.calls, Call.starts c = some r

theorem starts_set {l : List Call} {t : Nat} {c c' : Call} (hc : l[t]? = some c)
    (hstarts : Call.starts c = some r → Call.starts c' = some r)
    (h : ∃ d ∈ l, Call.starts d = some r) : ∃ d ∈ l.set t c', Call.starts d = some r := by
  obtain ⟨d, hd, hr⟩ := h
  obtain ⟨u, hu⟩ := List.mem_iff_getElem?.mp hd
  by_cases hut : u = t
  · subst hut
    obtain rfl : d = c := Option.some.inj (hu.symm.trans hc)
    exact ⟨c', List.mem_of_getElem? (Objects.set_self hc), hstarts hr⟩
  · exact ⟨d, List.mem_of_getElem? (Objects.set_old hut hu), hr⟩

/-- A call that is not starting a stack changes, and no stack starts. -/
theorem StartsWatched.setCall (h : StartsWatched s) {t : Nat} {c c' : Call}
    (hc : s.calls[t]? = some c) (hnone : Call.starts c = none)
    (hstacks : s'.allStacks = s.allStacks) (hcalls : s'.calls = s.calls.set t c') :
    StartsWatched s' := by
  intro r m hm hp
  rw [hcalls]
  exact starts_set hc (fun hr => by rw [hnone] at hr; cases hr) (h r m (hstacks ▸ hm) hp)

/-- A call is added. -/
theorem StartsWatched.addCall (h : StartsWatched s) {c : Call}
    (hstacks : s'.allStacks = s.allStacks) (hcalls : s'.calls = s.calls ++ [c]) :
    StartsWatched s' := by
  intro r m hm hp
  obtain ⟨d, hd, hr⟩ := h r m (hstacks ▸ hm) hp
  exact ⟨d, hcalls ▸ List.mem_append_left _ hd, hr⟩

/-- A stack changes and does not start. -/
theorem StartsWatched.setStack (h : StartsWatched s) {k : Nat} {m m' : ManagerStack}
    (hm : s.allStacks[k]? = some m)
    (hp : m'.startLoop.inProgress = true → m.startLoop.inProgress = true)
    (hstacks : s'.allStacks = s.allStacks.set k m') (hcalls : s'.calls = s.calls) :
    StartsWatched s' := by
  intro r w hw hwp
  rw [hstacks] at hw
  rw [hcalls]
  rcases Objects.set_cases hw with ⟨rfl, rfl, -⟩ | ⟨-, hold⟩
  · exact h r m hm (hp hwp)
  · exact h r w hold hwp

/-- The start of a stack ends, and with it the call's part in it. -/
theorem StartsWatched.endStart (h : StartsWatched s) {t k : Nat} {c c' : Call}
    {m' : ManagerStack} (hc : s.calls[t]? = some c) (hk : Call.starts c = some k)
    (hp : m'.startLoop.inProgress = false) (hstacks : s'.allStacks = s.allStacks.set k m')
    (hcalls : s'.calls = s.calls.set t c') : StartsWatched s' := by
  intro r w hw hwp
  rw [hstacks] at hw
  rw [hcalls]
  rcases Objects.set_cases hw with ⟨rfl, rfl, -⟩ | ⟨hne, hold⟩
  · rw [hp] at hwp
    cases hwp
  · refine starts_set hc (fun hr => absurd ?_ hne) (h r w hold hwp)
    exact Option.some.inj (hr.symm.trans hk)

theorem StartsWatched.step (h : StartsWatched s) (hs : Step digest s a s') :
    StartsWatched s' := by
  cases hs with
  | startPasses q => exact h.addCall rfl rfl
  | startSkips q => exact h.addCall rfl rfl
  | enters q => exact h.addCall rfl rfl
  | startDone t c hc hstage => exact h.setCall hc (by simp [Call.starts, hstage]) rfl rfl
  | startRaised t c hc hstage => exact h.setCall hc (by simp [Call.starts, hstage]) rfl rfl
  | leaves t c hc hstage => exact h.setCall hc (by simp [Call.starts, hstage]) rfl rfl
  | prepares t c goal hash hc hstage => exact h.setCall hc (by simp [Call.starts, hstage]) rfl rfl
  | unwinds t c goal hash L hc hstage => exact h.setCall hc (by simp [Call.starts, hstage]) rfl rfl
  | finds t c goal hash k sem m stage L hc hstage =>
      exact h.setCall hc (by simp [Call.starts, hstage]) rfl rfl
  | misses t c goal hash k sem hc hstage =>
      exact h.setCall hc (by simp [Call.starts, hstage]) rfl rfl
  | creates t c goal hash hc hstage =>
      intro r m hm hp
      rcases Objects.append_cases hm with hold | ⟨rfl, -⟩
      · exact starts_set hc (by simp [Call.starts, hstage]) (h r m hold hp)
      · exact ⟨_, List.mem_of_getElem? (Objects.set_self hc), rfl⟩
  | createRaised t c goal hash L hc hstage =>
      exact h.setCall hc (by simp [Call.starts, hstage]) rfl rfl
  | managerStarted t c goal hash k m m' hc hstage hm hm' =>
      exact h.setStack hm (fun _ => (starting_of_managerStarted hm').1) rfl rfl
  | handsOut t c goal hash k m m' stage L hc hstage hm hm' hlast =>
      exact h.endStart hc (by simp [Call.starts, hstage]) (by rw [hlast]; rfl) rfl rfl
  | managerStartRaised t c goal hash k m m' L hc hstage hm hm' =>
      refine h.endStart hc (by simp [Call.starts, hstage]) ?_ rfl rfl
      rw [(starting_of_managerStartRaised hm').2]
      rfl
  | finishes t k c m p id hc hstage => exact h.setCall hc (by simp [Call.starts, hstage]) rfl rfl
  | stopsStack i k σ todo busy m hσ hpc hm =>
      exact h.setStack hm (by rw [startLoop_stop]; exact id) rfl rfl
  | stackStops k m hm => exact h.setStack hm (by rw [startLoop_stop]; exact id) rfl rfl
  | managerStopped k m m' hm hm' =>
      exact h.setStack hm (by rw [startLoop_managerStopped hm']; exact id) rfl rfl
  | managerStopRaised k m m' hm hm' =>
      exact h.setStack hm (by rw [startLoop_managerStopRaised hm']; exact id) rfl rfl
  | _ => exact h

/-! ### Needed stacks run -/

/-- The invariant: needed stacks run and nobody is about to stop them. -/
structure KeepInv (s : Cluster) : Prop where
  nodes : NodesCovered (fun st => st.live = true) s
  wf : StacksWf s
  watched : StartsWatched s
  needed : ∀ r, s.Needed r → s.StackRuns r ∧ r ∉ s.stackStops
  attached : ∀ v ∈ s.allNodes, ∀ r ∈ v.managerStacks, s.StackStarted r
  scheduled : ∀ r ∈ s.stackStops, s.StackStarted r

theorem keepInv_initial (h : Initial s) : KeepInv s := by
  refine ⟨nodesCovered_initial h, ?_, ?_, ?_, ?_, ?_⟩ <;> subst h
  · intro r m hm
    simp at hm
  · intro r m hm
    simp at hm
  · rintro r (⟨v, hv, -⟩ | ⟨c, hc, -⟩)
    · cases hv
    · cases hc
  · intro v hv
    cases hv
  · intro r hr
    cases hr

theorem unheld_iff : s.unheld r = true ↔
    ∀ c ∈ s.calls, r ∉ Call.obtained c ∧ Call.starts c ≠ some r := by
  simp [unheld]

/-- The stack that a step stops is started, unless it does not run. -/
theorem KeepInv.not_starting (h : KeepInv s) (hok : stopsUnheld s a = true)
    (hs : Step digest s a s') {m : ManagerStack} (hr : stoppedStack s a = some r)
    (hm : s.allStacks[r]? = some m) (hrun : m.isRunning = true) :
    m.startLoop.inProgress = false := by
  cases hs with
  | stopsStack i k σ todo busy w hσ hpc hw =>
      have hunheld : s.unheld r = true := by
        simpa [stopsUnheld, hr, hm, hrun] using hok
      by_contra hp
      obtain ⟨c, hc, hstarts⟩ := h.watched r m hm (by simpa using hp)
      exact (unheld_iff.mp hunheld c hc).2 hstarts
  | stackStops k w hw hk =>
      obtain rfl : k = r := by simpa [stoppedStack] using hr
      obtain ⟨u, hu, hret⟩ := h.scheduled k hk
      obtain rfl : m = u := Option.some.inj (hm.symm.trans hu)
      rw [hret]
      rfl
  | _ => simp [stoppedStack] at hr

/-- No step stops a needed stack: a stop of the cluster that got to the stacks
has no live node left, and the condition excludes the requests. -/
theorem KeepInv.not_stopped (h : KeepInv s) (hok : stopsUnheld s a = true)
    (hs : Step digest s a s') (hr : s.Needed r) : stoppedStack s a ≠ some r := by
  intro hstop
  obtain ⟨⟨m, hm, hrun⟩, hnot⟩ := h.needed r hr
  cases hs with
  | stopsStack i k σ todo busy w hσ hpc hw =>
      have hunheld : s.unheld r = true := by
        simpa [stopsUnheld, hstop, hm, hrun.1] using hok
      rcases hr with ⟨v, hv, hlive, -⟩ | ⟨c, hc, hobtained⟩
      · obtain ⟨n, hn⟩ := List.mem_iff_getElem?.mp hv
        have hcov := h.nodes.stopping σ (List.mem_of_getElem? hσ) n v hn hlive
        rw [hpc] at hcov
        exact hcov
      · exact (unheld_iff.mp hunheld c hc).1 hobtained
  | stackStops k w hw hk =>
      obtain rfl : k = r := by simpa [stoppedStack] using hstop
      exact hnot hk
  | _ => simp [stoppedStack] at hstop

/-- A stack that is about to be stopped was so before, or a node's stop found it
idle. -/
theorem stackStops_cases (hs : Step digest s a s') (h : r ∈ s'.stackStops) :
    r ∈ s.stackStops ∨ ∃ n v, a = .onNodeStop n ∧ s.allNodes[n]? = some v ∧
      s.getNonTerminatedNodes ≠ [] ∧ v.isHead = false ∧ r ∈ s.idleStacks v := by
  cases hs with
  | nodeStoppedStacks n v hv hn hlive hhead =>
      exact (List.mem_append.mp h).imp_right fun hr => ⟨n, v, rfl, hv, hlive, hhead, hr⟩
  | stackStops k m hm hk => exact .inl (List.mem_of_mem_erase h)
  | _ => exact .inl h

/-- A stack that a live registered node uses is not idle. -/
theorem not_idle_of_live (h : NodesCovered (fun st => st.live = true) s) {v w : NodeView}
    (hw : w ∈ s.allNodes) (hlive : w.state.live = true) (hr : r ∈ w.managerStacks) :
    r ∉ s.idleStacks v := by
  obtain ⟨n, hn⟩ := List.mem_iff_getElem?.mp hw
  have hmem : n ∈ s.getNonTerminatedNodes := by
    refine List.mem_filter.mpr ⟨h.registered n w hn hlive, ?_⟩
    simpa [isLive, hn] using hlive
  intro hidle
  have hnone := (List.mem_filter.mp hidle).2
  simp only [Bool.not_eq_true', List.any_eq_false] at hnone
  exact hnone n hmem (by simpa [uses, hn] using hr)

/-- No step sets out to stop a needed stack. -/
theorem KeepInv.not_scheduled (h : KeepInv s) (hok : stopsUnheld s a = true)
    (hs : Step digest s a s') (hr : s.Needed r) : r ∉ s'.stackStops := by
  intro hmem
  rcases stackStops_cases hs hmem with hold | ⟨n, v, rfl, hv, hlive, hhead, hidle⟩
  · exact (h.needed r hr).2 hold
  · rcases hr with ⟨w, hw, hwlive, hrw⟩ | ⟨c, hc, hobtained⟩
    · exact not_idle_of_live h.nodes hw hwlive hrw hidle
    · have hunheld : s.unheld r = true := by
        have : (s.idleStacks v).all s.unheld = true := by
          simpa [stopsUnheld, hv, hlive, hhead] using hok
        exact List.all_eq_true.mp this r hidle
      exact (unheld_iff.mp hunheld c hc).1 hobtained

/-- **A stack is handed out running**, and nobody is about to stop it. -/
theorem KeepInv.handed_out (h : KeepInv s) (hok : findsRunning s a = true)
    (hs : Step digest s a s') {x : Handed} (hx : s'.handed = x :: s.handed) :
    s'.StackRuns x.stack ∧ x.stack ∉ s'.stackStops := by
  cases hs with
  | finds t c goal hash k sem m stage L hc hstage hheld hm hon hL =>
      obtain rfl : Call.handed c goal m = x := (List.cons.inj hx).1
      have hfound : s.StackRuns m ∧ m ∉ s.stackStops := by
        simpa [findsRunning, hc, hstage, hm] using hok
      exact hfound
  | handsOut t c goal hash k m m' stage L hc hstage hm hm' hlast hon hL =>
      obtain rfl : Call.handed c goal k = x := (List.cons.inj hx).1
      obtain ⟨hp, hstop⟩ := starting_of_managerStarted hm'
      have hwf := (h.wf k m hm).managerStarted hm'
      refine ⟨⟨m', Objects.set_self hm, hwf.running_of_returned hlast ?_⟩, fun hk => ?_⟩
      · rw [hstop]
        by_contra hne
        obtain ⟨i, hi⟩ : ∃ i, m.startLoop = .at i := by
          by_contra hno
          rw [ManagerStack.inProgress_eq_false.mpr (fun i hi => hno ⟨i, hi⟩)] at hp
          cases hp
        exact hne ((h.wf k m hm).not_stopping_of_starting hi)
      · -- a stack that is about to be stopped was started before
        obtain ⟨u, hu, hret⟩ := h.scheduled k hk
        obtain rfl : m = u := Option.some.inj (hm.symm.trans hu)
        rw [hret] at hp
        cases hp
  | _ => simp at hx

/-- Where the stacks of a node come from. -/
theorem attached_cases (hs : Step digest s a s') {v : NodeView} (hv : v ∈ s'.allNodes)
    (hr : r ∈ v.managerStacks) :
    (∃ w ∈ s.allNodes, r ∈ w.managerStacks) ∨ s.Needed r := by
  have hset : ∀ {n : Nat} {w w' : NodeView}, s.allNodes[n]? = some w →
      s'.allNodes = s.allNodes.set n w' → w'.managerStacks = w.managerStacks →
        ∃ u ∈ s.allNodes, r ∈ u.managerStacks := by
    intro n w w' hw hnodes hstacks
    rw [hnodes] at hv
    rcases List.mem_or_eq_of_mem_set hv with hold | rfl
    · exact ⟨v, hold, hr⟩
    · exact ⟨w, List.mem_of_getElem? hw, hstacks ▸ hr⟩
  cases hs with
  | finishes t k c m p id hc hstage =>
      obtain ⟨n, hn⟩ := List.mem_iff_getElem?.mp hv
      rcases addNodes_cases hn with hold | ⟨-, hpending, -⟩
      · exact .inl ⟨v, List.mem_of_getElem? hold, hr⟩
      · refine .inr (Needed.of_addNodes (.inl ⟨v, hv, ?_, hr⟩) hc hstage rfl rfl)
        rw [hpending]
        rfl
  | stopsNode i n σ todo busy w hσ hpc hw =>
      exact .inl (hset hw rfl (managerStacks_stop w false))
  | nodeReady n w hw => exact .inl (hset hw rfl rfl)
  | nodeStartFailed n w hw => exact .inl (hset hw rfl rfl)
  | nodeStop n w hw => exact .inl (hset hw rfl (managerStacks_stop w true))
  | nodeStopped n w ce hw => exact .inl (hset hw rfl rfl)
  | nodeStopRaised n w ce hw => exact .inl (hset hw rfl rfl)
  | _ => exact .inl ⟨v, hv, hr⟩

/-- One guarded step keeps the invariant. -/
theorem KeepInv.step (h : KeepInv s) (hok : keepsStacks s a = true)
    (hs : Step digest s a s') : KeepInv s' := by
  simp only [keepsStacks, Bool.and_eq_true] at hok
  obtain ⟨⟨hbeside, hfinds⟩, hstops⟩ := hok
  have hattached : ∀ v ∈ s'.allNodes, ∀ r ∈ v.managerStacks, s.StackStarted r := by
    intro v hv r hr
    rcases attached_cases hs hv hr with ⟨w, hw, hrw⟩ | hneeded
    · exact h.attached w hw r hrw
    · exact (h.needed r hneeded).1.started
  refine {
    nodes := h.nodes.step nodePredicate_live hbeside ?_ hs
    wf := h.wf.step (fun r m hr hm hrun => h.not_starting hstops hs hr hm hrun) hs
    watched := h.watched.step hs
    needed := fun r hr => ?_
    attached := fun v hv r hr => (hattached v hv r hr).step hs
    scheduled := fun r hr => ?_ }
  · intro i σ n todo busy v _ _ _ _ hst
    simp [hst]
  · rcases needed_cases hs hr with hold | ⟨x, hx, rfl⟩
    · exact ⟨(h.needed r hold).1.step (h.not_stopped hstops hs hold) hs,
        h.not_scheduled hstops hs hold⟩
    · exact h.handed_out hfinds hs hx
  · rcases stackStops_cases hs hr with hold | ⟨n, v, -, hv, -, -, hidle⟩
    · exact (h.scheduled r hold).step hs
    · have hmem := (List.mem_filter.mp hidle).1
      exact (h.attached v (List.mem_of_getElem? hv) r hmem).step hs

/-- **The stacks of live nodes run** with all their managers, in every run
whose steps all meet the condition. -/
theorem live_nodes_stacks_run (h : Reach Initial (step digest) (fun s a => keepsStacks s a) s) :
    LiveStacksRun s := by
  have hinv : KeepInv s :=
    Reach.invariant (I := KeepInv) (fun _ => keepInv_initial)
      (fun _ _ _ hi hok hstep => hi.step hok (step_cases hstep)) h
  intro v hv hlive r hr
  exact (hinv.needed r (.inl ⟨v, hv, hlive, hr⟩)).1

/-- Two requests with different configurations, and one running node of each. -/
def twoStacks : List Act :=
  requestUntilCreate ⟨publicConfig, 1, false⟩ 0 false ++ requestAfterCreate 0 1 ++
    [.node 0 .ready] ++ requestUntilCreate ⟨outboundConfig, 1, false⟩ 1 true ++
    requestAfterCreate 1 1 ++ [.node 1 .ready]

/-- The node of the first stack is stopped, and the stack with it. -/
def firstStackStops : List Act :=
  [.node 0 .stop, .node 0 .stopped, .onNodeStop 0, .stackStop 0, .stack 0 .managerStopped,
    .stack 0 .managerStopped, .stack 0 .managerStopped]

/-- A third request with the first configuration: its stack is found. -/
def thirdRequest : List Act :=
  [.start ⟨publicConfig, 1, false⟩, .call 2 .prepare, .call 2 .lookup,
    .call 2 (.finishRequest 1)]

/-- The third request shares its stack with the first node, which stops then. -/
def sharedStack : List Act :=
  twoStacks ++ thirdRequest ++ [.node 0 .stop, .node 0 .stopped, .onNodeStop 0]

theorem live_nodes_stacks_run_shared :
    ∃ s, exec (guarded (step exampleDigest) keepsStacks) sharedStack {} = some s ∧
      s.allStacks.length = 2 ∧ s.allNodes.map NodeView.state = [.terminated, .running, .pending] ∧
      LiveStacksRun s := by
  refine ⟨_, rfl, rfl, rfl, ?_⟩
  have hreach : Reach Initial (step exampleDigest) (fun s a => keepsStacks s a) _ :=
    Reach.execGuarded sharedStack (.start rfl) rfl
  exact live_nodes_stacks_run hreach

/-- The stack of the first node stops with it, and the third request finds it. -/
def stoppedStackFound : List Act := twoStacks ++ firstStackStops ++ thirdRequest

/-- **A stopped stack is handed out**: not every reachable state keeps the
stacks of live nodes running. -/
theorem stopped_stack_handed_out :
    ¬ ∀ s, Reachable Initial (step exampleDigest) s → LiveStacksRun s := by
  intro hall
  have hrun : ∃ s, exec (step exampleDigest) stoppedStackFound {} = some s ∧
      (s.allNodes[2]?).map NodeView.state = some .pending ∧
      (s.allNodes[2]?).map NodeView.managerStacks = some [0] ∧
      (s.allStacks[0]?).map ManagerStack.isRunning = some false :=
    ⟨_, rfl, rfl, rfl, rfl⟩
  obtain ⟨s, hs, hstate, hstacks, hstopped⟩ := hrun
  obtain ⟨v, hv, hpending⟩ := Option.map_eq_some_iff.mp hstate
  rw [hv] at hstacks
  obtain ⟨m, hm, hrunning⟩ := hall s (Reach.exec stoppedStackFound (.start rfl) hs) v
    (List.mem_of_getElem? hv) (by simp [hpending]) 0
    (by simp [Option.some.inj hstacks])
  rw [hm] at hstopped
  simp [hrunning.1] at hstopped

end Cluster
