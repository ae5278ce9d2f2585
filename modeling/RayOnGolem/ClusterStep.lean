import RayOnGolem.Cluster
import RayOnGolem.Lib.Objects

/-!
# What a step of a cluster can do

`Step` lists the effects that the steps of a cluster have, one constructor for
each, with the facts the step found.  `step_cases` says that the list is
complete.  Invariants are proved by cases on `Step` and never unfold the step
function again.
-/

namespace Cluster

variable {digest : NodeConfigData → String}

/-- The call goes to `stage`. -/
def Call.at (c : Call) (stage : Stage) : Call := { c with stage := stage }

/-- Where a call goes when it was handed stack `r`. -/
inductive Onward (digest : NodeConfigData → String) (c : Call) (r : Nat) : Goal → Stage → Prop
  | seek {h : String} (hh : h = c.nodeConfig.getHash digest c.nodeConfig.subnetTag) :
      Onward digest c r .priority (.locking (.main (some r)) h)
  | ready {p : Option Nat} : Onward digest c r (.main p) (.ready r p)

/-- The locks of a call that was handed a stack: it left the lock, and may have
asked for the next one. -/
inductive OnwardLocks (L : LockTable String) (t : Nat) : Stage → LockTable String → Prop
  | seek {L' : LockTable String} {goal : Goal} {h : String} (hexit : L.exit t = some L') :
      OnwardLocks L t (.locking goal h) (L'.enter t h)
  | ready {L' : LockTable String} {r : Nat} {p : Option Nat} (hexit : L.exit t = some L') :
      OnwardLocks L t (.ready r p) L'

/-- What the record says of stack `r` when the call creates it or gets it. -/
def Call.handed (c : Call) (goal : Goal) (r : Nat) : Handed :=
  ⟨c.request.nodeConfig, Goal.subnetTag c.request.nodeConfig goal, r⟩

/-- The effects of the steps. -/
inductive Step (digest : NodeConfigData → String) (s : Cluster) : Act → Cluster → Prop
  | startPasses (q : Request) (hpending : s.state ≠ .pending) (hrunning : s.state ≠ .running) :
      Step digest s (.start q)
        { s with state := .pending, calls := s.calls ++ [⟨q, q.nodeConfig, .starting⟩] }
  | startSkips (q : Request) (hstate : s.state = .pending ∨ s.state = .running) :
      Step digest s (.start q) { s with calls := s.calls ++ [⟨q, q.nodeConfig, .started⟩] }
  | enters (q : Request) :
      Step digest s (.enter q) { s with calls := s.calls ++ [⟨q, q.nodeConfig, .started⟩] }
  | startDone (t : Nat) (c : Call) (hc : s.calls[t]? = some c) (hstage : c.stage = .starting) :
      Step digest s (.call t .startDone)
        { s with
          state := .running
          paymentStarted := true
          calls := s.calls.set t (Call.at c .started) }
  | startRaised (t : Nat) (c : Call) (hc : s.calls[t]? = some c) (hstage : c.stage = .starting) :
      Step digest s (.call t .startRaised) { s with calls := s.calls.set t (Call.at c .over) }
  | leaves (t : Nat) (c : Call) (hc : s.calls[t]? = some c) (hstage : c.stage = .started) :
      Step digest s (.call t .leave) { s with calls := s.calls.set t (Call.at c .over) }
  | prepares (t : Nat) (c : Call) (goal : Goal) (h : String) (hc : s.calls[t]? = some c)
      (hstage : c.stage = .started)
      (hgoal : goal = if c.nodeConfig.priority.isSome then .priority else .main none)
      (hh : h = c.nodeConfig.getHash digest (Goal.subnetTag c.nodeConfig goal)) :
      Step digest s (.call t .prepare)
        { s with
          managerStacksLocks := s.managerStacksLocks.enter t h
          calls := s.calls.set t (Call.at c (.locking goal h)) }
  | wakes (t : Nat) (c : Call) (goal : Goal) (h : String) (L : LockTable String)
      (hc : s.calls[t]? = some c) (hstage : c.stage = .locking goal h)
      (hL : s.managerStacksLocks.resume t = some L) :
      Step digest s (.call t .wake) { s with managerStacksLocks := L }
  | cancels (t : Nat) (c : Call) (goal : Goal) (h : String)
      (hc : s.calls[t]? = some c) (hstage : c.stage = .locking goal h) :
      Step digest s (.call t .cancelWait)
        { s with managerStacksLocks := s.managerStacksLocks.cancel t }
  | unwinds (t : Nat) (c : Call) (goal : Goal) (h : String) (L : LockTable String)
      (hc : s.calls[t]? = some c) (hstage : c.stage = .locking goal h)
      (hL : s.managerStacksLocks.unwind t = some L) :
      Step digest s (.call t .unwind)
        { s with managerStacksLocks := L, calls := s.calls.set t (Call.at c .over) }
  | finds (t : Nat) (c : Call) (goal : Goal) (h : String) (k : String) (sem r : Nat)
      (stage : Stage) (L : LockTable String)
      (hc : s.calls[t]? = some c) (hstage : c.stage = .locking goal h)
      (hheld : s.managerStacksLocks.phase t = .holding k sem)
      (hr : s.managerStacks.get h = some r)
      (hon : Onward digest c r goal stage) (hL : OnwardLocks s.managerStacksLocks t stage L) :
      Step digest s (.call t .lookup)
        { s with
          managerStacksLocks := L
          handed := Call.handed c goal r :: s.handed
          calls := s.calls.set t (Call.at c stage) }
  | misses (t : Nat) (c : Call) (goal : Goal) (h : String) (k : String) (sem : Nat)
      (hc : s.calls[t]? = some c) (hstage : c.stage = .locking goal h)
      (hheld : s.managerStacksLocks.phase t = .holding k sem)
      (hr : s.managerStacks.get h = none) :
      Step digest s (.call t .lookup)
        { s with calls := s.calls.set t (Call.at c (.creating goal h)) }
  | creates (t : Nat) (c : Call) (goal : Goal) (h : String)
      (hc : s.calls[t]? = some c) (hstage : c.stage = .creating goal h) :
      Step digest s (.call t .create)
        { s with
          allStacks := s.allStacks ++ [ManagerStack.create.start]
          managerStacks := s.managerStacks.set h s.allStacks.length
          created := Call.handed c goal s.allStacks.length :: s.created
          calls := s.calls.set t
            { c with
              nodeConfig := c.nodeConfig.prepared
              stage := .startingStack goal h s.allStacks.length } }
  | createRaised (t : Nat) (c : Call) (goal : Goal) (h : String) (L : LockTable String)
      (hc : s.calls[t]? = some c) (hstage : c.stage = .creating goal h)
      (hL : s.managerStacksLocks.exit t = some L) :
      Step digest s (.call t .createRaised)
        { s with managerStacksLocks := L, calls := s.calls.set t (Call.at c .over) }
  | managerStarted (t : Nat) (c : Call) (goal : Goal) (h : String) (r : Nat)
      (m m' : ManagerStack) (hc : s.calls[t]? = some c)
      (hstage : c.stage = .startingStack goal h r) (hm : s.allStacks[r]? = some m)
      (hm' : m.managerStarted = some m') (hmore : m'.startLoop ≠ .returned) :
      Step digest s (.call t .managerStarted) { s with allStacks := s.allStacks.set r m' }
  | handsOut (t : Nat) (c : Call) (goal : Goal) (h : String) (r : Nat)
      (m m' : ManagerStack) (stage : Stage) (L : LockTable String) (hc : s.calls[t]? = some c)
      (hstage : c.stage = .startingStack goal h r) (hm : s.allStacks[r]? = some m)
      (hm' : m.managerStarted = some m') (hlast : m'.startLoop = .returned)
      (hon : Onward digest c r goal stage) (hL : OnwardLocks s.managerStacksLocks t stage L) :
      Step digest s (.call t .managerStarted)
        { s with
          allStacks := s.allStacks.set r m'
          managerStacksLocks := L
          handed := Call.handed c goal r :: s.handed
          calls := s.calls.set t (Call.at c stage) }
  | managerStartRaised (t : Nat) (c : Call) (goal : Goal) (h : String) (r : Nat)
      (m m' : ManagerStack) (L : LockTable String) (hc : s.calls[t]? = some c)
      (hstage : c.stage = .startingStack goal h r) (hm : s.allStacks[r]? = some m)
      (hm' : m.managerStartRaised = some m') (hL : s.managerStacksLocks.exit t = some L) :
      Step digest s (.call t .managerStartRaised)
        { s with
          allStacks := s.allStacks.set r m'
          managerStacksLocks := L
          calls := s.calls.set t (Call.at c .over) }
  | finishes (t k : Nat) (c : Call) (r : Nat) (p : Option Nat) (id : Nat)
      (hc : s.calls[t]? = some c) (hstage : c.stage = .ready r p)
      (hk : k ≤ c.request.count) (hid : id ≤ 1) :
      Step digest s (.call t (.finishRequest k))
        { s with
          allNodes := (addNodes c.request.isHead r p k s).allNodes
          nodes := (addNodes c.request.isHead r p k s).nodes
          nodesIdCounter := (addNodes c.request.isHead r p k s).nodesIdCounter + id
          calls := s.calls.set t (Call.at c .over) }
  | stopPasses (ce : Bool) (hstate : s.state.live = true) :
      Step digest s (.stop ce)
        { s with
          state := .terminating
          stops := s.stops ++ [⟨ce, .nodes s.nodes.values []⟩] }
  | stopSkips (ce : Bool) (hstate : s.state.live = false) : Step digest s (.stop ce) s
  | stopsNode (i n : Nat) (σ : StopRun) (todo busy : List Nat) (v : NodeView)
      (hσ : s.stops[i]? = some σ) (hpc : σ.pc = .nodes (n :: todo) busy)
      (hv : s.allNodes[n]? = some v) :
      Step digest s (.stopping i .node)
        { s with
          allNodes := s.allNodes.set n (v.stop false)
          stops := s.stops.set i
            { σ with pc := .nodes todo (if v.state.live then busy ++ [n] else busy) } }
  | nodesDone (i : Nat) (σ : StopRun) (busy : List Nat)
      (hσ : s.stops[i]? = some σ) (hpc : σ.pc = .nodes [] busy)
      (hbusy : ∀ n ∈ busy, (s.allNodes[n]?).map NodeView.state = some .terminated) :
      Step digest s (.stopping i .nodesDone)
        { s with
          stops := s.stops.set i { σ with pc := .managerStacks s.managerStacks.values [] } }
  | stopsStack (i r : Nat) (σ : StopRun) (todo busy : List Nat) (m : ManagerStack)
      (hσ : s.stops[i]? = some σ) (hpc : σ.pc = .managerStacks (r :: todo) busy)
      (hm : s.allStacks[r]? = some m) :
      Step digest s (.stopping i .stack)
        { s with
          allStacks := s.allStacks.set r m.stop
          stops := s.stops.set i
            { σ with pc := .managerStacks todo (if m.isRunning then busy ++ [r] else busy) } }
  | stacksDone (i : Nat) (σ : StopRun) (busy : List Nat)
      (hσ : s.stops[i]? = some σ) (hpc : σ.pc = .managerStacks [] busy)
      (hbusy : ∀ r ∈ busy, (s.allStacks[r]?).map ManagerStack.stopLoop = some .returned) :
      Step digest s (.stopping i .stacksDone)
        { s with stops := s.stops.set i { σ with pc := .payment } }
  | paymentStopped (i : Nat) (σ : StopRun) (hσ : s.stops[i]? = some σ) (hpc : σ.pc = .payment) :
      Step digest s (.stopping i .paymentStopped)
        { s with
          paymentStarted := false
          state := .terminated
          nodes := {}
          nodesIdCounter := 0
          managerStacks := {}
          managerStacksLocks := s.managerStacksLocks.clear
          onStop := if σ.callEvents then s.onStop + 1 else s.onStop
          stops := s.stops.set i { σ with pc := .over } }
  | stopRaised (i : Nat) (σ : StopRun) (hσ : s.stops[i]? = some σ) (hpc : σ.pc ≠ .over) :
      Step digest s (.stopping i .raised) { s with stops := s.stops.set i { σ with pc := .over } }
  | nodeReady (n : Nat) (v : NodeView) (hv : s.allNodes[n]? = some v)
      (hstate : v.state = .pending) :
      Step digest s (.node n .ready)
        { s with allNodes := s.allNodes.set n { v with state := .running } }
  | nodeStartFailed (n : Nat) (v : NodeView) (hv : s.allNodes[n]? = some v)
      (hstate : v.state = .pending) :
      Step digest s (.node n .startFailed)
        { s with allNodes := s.allNodes.set n { v with state := .terminated } }
  | nodeStop (n : Nat) (v : NodeView) (hv : s.allNodes[n]? = some v) :
      Step digest s (.node n .stop) { s with allNodes := s.allNodes.set n (v.stop true) }
  | nodeStopped (n : Nat) (v : NodeView) (ce : Bool) (hv : s.allNodes[n]? = some v)
      (hstopping : v.stopping = some ce) :
      Step digest s (.node n .stopped)
        { s with
          allNodes := s.allNodes.set n { v with state := .terminated, stopping := none }
          events := if ce then s.events ++ [n] else s.events }
  | nodeStopRaised (n : Nat) (v : NodeView) (ce : Bool) (hv : s.allNodes[n]? = some v)
      (hstopping : v.stopping = some ce) :
      Step digest s (.node n .stopRaised)
        { s with allNodes := s.allNodes.set n { v with stopping := none } }
  | lastNodeStops (n : Nat) (v : NodeView) (hv : s.allNodes[n]? = some v) (hn : n ∈ s.events)
      (hlast : s.getNonTerminatedNodes = [] ∨ v.isHead = true) (hstate : s.state.live = true) :
      Step digest s (.onNodeStop n)
        { s with
          events := s.events.erase n
          state := .terminating
          stops := s.stops ++ [⟨true, .nodes s.nodes.values []⟩] }
  | lastNodeSkips (n : Nat) (v : NodeView) (hv : s.allNodes[n]? = some v) (hn : n ∈ s.events)
      (hlast : s.getNonTerminatedNodes = [] ∨ v.isHead = true) (hstate : s.state.live = false) :
      Step digest s (.onNodeStop n) { s with events := s.events.erase n }
  | nodeStoppedStacks (n : Nat) (v : NodeView) (hv : s.allNodes[n]? = some v) (hn : n ∈ s.events)
      (hlive : s.getNonTerminatedNodes ≠ []) (hhead : v.isHead = false) :
      Step digest s (.onNodeStop n)
        { s with
          events := s.events.erase n
          stackStops := s.stackStops ++ s.idleStacks v }
  | stackStops (r : Nat) (m : ManagerStack) (hm : s.allStacks[r]? = some m)
      (hr : r ∈ s.stackStops) :
      Step digest s (.stackStop r)
        { s with
          stackStops := s.stackStops.erase r
          allStacks := s.allStacks.set r m.stop }
  | managerStopped (r : Nat) (m m' : ManagerStack) (hm : s.allStacks[r]? = some m)
      (hm' : m.managerStopped = some m') :
      Step digest s (.stack r .managerStopped) { s with allStacks := s.allStacks.set r m' }
  | managerStopRaised (r : Nat) (m m' : ManagerStack) (hm : s.allStacks[r]? = some m)
      (hm' : m.managerStopRaised = some m') :
      Step digest s (.stack r .managerStopRaised) { s with allStacks := s.allStacks.set r m' }
  | onStopTaken (h : 0 < s.onStop) :
      Step digest s .onStopTaken { s with onStop := s.onStop - 1 }

/-- `stop()` passes on a pending or running cluster. -/
theorem stop_of_live {s : Cluster} (ce : Bool) (h : s.state.live = true) :
    s.stop ce = { s with
      state := .terminating
      stops := s.stops ++ [⟨ce, .nodes s.nodes.values []⟩] } := by
  rw [stop, if_neg]
  grind

/-- `stop()` skips a terminating or terminated cluster. -/
theorem stop_of_not_live {s : Cluster} (ce : Bool) (h : s.state.live = false) : s.stop ce = s := by
  rw [stop, if_pos]
  grind

/-- `addNodes` touches nothing but the nodes. -/
theorem addNodes_eq (hd : Bool) (r : Nat) (p : Option Nat) (k : Nat) (s : Cluster) :
    addNodes hd r p k s =
      { s with
        allNodes := (addNodes hd r p k s).allNodes
        nodes := (addNodes hd r p k s).nodes
        nodesIdCounter := (addNodes hd r p k s).nodesIdCounter } := by
  induction k generalizing s with
  | zero => rfl
  | succ k ih => exact ih (s.addNode hd r p)

/-- The nodes that `addNodes` finds stay where they are. -/
theorem addNodes_old {hd : Bool} {r : Nat} {p : Option Nat} {k n : Nat} {s : Cluster}
    {v : NodeView} (hv : s.allNodes[n]? = some v) :
    (addNodes hd r p k s).allNodes[n]? = some v := by
  induction k generalizing s with
  | zero => exact hv
  | succ k ih => exact ih (s := s.addNode hd r p) (Objects.append_old hv)

/-- A node after `addNodes` is an old one, or a new one with the given stacks. -/
theorem addNodes_cases {hd : Bool} {r : Nat} {p : Option Nat} {k n : Nat} {s : Cluster}
    {v : NodeView} (hv : (addNodes hd r p k s).allNodes[n]? = some v) :
    s.allNodes[n]? = some v ∨ (k ≠ 0 ∧ v.state = .pending ∧ v.stopping = none ∧
      v.managerStack = r ∧ v.priorityManagerStack = p) := by
  induction k generalizing s with
  | zero => exact .inl hv
  | succ k ih =>
      rcases ih hv with hold | ⟨_, hnew⟩
      · rcases Objects.append_cases hold with hold | ⟨-, rfl⟩
        · exact .inl hold
        · exact .inr ⟨by omega, rfl, rfl, rfl, rfl⟩
      · exact .inr ⟨by omega, hnew⟩

/-- The ids from the counter on are free. -/
def IdsFresh (s : Cluster) : Prop := ∀ k, s.nodesIdCounter ≤ k → s.nodes.get k = none

theorem IdsFresh.addNode {s : Cluster} (h : IdsFresh s) (hd : Bool) (r : Nat) (p : Option Nat) :
    IdsFresh (s.addNode hd r p) := by
  intro k hk
  have hk' : s.nodesIdCounter + 1 ≤ k := hk
  have hne : k ≠ s.nodesIdCounter := by omega
  show (s.nodes.set s.nodesIdCounter s.allNodes.length).get k = none
  rw [Dict.get_set_ne _ hne]
  exact h k (by omega)

theorem IdsFresh.addNodes {s : Cluster} (hd : Bool) (r : Nat) (p : Option Nat) (k : Nat)
    (h : IdsFresh s) : IdsFresh (Cluster.addNodes hd r p k s) := by
  induction k generalizing s with
  | zero => exact h
  | succ k ih => exact ih (h.addNode hd r p)

/-- A new node is registered last. -/
theorem values_addNode {s : Cluster} (h : IdsFresh s) (hd : Bool) (r : Nat) (p : Option Nat) :
    (s.addNode hd r p).nodes.values = s.nodes.values ++ [s.allNodes.length] :=
  Dict.values_set_of_get_none (h _ (Nat.le_refl _)) _

/-- `_get_or_create_manager_stack` returns, leaves its lock, and the call goes on. -/
theorem obtained_cases {s s' : Cluster} {t r : Nat} {c : Call} {goal : Goal}
    (h : s.obtained digest t c goal r = some s') :
    ∃ stage L, Onward digest c r goal stage ∧ OnwardLocks s.managerStacksLocks t stage L ∧
      s' = { s with
        managerStacksLocks := L
        handed := Call.handed c goal r :: s.handed
        calls := s.calls.set t (Call.at c stage) } := by
  simp only [obtained, release, Option.map_map, Option.map_eq_some_iff, Function.comp_apply] at h
  obtain ⟨L, hL, rfl⟩ := h
  cases goal with
  | priority => exact ⟨_, _, .seek rfl, .seek hL, rfl⟩
  | main p => exact ⟨_, _, .ready, .ready hL, rfl⟩

theorem stepCall_cases {s s' : Cluster} {t : Nat} {c : Call} {a : CallAct}
    (hc : s.calls[t]? = some c) (h : s.stepCall digest t c a = some s') :
    Step digest s (.call t a) s' := by
  cases a with
  | startDone =>
      simp only [stepCall, startDone] at h
      split at h <;> cases h
      exact .startDone t c hc ‹_›
  | startRaised =>
      simp only [stepCall, startRaised] at h
      split at h <;> cases h
      exact .startRaised t c hc ‹_›
  | leave =>
      simp only [stepCall, leave] at h
      split at h <;> cases h
      exact .leaves t c hc ‹_›
  | prepare =>
      simp only [stepCall, prepare] at h
      split at h <;> cases h
      exact .prepares t c _ _ hc ‹_› rfl rfl
  | wake =>
      simp only [stepCall, wake] at h
      split at h
      · obtain ⟨L, hL, rfl⟩ := Option.map_eq_some_iff.mp h
        exact .wakes t c _ _ L hc ‹_› hL
      · cases h
  | cancelWait =>
      simp only [stepCall, cancelWait] at h
      split at h <;> cases h
      exact .cancels t c _ _ hc ‹_›
  | unwind =>
      simp only [stepCall, unwind] at h
      split at h
      · obtain ⟨L, hL, rfl⟩ := Option.map_eq_some_iff.mp h
        exact .unwinds t c _ _ L hc ‹_› hL
      · cases h
  | lookup =>
      simp only [stepCall, lookup] at h
      split at h
      · rename_i goal hash k sem hstage hheld
        split at h
        · rename_i r hr
          obtain ⟨stage, L, hon, hL, rfl⟩ := obtained_cases h
          exact .finds t c goal hash k sem r stage L hc hstage hheld hr hon hL
        · rename_i hr
          cases h
          exact .misses t c goal hash k sem hc hstage hheld hr
      · cases h
  | create =>
      simp only [stepCall, create] at h
      split at h <;> cases h
      exact .creates t c _ _ hc ‹_›
  | createRaised =>
      simp only [stepCall, createRaised, release, Option.map_map] at h
      split at h
      · obtain ⟨L, hL, rfl⟩ := Option.map_eq_some_iff.mp h
        exact .createRaised t c _ _ L hc ‹_› hL
      · cases h
  | managerStarted =>
      simp only [stepCall, managerStarted] at h
      split at h
      · rename_i goal hash r hstage
        split at h
        · rename_i m hm
          split at h
          · rename_i m' hm'
            split at h
            · rename_i hlast
              obtain ⟨stage, L, hon, hL, rfl⟩ := obtained_cases h
              exact .handsOut t c goal hash r m m' stage L hc hstage hm hm' hlast hon hL
            · rename_i hmore
              cases h
              exact .managerStarted t c goal hash r m m' hc hstage hm hm' hmore
          · cases h
        · cases h
      · cases h
  | managerStartRaised =>
      simp only [stepCall, managerStartRaised] at h
      split at h
      · rename_i goal hash r hstage
        split at h
        · rename_i m hm
          split at h
          · rename_i m' hm'
            simp only [release, Option.map_map] at h
            obtain ⟨L, hL, rfl⟩ := Option.map_eq_some_iff.mp h
            exact .managerStartRaised t c goal hash r m m' L hc hstage hm hm' hL
          · cases h
        · cases h
      · cases h
  | finishRequest k =>
      simp only [stepCall, finishRequest] at h
      split at h
      · rename_i r p hstage
        rw [addNodes_eq] at h
        split at h
        · rename_i hk
          cases h
          exact .finishes t k c r p 0 hc hstage (Nat.le_of_eq hk) (by omega)
        · split at h <;> cases h
          exact .finishes t k c r p 1 hc hstage (Nat.le_of_lt ‹_›) (Nat.le_refl 1)
      · cases h

theorem stepStop_cases {s s' : Cluster} {i : Nat} {σ : StopRun} {a : StopAct}
    (hσ : s.stops[i]? = some σ) (h : s.stepStop i σ a = some s') :
    Step digest s (.stopping i a) s' := by
  cases a with
  | node =>
      simp only [stepStop, stopNode] at h
      split at h
      · rename_i n todo busy hpc
        split at h <;> cases h
        exact .stopsNode i n σ todo busy _ hσ hpc ‹_›
      · cases h
  | nodesDone =>
      simp only [stepStop, nodesDone] at h
      split at h
      · rename_i busy hpc
        split at h <;> cases h
        exact .nodesDone i σ busy hσ hpc ‹_›
      · cases h
  | stack =>
      simp only [stepStop, stopStack] at h
      split at h
      · rename_i r todo busy hpc
        split at h <;> cases h
        exact .stopsStack i r σ todo busy _ hσ hpc ‹_›
      · cases h
  | stacksDone =>
      simp only [stepStop, stacksDone] at h
      split at h
      · rename_i busy hpc
        split at h <;> cases h
        exact .stacksDone i σ busy hσ hpc ‹_›
      · cases h
  | paymentStopped =>
      simp only [stepStop, paymentStopped] at h
      split at h <;> cases h
      exact .paymentStopped i σ hσ ‹_›
  | raised =>
      simp only [stepStop, stopRaised] at h
      split at h
      · rename_i hpc
        split at h <;> cases h
        exact .stopRaised i σ hσ (by simp [hpc])
      · rename_i hpc
        split at h <;> cases h
        exact .stopRaised i σ hσ (by simp [hpc])
      · rename_i hpc
        cases h
        exact .stopRaised i σ hσ (by simp [hpc])
      · cases h

theorem stepNode_cases {s s' : Cluster} {n : Nat} {v : NodeView} {a : NodeAct}
    (hv : s.allNodes[n]? = some v) (h : s.stepNode n v a = some s') :
    Step digest s (.node n a) s' := by
  cases a with
  | ready =>
      simp only [stepNode, NodeView.ready, Option.map_eq_some_iff] at h
      obtain ⟨v', hv', rfl⟩ := h
      split at hv' <;> cases hv'
      exact .nodeReady n v hv ‹_›
  | startFailed =>
      simp only [stepNode, NodeView.startFailed, Option.map_eq_some_iff] at h
      obtain ⟨v', hv', rfl⟩ := h
      split at hv' <;> cases hv'
      exact .nodeStartFailed n v hv ‹_›
  | stop =>
      cases h
      exact .nodeStop n v hv
  | stopped =>
      simp only [stepNode, NodeView.stopped, Option.map_eq_some_iff] at h
      obtain ⟨v', hv', rfl⟩ := h
      split at hv' <;> cases hv'
      rename_i ce hce
      have : Step digest s (.node n .stopped) _ := .nodeStopped n v ce hv hce
      cases ce <;> simpa [hce, setNode] using this
  | stopRaised =>
      simp only [stepNode, NodeView.stopRaised, Option.map_eq_some_iff] at h
      obtain ⟨v', hv', rfl⟩ := h
      split at hv' <;> cases hv'
      exact .nodeStopRaised n v _ hv ‹_›

/-- **The list of effects is complete.** -/
theorem step_cases {s s' : Cluster} {a : Act} (h : step digest s a = some s') :
    Step digest s a s' := by
  cases a with
  | start q =>
      cases h
      unfold start
      split
      · exact .startSkips q ‹_›
      · rename_i hstate
        obtain ⟨hpending, hrunning⟩ := not_or.mp hstate
        exact .startPasses q hpending hrunning
  | enter q => cases h; exact .enters q
  | call t a =>
      simp only [step] at h
      split at h
      · exact stepCall_cases ‹_› h
      · cases h
  | stop ce =>
      cases h
      cases hstate : s.state.live with
      | true =>
          rw [stop_of_live ce hstate]
          exact .stopPasses ce hstate
      | false =>
          rw [stop_of_not_live ce hstate]
          exact .stopSkips ce hstate
  | stopping i a =>
      simp only [step] at h
      split at h
      · exact stepStop_cases ‹_› h
      · cases h
  | node n a =>
      simp only [step] at h
      split at h
      · exact stepNode_cases ‹_› h
      · cases h
  | onNodeStop n =>
      simp only [step, onNodeStop] at h
      split at h
      · rename_i v hv
        split at h
        · rename_i hn
          split at h
          · rename_i hlast
            cases h
            let s₁ : Cluster := { s with events := s.events.erase n }
            show Step digest s (.onNodeStop n) (s₁.stop true)
            cases hstate : s.state.live with
            | true =>
                rw [stop_of_live (s := s₁) true hstate]
                exact .lastNodeStops n v hv hn hlast hstate
            | false =>
                rw [stop_of_not_live (s := s₁) true hstate]
                exact .lastNodeSkips n v hv hn hlast hstate
          · rename_i hlast
            cases h
            obtain ⟨hlive, hhead⟩ := not_or.mp hlast
            exact .nodeStoppedStacks n v hv hn hlive (by simpa using hhead)
        · cases h
      · cases h
  | stackStop r =>
      simp only [step, runStackStop] at h
      split at h
      · split at h <;> cases h
        exact .stackStops r _ ‹_› ‹_›
      · cases h
  | stack r a =>
      simp only [step] at h
      split at h
      · cases a with
        | managerStopped =>
            obtain ⟨m', hm', rfl⟩ := Option.map_eq_some_iff.mp h
            exact .managerStopped r _ m' ‹_› hm'
        | managerStopRaised =>
            obtain ⟨m', hm', rfl⟩ := Option.map_eq_some_iff.mp h
            exact .managerStopRaised r _ m' ‹_› hm'
      · cases h
  | onStopTaken =>
      simp only [step] at h
      split at h <;> cases h
      exact .onStopTaken ‹_›

/-- Every step leaves the ids from the counter on free. -/
theorem IdsFresh.step {s s' : Cluster} {a : Act} (h : IdsFresh s) (hs : Step digest s a s') :
    IdsFresh s' := by
  cases hs with
  | finishes t k c r p id =>
      intro j hj
      exact (h.addNodes c.request.isHead r p k) j (Nat.le_trans (Nat.le_add_right _ id) hj)
  | paymentStopped i σ => exact fun _ _ => rfl
  | _ => exact h

end Cluster
