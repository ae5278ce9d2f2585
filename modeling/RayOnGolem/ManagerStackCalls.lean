import RayOnGolem.Lib.GuardedRun
import RayOnGolem.ManagerStack

/-!
# Calls on a manager stack

Any sequence of `start()` and `stop()` calls on a stack of any managers, each of which
may raise.  `_is_running` is flipped before the loop over the managers, so the flag says
what the loop was going to do, not what it did.

`below n k` are the managers of a stack of `n` of which the first `k` are started.  A
start loop leads from `below n 0` upwards to `below n n` and a stop loop back again;
between the calls the flag tells which of the two it is, unless a manager raised.  Main
results:

* `ordered_of_reach` -- every call turns to the managers in its order;
* `bookkeeping_truthful` -- the flag is right between the calls of a run until a manager
  raises, and wrong right after one did;
* `half_started_stack` -- a stack that passes for started with no manager started.
-/

/-- The methods of a stack. -/
inductive StackMethod
  | start
  | stop
  deriving DecidableEq, Repr

/-- A call of one, with the managers it turned to. -/
structure StackCall where
  method : StackMethod
  managers : List Nat
  deriving DecidableEq, Repr

/-- A stack and the calls on it, the latest one first. -/
structure StackCalls where
  stack : ManagerStack
  calls : List StackCall := []
  deriving DecidableEq, Repr

/-- The managers of a stack of `n` whose first `k` managers are started. -/
def below (n k : Nat) : List Bool := (List.range n).map fun j => j < k

@[simp] theorem length_below (n k : Nat) : (below n k).length = n := by simp [below]

theorem getElem?_below {n k j : Nat} (hj : j < n) : (below n k)[j]? = some (decide (j < k)) := by
  simp [below, hj]

/-- Two stacks of `n` managers that differ in one of them, which has the value `b`. -/
theorem set_below {n k l m : Nat} {b : Bool} (hself : b = decide (k < m))
    (hother : ∀ j, j ≠ k → (j < l ↔ j < m)) : (below n l).set k b = below n m := by
  refine List.ext_getElem (by simp) fun j _ hj => ?_
  have hjn : j < n := by simpa using hj
  rw [List.getElem_set]
  by_cases hkj : k = j
  · subst hkj
    simp [below, hself]
  · rw [if_neg hkj]
    simp [below, hother j (Ne.symm hkj)]

/-- The next manager is started. -/
theorem set_below_true (n k : Nat) : (below n k).set k true = below n (k + 1) :=
  set_below (by simp) fun j hj => by omega

/-- The last started manager is stopped. -/
theorem set_below_false (n k : Nat) : (below n (k + 1)).set k false = below n k :=
  set_below (by simp) fun j hj => by omega

theorem below_all {n : Nat} : ∀ b ∈ below n n, b = true := by
  simp [below]

theorem below_none {n : Nat} : ∀ b ∈ below n 0, b = false := by
  simp [below]

namespace ManagerStack

/-- The flag tells what the managers are: all stopped, or all started. -/
def Truthful (m : ManagerStack) : Prop :=
  (m.isRunning = false → ∀ b ∈ m.started, b = false) ∧
    (m.isRunning = true → ∀ b ∈ m.started, b = true)

instance (m : ManagerStack) : Decidable m.Truthful := inferInstanceAs (Decidable (_ ∧ _))

/-- No call is in progress. -/
def between (m : ManagerStack) : Bool := !m.startLoop.inProgress && !m.stopLoop.inProgress

end ManagerStack

namespace StackCalls

open Runs

/-- What can happen: a call, or the awaited manager returns or raises. -/
inductive Act
  | start
  | stop
  | managerStarted
  | managerStartRaised
  | managerStopped
  | managerStopRaised
  deriving DecidableEq, Repr

/-- A manager raises. -/
def raises : Act → Bool
  | .managerStartRaised | .managerStopRaised => true
  | .start | .stop | .managerStarted | .managerStopped => false

/-- The call in progress turned to manager `i`. -/
def turnedTo (i : Nat) : List StackCall → List StackCall
  | [] => []
  | c :: calls => { c with managers := c.managers ++ [i] } :: calls

/-- The position of a loop that is in progress. -/
def position : Loop → Nat
  | .at i => i
  | .notCalled | .returned | .raised => 0

/-- One step; a call is made when none is in progress. -/
def step (s : StackCalls) : Act → Option StackCalls
  | .start =>
      if s.stack.between then some ⟨s.stack.start, ⟨.start, []⟩ :: s.calls⟩ else none
  | .stop =>
      if s.stack.between then some ⟨s.stack.stop, ⟨.stop, []⟩ :: s.calls⟩ else none
  | .managerStarted =>
      s.stack.managerStarted.map fun m => ⟨m, turnedTo (position s.stack.startLoop) s.calls⟩
  | .managerStartRaised =>
      s.stack.managerStartRaised.map fun m => ⟨m, turnedTo (position s.stack.startLoop) s.calls⟩
  | .managerStopped =>
      s.stack.managerStopped.map fun m => ⟨m, turnedTo (position s.stack.stopLoop) s.calls⟩
  | .managerStopRaised =>
      s.stack.managerStopRaised.map fun m => ⟨m, turnedTo (position s.stack.stopLoop) s.calls⟩

/-- A stack of `n` managers that was just made. -/
def Initial (n : Nat) (s : StackCalls) : Prop := s = ⟨{ started := List.replicate n false }, []⟩

variable {n : Nat} {s s' : StackCalls} {a : Act}

/-- The effects of the steps. -/
inductive Step (s : StackCalls) : Act → StackCalls → Prop
  | startSkips (hbetween : s.stack.between = true) (hrunning : s.stack.isRunning = true) :
      Step s .start ⟨s.stack, ⟨.start, []⟩ :: s.calls⟩
  | starts (hbetween : s.stack.between = true) (hrunning : s.stack.isRunning = false) :
      Step s .start
        ⟨{ s.stack with
            isRunning := true
            startLoop := if s.stack.started.length = 0 then .returned else .at 0 },
          ⟨.start, []⟩ :: s.calls⟩
  | stopSkips (hbetween : s.stack.between = true) (hrunning : s.stack.isRunning = false) :
      Step s .stop ⟨s.stack, ⟨.stop, []⟩ :: s.calls⟩
  | stops (hbetween : s.stack.between = true) (hrunning : s.stack.isRunning = true) :
      Step s .stop
        ⟨{ s.stack with
            isRunning := false
            stopLoop := if s.stack.started.length = 0 then .returned
              else .at (s.stack.started.length - 1) },
          ⟨.stop, []⟩ :: s.calls⟩
  | managerStarted (i : Nat) (hi : s.stack.startLoop = .at i) :
      Step s .managerStarted
        ⟨{ s.stack with
            started := s.stack.started.set i true
            startLoop := if i + 1 < s.stack.started.length then .at (i + 1) else .returned },
          turnedTo i s.calls⟩
  | managerStartRaised (i : Nat) (hi : s.stack.startLoop = .at i) :
      Step s .managerStartRaised ⟨{ s.stack with startLoop := .raised }, turnedTo i s.calls⟩
  | managerStopped (i : Nat) (hi : s.stack.stopLoop = .at i) :
      Step s .managerStopped
        ⟨{ s.stack with
            started := s.stack.started.set i false
            stopLoop := if i = 0 then .returned else .at (i - 1) },
          turnedTo i s.calls⟩
  | managerStopRaised (i : Nat) (hi : s.stack.stopLoop = .at i) :
      Step s .managerStopRaised ⟨{ s.stack with stopLoop := .raised }, turnedTo i s.calls⟩

theorem step_cases (hs : s.step a = some s') : Step s a s' := by
  cases a with
  | start =>
      obtain ⟨hbetween, hs⟩ := Option.ite_none_right_eq_some.mp hs
      cases hs
      unfold ManagerStack.start
      split
      · rename_i hrunning
        exact .startSkips hbetween hrunning
      · rename_i hrunning
        exact .starts hbetween (by simpa using hrunning)
  | stop =>
      obtain ⟨hbetween, hs⟩ := Option.ite_none_right_eq_some.mp hs
      cases hs
      unfold ManagerStack.stop
      split
      · rename_i hrunning
        exact .stops hbetween hrunning
      · rename_i hrunning
        exact .stopSkips hbetween (by simpa using hrunning)
  | managerStarted =>
      obtain ⟨m, hm, rfl⟩ := Option.map_eq_some_iff.mp hs
      unfold ManagerStack.managerStarted at hm
      split at hm
      · rename_i i hi
        cases hm
        rw [hi]
        exact .managerStarted i hi
      · cases hm
  | managerStartRaised =>
      obtain ⟨m, hm, rfl⟩ := Option.map_eq_some_iff.mp hs
      unfold ManagerStack.managerStartRaised at hm
      split at hm
      · rename_i i hi
        cases hm
        rw [hi]
        exact .managerStartRaised i hi
      · cases hm
  | managerStopped =>
      obtain ⟨m, hm, rfl⟩ := Option.map_eq_some_iff.mp hs
      unfold ManagerStack.managerStopped at hm
      split at hm
      · rename_i hi
        cases hm
        rw [hi]
        exact .managerStopped 0 hi
      · rename_i i hi
        cases hm
        rw [hi]
        exact .managerStopped (i + 1) hi
      · cases hm
  | managerStopRaised =>
      obtain ⟨m, hm, rfl⟩ := Option.map_eq_some_iff.mp hs
      unfold ManagerStack.managerStopRaised at hm
      split at hm
      · rename_i i hi
        cases hm
        rw [hi]
        exact .managerStopRaised i hi
      · cases hm

/-! ### The order -/

/-- A call turned to the managers in its order, as far as it got. -/
def StackCall.InOrder (n : Nat) (c : StackCall) : Prop :=
  match c.method with
  | .start => c.managers <+: List.range n
  | .stop => c.managers <+: (List.range n).reverse

/-- The managers that the call in progress has behind itself. -/
inductive Progress (n : Nat) (s : StackCalls) : Prop
  | between (hbetween : s.stack.between = true)
      (hcalls : ∀ c ∈ s.calls, StackCall.InOrder n c)
  | starting (i : Nat) (calls : List StackCall) (hi : i < n) (hloop : s.stack.startLoop = .at i)
      (hstop : s.stack.stopLoop.inProgress = false)
      (hhead : s.calls = ⟨.start, List.range i⟩ :: calls)
      (hcalls : ∀ c ∈ calls, StackCall.InOrder n c)
  | stopping (i : Nat) (calls : List StackCall) (hi : i < n) (hloop : s.stack.stopLoop = .at i)
      (hstart : s.stack.startLoop.inProgress = false)
      (hhead : s.calls = ⟨.stop, ((List.range n).drop (i + 1)).reverse⟩ :: calls)
      (hcalls : ∀ c ∈ calls, StackCall.InOrder n c)

/-- All calls are in order, and the stack has `n` managers. -/
structure Ordered (n : Nat) (s : StackCalls) : Prop where
  length : s.stack.started.length = n
  progress : Progress n s

/-- A call that skips, or has not turned to a manager yet. -/
theorem inOrder_nil (n : Nat) (method : StackMethod) : StackCall.InOrder n ⟨method, []⟩ := by
  cases method <;> exact List.nil_prefix

/-- A start that got to manager `i`. -/
theorem inOrder_start {i n : Nat} (hi : i ≤ n) :
    StackCall.InOrder n ⟨.start, List.range i⟩ := by
  show List.range i <+: List.range n
  have htake : (List.range n).take i = List.range i := by
    rw [List.take_range, Nat.min_eq_left hi]
  rw [← htake]
  exact List.take_prefix _ _

/-- A stop that got down to manager `i`. -/
theorem inOrder_stop (i n : Nat) :
    StackCall.InOrder n ⟨.stop, ((List.range n).drop i).reverse⟩ := by
  show ((List.range n).drop i).reverse <+: (List.range n).reverse
  rw [List.reverse_prefix]
  exact List.drop_suffix i _

/-- The next manager downwards. -/
theorem reverse_drop_range {i n : Nat} (hi : i < n) :
    ((List.range n).drop (i + 1)).reverse ++ [i] = ((List.range n).drop i).reverse := by
  have hdrop := List.drop_eq_getElem_cons (l := List.range n) (i := i) (by simpa using hi)
  rw [hdrop]
  simp

/-- The calls of a state between calls, with one more manager for the last call. -/
theorem Progress.finished {calls : List StackCall} {c : StackCall}
    (hbetween : s.stack.between = true) (hhead : s.calls = c :: calls)
    (hc : StackCall.InOrder n c) (hcalls : ∀ c ∈ calls, StackCall.InOrder n c) :
    Progress n s := by
  refine .between hbetween fun d hd => ?_
  rw [hhead] at hd
  rcases List.mem_cons.mp hd with rfl | hd
  · exact hc
  · exact hcalls d hd

theorem between_of_starting {m : ManagerStack} {i : Nat} (h : m.startLoop = .at i) :
    m.between ≠ true := by
  simp [ManagerStack.between, h]

theorem between_of_stopping {m : ManagerStack} {i : Nat} (h : m.stopLoop = .at i) :
    m.between ≠ true := by
  simp [ManagerStack.between, h]

/-- Where a call in `start()` stands. -/
theorem Progress.of_starting (h : Progress n s) {i : Nat} (hi : s.stack.startLoop = .at i) :
    i < n ∧ s.stack.stopLoop.inProgress = false ∧ ∃ calls,
      s.calls = ⟨.start, List.range i⟩ :: calls ∧ ∀ c ∈ calls, StackCall.InOrder n c := by
  cases h with
  | between hbetween => exact absurd hbetween (between_of_starting hi)
  | starting j calls hj hloop hstop hhead hcalls =>
      obtain rfl := Loop.at.inj (hi.symm.trans hloop)
      exact ⟨hj, hstop, calls, hhead, hcalls⟩
  | stopping j calls hj hloop hstart =>
      rw [hi] at hstart
      cases hstart

/-- Where a call in `stop()` stands. -/
theorem Progress.of_stopping (h : Progress n s) {i : Nat} (hi : s.stack.stopLoop = .at i) :
    i < n ∧ s.stack.startLoop.inProgress = false ∧ ∃ calls,
      s.calls = ⟨.stop, ((List.range n).drop (i + 1)).reverse⟩ :: calls ∧
      ∀ c ∈ calls, StackCall.InOrder n c := by
  cases h with
  | between hbetween => exact absurd hbetween (between_of_stopping hi)
  | starting j calls hj hloop hstop =>
      rw [hi] at hstop
      cases hstop
  | stopping j calls hj hloop hstart hhead hcalls =>
      obtain rfl := Loop.at.inj (hi.symm.trans hloop)
      exact ⟨hj, hstart, calls, hhead, hcalls⟩

/-- Between calls all calls are in order. -/
theorem Progress.of_between (h : Progress n s) (hbetween : s.stack.between = true) :
    s.stack.startLoop.inProgress = false ∧ s.stack.stopLoop.inProgress = false ∧
      ∀ c ∈ s.calls, StackCall.InOrder n c := by
  have hloops : s.stack.startLoop.inProgress = false ∧ s.stack.stopLoop.inProgress = false := by
    simpa [ManagerStack.between] using hbetween
  refine ⟨hloops.1, hloops.2, ?_⟩
  cases h with
  | between _ hcalls => exact hcalls
  | starting i calls hi hloop => exact absurd hbetween (between_of_starting hloop)
  | stopping i calls hi hloop => exact absurd hbetween (between_of_stopping hloop)

/-- Every call is in order, also the one in progress. -/
theorem Progress.inOrder (h : Progress n s) : ∀ c ∈ s.calls, StackCall.InOrder n c := by
  intro c hc
  cases h with
  | between _ hcalls => exact hcalls c hc
  | starting i calls hi _ _ hhead hcalls =>
      rw [hhead] at hc
      rcases List.mem_cons.mp hc with rfl | hc
      · exact inOrder_start (Nat.le_of_lt hi)
      · exact hcalls c hc
  | stopping i calls _ _ _ hhead hcalls =>
      rw [hhead] at hc
      rcases List.mem_cons.mp hc with rfl | hc
      · exact inOrder_stop (i + 1) n
      · exact hcalls c hc

theorem Ordered.step (h : Ordered n s) (hs : Step s a s') : Ordered n s' := by
  obtain ⟨hlength, hprogress⟩ := h
  cases hs with
  | startSkips hbetween =>
      obtain ⟨-, -, hcalls⟩ := hprogress.of_between hbetween
      exact ⟨hlength, .finished hbetween rfl (inOrder_nil n _) hcalls⟩
  | starts hbetween =>
      obtain ⟨-, hstop, hcalls⟩ := hprogress.of_between hbetween
      refine ⟨hlength, ?_⟩
      by_cases hn : n = 0
      · apply Progress.finished _ rfl (inOrder_nil n _) hcalls
        simp [ManagerStack.between, hlength, hn, hstop]
      · exact .starting 0 s.calls (by omega) (by simp [hlength, hn]) hstop rfl hcalls
  | stopSkips hbetween =>
      obtain ⟨-, -, hcalls⟩ := hprogress.of_between hbetween
      exact ⟨hlength, .finished hbetween rfl (inOrder_nil n _) hcalls⟩
  | stops hbetween =>
      obtain ⟨hstart, -, hcalls⟩ := hprogress.of_between hbetween
      refine ⟨hlength, ?_⟩
      by_cases hn : n = 0
      · apply Progress.finished _ rfl (inOrder_nil n _) hcalls
        simp [ManagerStack.between, hlength, hn, hstart]
      · refine .stopping (n - 1) s.calls (by omega) (by simp [hlength, hn]) hstart ?_ hcalls
        have hlast : n - 1 + 1 = n := by omega
        simp [hlast]
  | managerStarted i hi =>
      obtain ⟨hlt, hstop, calls, hhead, hcalls⟩ := hprogress.of_starting hi
      have hhead' : turnedTo i s.calls = ⟨.start, List.range (i + 1)⟩ :: calls := by
        rw [hhead, List.range_succ]
        rfl
      refine ⟨by simpa using hlength, ?_⟩
      by_cases hnext : i + 1 < n
      · exact .starting (i + 1) calls hnext (by simp [hlength, hnext]) hstop hhead' hcalls
      · apply Progress.finished _ hhead' (inOrder_start hlt) hcalls
        simp [ManagerStack.between, hlength, hnext, hstop]
  | managerStartRaised i hi =>
      obtain ⟨hlt, hstop, calls, hhead, hcalls⟩ := hprogress.of_starting hi
      have hhead' : turnedTo i s.calls = ⟨.start, List.range (i + 1)⟩ :: calls := by
        rw [hhead, List.range_succ]
        rfl
      refine ⟨hlength, .finished ?_ hhead' (inOrder_start hlt) hcalls⟩
      simp [ManagerStack.between, hstop]
  | managerStopped i hi =>
      obtain ⟨hlt, hstart, calls, hhead, hcalls⟩ := hprogress.of_stopping hi
      have hhead' : turnedTo i s.calls = ⟨.stop, ((List.range n).drop i).reverse⟩ :: calls := by
        rw [hhead, ← reverse_drop_range hlt]
        rfl
      refine ⟨by simpa using hlength, ?_⟩
      by_cases hfirst : i = 0
      · apply Progress.finished _ hhead' (inOrder_stop i n) hcalls
        simp [ManagerStack.between, hfirst, hstart]
      · refine .stopping (i - 1) calls (by omega) (by simp [hfirst]) hstart ?_ hcalls
        have hprev : i - 1 + 1 = i := by omega
        rw [hprev]
        exact hhead'
  | managerStopRaised i hi =>
      obtain ⟨hlt, hstart, calls, hhead, hcalls⟩ := hprogress.of_stopping hi
      have hhead' : turnedTo i s.calls = ⟨.stop, ((List.range n).drop i).reverse⟩ :: calls := by
        rw [hhead, ← reverse_drop_range hlt]
        rfl
      refine ⟨hlength, .finished ?_ hhead' (inOrder_stop i n) hcalls⟩
      simp [ManagerStack.between, hstart]

theorem ordered_initial (h : Initial n s) : Ordered n s := by
  subst h
  exact ⟨by simp, .between rfl fun c hc => (by cases hc)⟩

/-- **Managers are started in the order of the list and stopped in the reverse order**, by
every call and whatever raises. -/
theorem ordered_of_reach (h : Reachable (Initial n) step s) : Ordered n s :=
  Reach.invariant (I := Ordered n) (fun _ => ordered_initial)
    (fun _ _ _ hi _ hstep => hi.step (step_cases hstep)) h

/-! ### The flag -/

/-- The managers that are started, while no manager has raised. -/
inductive Honest (n : Nat) (m : ManagerStack) : Prop
  | stopped (hbetween : m.between = true) (hflag : m.isRunning = false)
      (hstarted : m.started = below n 0)
  | running (hbetween : m.between = true) (hflag : m.isRunning = true)
      (hstarted : m.started = below n n)
  | starting (i : Nat) (hi : i < n) (hloop : m.startLoop = .at i)
      (hstop : m.stopLoop.inProgress = false) (hflag : m.isRunning = true)
      (hstarted : m.started = below n i)
  | stopping (i : Nat) (hi : i < n) (hloop : m.stopLoop = .at i)
      (hstart : m.startLoop.inProgress = false) (hflag : m.isRunning = false)
      (hstarted : m.started = below n (i + 1))

/-- Between calls the flag is right. -/
theorem Honest.truthful {m : ManagerStack} (h : Honest n m) (hbetween : m.between = true) :
    m.Truthful := by
  cases h with
  | stopped _ hflag hstarted =>
      rw [ManagerStack.Truthful, hflag, hstarted]
      exact ⟨fun _ => below_none, fun hr => (by cases hr)⟩
  | running _ hflag hstarted =>
      rw [ManagerStack.Truthful, hflag, hstarted]
      exact ⟨fun hr => (by cases hr), fun _ => below_all⟩
  | starting i hi hloop => exact absurd hbetween (between_of_starting hloop)
  | stopping i hi hloop => exact absurd hbetween (between_of_stopping hloop)

/-- The managers while a start is in progress. -/
theorem Honest.of_starting {m : ManagerStack} (h : Honest n m) {i : Nat}
    (hi : m.startLoop = .at i) :
    i < n ∧ m.stopLoop.inProgress = false ∧ m.isRunning = true ∧ m.started = below n i := by
  cases h with
  | stopped hbetween => exact absurd hbetween (between_of_starting hi)
  | running hbetween => exact absurd hbetween (between_of_starting hi)
  | starting j hj hloop hstop hflag hstarted =>
      obtain rfl := Loop.at.inj (hi.symm.trans hloop)
      exact ⟨hj, hstop, hflag, hstarted⟩
  | stopping j hj hloop hstart =>
      rw [hi] at hstart
      cases hstart

/-- The managers while a stop is in progress. -/
theorem Honest.of_stopping {m : ManagerStack} (h : Honest n m) {i : Nat}
    (hi : m.stopLoop = .at i) :
    i < n ∧ m.startLoop.inProgress = false ∧ m.isRunning = false ∧
      m.started = below n (i + 1) := by
  cases h with
  | stopped hbetween => exact absurd hbetween (between_of_stopping hi)
  | running hbetween => exact absurd hbetween (between_of_stopping hi)
  | starting j hj hloop hstop =>
      rw [hi] at hstop
      cases hstop
  | stopping j hj hloop hstart hflag hstarted =>
      obtain rfl := Loop.at.inj (hi.symm.trans hloop)
      exact ⟨hj, hstart, hflag, hstarted⟩

/-- The managers between calls, as the flag has them. -/
theorem Honest.of_between {m : ManagerStack} (h : Honest n m) (hbetween : m.between = true) :
    m.startLoop.inProgress = false ∧ m.stopLoop.inProgress = false ∧
      m.started = below n (if m.isRunning then n else 0) := by
  have hloops : m.startLoop.inProgress = false ∧ m.stopLoop.inProgress = false := by
    simpa [ManagerStack.between] using hbetween
  refine ⟨hloops.1, hloops.2, ?_⟩
  cases h with
  | stopped _ hflag hstarted => simpa [hflag] using hstarted
  | running _ hflag hstarted => simpa [hflag] using hstarted
  | starting i hi hloop => exact absurd hbetween (between_of_starting hloop)
  | stopping i hi hloop => exact absurd hbetween (between_of_stopping hloop)

theorem honest_initial (h : Initial n s) : Honest n s.stack := by
  subst h
  refine .stopped rfl rfl (List.ext_getElem (by simp) fun j hj _ => ?_)
  simp [below]

/-- Every step in which no manager raises. -/
theorem Honest.step (h : Honest n s.stack) (hok : raises a = false) (hs : Step s a s') :
    Honest n s'.stack := by
  cases hs with
  | startSkips => exact h
  | starts hbetween hflag =>
      obtain ⟨-, hstop, hstarted⟩ := h.of_between hbetween
      rw [hflag] at hstarted
      have hlength : s.stack.started.length = n := by rw [hstarted, length_below]
      by_cases hn : n = 0
      · refine .running ?_ rfl ?_
        · simp [ManagerStack.between, hlength, hn, hstop]
        · simpa [hn] using hstarted
      · exact .starting 0 (by omega) (by simp [hlength, hn]) hstop rfl hstarted
  | stopSkips => exact h
  | stops hbetween hflag =>
      obtain ⟨hstart, -, hstarted⟩ := h.of_between hbetween
      rw [hflag] at hstarted
      have hlength : s.stack.started.length = n := by rw [hstarted, length_below]
      by_cases hn : n = 0
      · refine .stopped ?_ rfl ?_
        · simp [ManagerStack.between, hlength, hn, hstart]
        · simpa [hn] using hstarted
      · have hlast : n - 1 + 1 = n := by omega
        refine .stopping (n - 1) (by omega) (by simp [hlength, hn]) hstart rfl ?_
        rw [hlast]
        exact hstarted
  | managerStarted i hi =>
      obtain ⟨hlt, hstop, hflag, hstarted⟩ := h.of_starting hi
      have hlength : s.stack.started.length = n := by rw [hstarted, length_below]
      have hstarted' : s.stack.started.set i true = below n (i + 1) := by
        rw [hstarted, set_below_true]
      by_cases hnext : i + 1 < n
      · exact .starting (i + 1) hnext (by simp [hlength, hnext]) hstop hflag hstarted'
      · have hlast : i + 1 = n := by omega
        rw [hlast] at hstarted'
        refine .running ?_ hflag hstarted'
        simp [ManagerStack.between, hlength, hnext, hstop]
  | managerStartRaised i hi => cases hok
  | managerStopped i hi =>
      obtain ⟨hlt, hstart, hflag, hstarted⟩ := h.of_stopping hi
      have hstarted' : s.stack.started.set i false = below n i := by
        rw [hstarted, set_below_false]
      by_cases hfirst : i = 0
      · rw [hfirst] at hstarted'
        refine .stopped ?_ hflag (by rw [hfirst]; exact hstarted')
        simp [ManagerStack.between, hfirst, hstart]
      · have hprev : i - 1 + 1 = i := by omega
        refine .stopping (i - 1) (by omega) (by simp [hfirst]) hstart hflag ?_
        rw [hprev]
        exact hstarted'
  | managerStopRaised i hi => cases hok

/-- A manager that raises ends the call, and the flag is wrong. -/
theorem Honest.raised (h : Honest n s.stack) (hok : raises a = true) (hs : Step s a s') :
    s'.stack.between = true ∧ ¬ s'.stack.Truthful := by
  cases hs with
  | managerStartRaised i hi =>
      obtain ⟨hlt, hstop, hflag, hstarted⟩ := h.of_starting hi
      refine ⟨by simp [ManagerStack.between, hstop], fun htruthful => ?_⟩
      have hall := htruthful.2 hflag
      have hmem : false ∈ s.stack.started := by
        apply List.mem_iff_getElem?.mpr
        exact ⟨i, by rw [hstarted, getElem?_below hlt]; simp⟩
      exact absurd (hall false hmem) (by simp)
  | managerStopRaised i hi =>
      obtain ⟨hlt, hstart, hflag, hstarted⟩ := h.of_stopping hi
      refine ⟨by simp [ManagerStack.between, hstart], fun htruthful => ?_⟩
      have hall := htruthful.1 hflag
      have hmem : true ∈ s.stack.started := by
        apply List.mem_iff_getElem?.mpr
        exact ⟨i, by rw [hstarted, getElem?_below hlt]; simp⟩
      exact absurd (hall true hmem) (by simp)
  | _ => cases hok

/-- **The bookkeeping of a stack is right as long as no manager raises**: every call is in
order, the flag is right between the calls, and the next step leaves it right if and only
if no manager raises in it. -/
theorem bookkeeping_truthful (h : Reach (Initial n) step (fun _ a => raises a = false) s) :
    (∀ c ∈ s.calls, StackCall.InOrder n c) ∧
      (s.stack.between = true → s.stack.Truthful) ∧
      ∀ a s', s.step a = some s' →
        ((s'.stack.between = true → s'.stack.Truthful) ↔ raises a = false) := by
  have hordered : Ordered n s := ordered_of_reach (h.mono fun _ _ _ => trivial)
  have hhonest : Honest n s.stack :=
    Reach.invariant (I := fun s => Honest n s.stack) (fun _ => honest_initial)
      (fun _ _ _ hi hok hstep => hi.step hok (step_cases hstep)) h
  refine ⟨hordered.progress.inOrder, hhonest.truthful, fun a s' hs => ⟨fun htruthful => ?_, ?_⟩⟩
  · -- a manager that raises would leave the flag wrong
    by_contra hok
    obtain ⟨hbetween, hfalse⟩ := hhonest.raised (by simpa using hok) (step_cases hs)
    exact hfalse (htruthful hbetween)
  · intro hok
    exact (hhonest.step hok (step_cases hs)).truthful

/-- A stack of three managers is started, and then stopped. -/
def startedAndStopped : List Act :=
  [.start, .managerStarted, .managerStarted, .managerStarted,
    .stop, .managerStopped, .managerStopped, .managerStopped]

/-- The state it ends in. -/
def stoppedAgain : StackCalls :=
  { stack := { started := [false, false, false], startLoop := .returned, stopLoop := .returned }
    calls := [⟨.stop, [2, 1, 0]⟩, ⟨.start, [0, 1, 2]⟩] }

theorem bookkeeping_truthful_stoppedAgain :
    (∀ c ∈ stoppedAgain.calls, StackCall.InOrder 3 c) ∧
      (stoppedAgain.stack.between = true → stoppedAgain.stack.Truthful) ∧
      ∀ a s', stoppedAgain.step a = some s' →
        ((s'.stack.between = true → s'.stack.Truthful) ↔ raises a = false) := by
  have h : Reach (Initial 3) step (fun _ a => raises a = false) stoppedAgain := by
    have hinit : Initial 3 (⟨{ started := [false, false, false] }, []⟩ : StackCalls) := rfl
    have hrun : Reach (Initial 3) step (fun _ a => !raises a) stoppedAgain :=
      Reach.execGuarded startedAndStopped (.start hinit) rfl
    exact hrun.mono fun s a hok => by simpa using hok
  exact bookkeeping_truthful h

/-- **A stack that passes for started with no manager started**: its first manager raises
in `start()`, and the next `start()` does nothing. -/
theorem half_started_stack :
    ∃ s, exec step [.start, .managerStartRaised, .start]
        (⟨{ started := [false, false] }, []⟩ : StackCalls) = some s ∧
      s.stack.between = true ∧ s.stack.isRunning = true ∧ s.stack.started = [false, false] ∧
      ¬ s.stack.Truthful := by
  exact ⟨_, rfl, rfl, rfl, rfl, by decide⟩

end StackCalls
