import Mathlib.Data.List.Basic

/-!
# Manager stacks

`ManagerStack.start` and `ManagerStack.stop` flip `_is_running` first and then
await the managers one by one, in list order and in reverse.  Each of the two
loops is a position in the list; an exception of a manager ends the loop where
it is and leaves the flag as it was set.

`Wf` says what the two positions tell about the managers of a stack that is
started once.  Every operation keeps it, `stop` as long as the start loop is
over, and it gives the two facts the cluster relies on: a start loop that
returned leaves every manager started (`Wf.running_of_returned`), and a stop
loop that returned leaves nothing running (`Wf.stopped_of_returned`).
-/

/-- How far a loop over the managers got. -/
inductive Loop
  | notCalled
  | at (i : Nat)
  | returned
  | raised
  deriving DecidableEq, Repr

/-- The loop awaits a manager. -/
def Loop.inProgress : Loop → Bool
  | .at _ => true
  | _ => false

@[simp] theorem Loop.inProgress_notCalled : Loop.inProgress .notCalled = false := rfl
@[simp] theorem Loop.inProgress_at (i : Nat) : Loop.inProgress (.at i) = true := rfl
@[simp] theorem Loop.inProgress_returned : Loop.inProgress .returned = false := rfl
@[simp] theorem Loop.inProgress_raised : Loop.inProgress .raised = false := rfl

/-- A `ManagerStack`: which managers are started, the flag, and the two loops. -/
structure ManagerStack where
  started : List Bool
  isRunning : Bool := false
  startLoop : Loop := .notCalled
  stopLoop : Loop := .notCalled
  deriving DecidableEq, Repr

namespace ManagerStack

/-- The demand, proposal and agreement managers that `create` adds. -/
def create : ManagerStack := { started := List.replicate 3 false }

/-- `start()` up to the first manager. -/
def start (m : ManagerStack) : ManagerStack :=
  if m.isRunning then m
  else
    { m with
      isRunning := true
      startLoop := if m.started.length = 0 then .returned else .at 0 }

/-- The awaited `manager.start()` returns and the loop goes on. -/
def managerStarted (m : ManagerStack) : Option ManagerStack :=
  match m.startLoop with
  | .at i =>
      some { m with
        started := m.started.set i true
        startLoop := if i + 1 < m.started.length then .at (i + 1) else .returned }
  | _ => none

/-- The awaited `manager.start()` raises. -/
def managerStartRaised (m : ManagerStack) : Option ManagerStack :=
  match m.startLoop with
  | .at _ => some { m with startLoop := .raised }
  | _ => none

/-- `stop()` up to the first awaited manager, which is the last of the list. -/
def stop (m : ManagerStack) : ManagerStack :=
  if m.isRunning then
    { m with
      isRunning := false
      stopLoop := if m.started.length = 0 then .returned else .at (m.started.length - 1) }
  else m

/-- The awaited `manager.stop()` returns and the loop goes on downwards. -/
def managerStopped (m : ManagerStack) : Option ManagerStack :=
  match m.stopLoop with
  | .at 0 => some { m with started := m.started.set 0 false, stopLoop := .returned }
  | .at (i + 1) => some { m with started := m.started.set (i + 1) false, stopLoop := .at i }
  | _ => none

/-- The awaited `manager.stop()` raises. -/
def managerStopRaised (m : ManagerStack) : Option ManagerStack :=
  match m.stopLoop with
  | .at _ => some { m with stopLoop := .raised }
  | _ => none

/-- Nothing of the stack runs, and nothing of it is under way. -/
def Stopped (m : ManagerStack) : Prop :=
  m.isRunning = false ∧ m.startLoop.inProgress = false ∧ m.stopLoop.inProgress = false ∧
    ∀ b ∈ m.started, b = false

/-- Every manager is started, and nobody is stopping the stack. -/
def Running (m : ManagerStack) : Prop :=
  m.isRunning = true ∧ m.startLoop = .returned ∧ m.stopLoop = .notCalled ∧
    ∀ b ∈ m.started, b = true

instance (m : ManagerStack) : Decidable m.Stopped := inferInstanceAs (Decidable (_ ∧ _))
instance (m : ManagerStack) : Decidable m.Running := inferInstanceAs (Decidable (_ ∧ _))

/-! ### What the loop positions say -/

/-- The invariant of a stack whose `start` is called once, and whose `stop` is
not entered while that call is under way. -/
structure Wf (m : ManagerStack) : Prop where
  startNotCalled : m.startLoop = .notCalled →
    m.isRunning = false ∧ m.stopLoop = .notCalled ∧ ∀ j : Nat, m.started[j]? ≠ some true
  starting : ∀ i, m.startLoop = .at i →
    m.isRunning = true ∧ i < m.started.length ∧ ∀ j < i, m.started[j]? ≠ some false
  startReturned : m.startLoop = .returned → m.stopLoop = .notCalled →
    ∀ j : Nat, m.started[j]? ≠ some false
  running : m.isRunning = true ↔ m.startLoop ≠ .notCalled ∧ m.stopLoop = .notCalled
  stopping : ∀ i, m.stopLoop = .at i →
    i < m.started.length ∧ ∀ j : Nat, i < j → m.started[j]? ≠ some true
  stopReturned : m.stopLoop = .returned → ∀ j : Nat, m.started[j]? ≠ some true

theorem inProgress_eq_false {l : Loop} : l.inProgress = false ↔ ∀ i, l ≠ .at i := by
  cases l <;> simp [Loop.inProgress]

/-! A loop that goes on or raises was in progress. -/

theorem starting_of_started {m m' : ManagerStack} (h : m.managerStarted = some m') :
    m.startLoop.inProgress = true := by
  unfold managerStarted at h
  split at h
  · rename_i i hi
    rw [hi]
    rfl
  · cases h

theorem starting_of_startRaised {m m' : ManagerStack} (h : m.managerStartRaised = some m') :
    m.startLoop.inProgress = true := by
  unfold managerStartRaised at h
  split at h
  · rename_i i hi
    rw [hi]
    rfl
  · cases h

theorem stopping_of_stopped {m m' : ManagerStack} (h : m.managerStopped = some m') :
    m.stopLoop.inProgress = true := by
  unfold managerStopped at h
  split at h
  · rename_i hi
    rw [hi]
    rfl
  · rename_i i hi
    rw [hi]
    rfl
  · cases h

theorem stopping_of_stopRaised {m m' : ManagerStack} (h : m.managerStopRaised = some m') :
    m.stopLoop.inProgress = true := by
  unfold managerStopRaised at h
  split at h
  · rename_i i hi
    rw [hi]
    rfl
  · cases h

/-- A stack that `create` just made and `start` just entered. -/
theorem wf_create_start : create.start.Wf := by
  constructor <;> simp [create, start]

/-- While the start loop runs, the stack is not being stopped. -/
theorem Wf.not_stopping_of_starting {m : ManagerStack} (h : m.Wf) {i : Nat}
    (hi : m.startLoop = .at i) : m.stopLoop = .notCalled :=
  (h.running.mp (h.starting i hi).1).2

theorem Wf.managerStarted {m m' : ManagerStack} (h : m.Wf) (hs : m.managerStarted = some m') :
    m'.Wf := by
  unfold ManagerStack.managerStarted at hs
  split at hs
  · rename_i i hi
    obtain rfl := Option.some.inj hs
    obtain ⟨hrun, hlt, hbelow⟩ := h.starting i hi
    have hstop := h.not_stopping_of_starting hi
    -- the managers up to and including `i` are started now
    have hupto : ∀ j ≤ i, (m.started.set i true)[j]? ≠ some false := by
      intro j hj
      rcases Nat.lt_or_eq_of_le hj with hj | rfl
      · rw [List.getElem?_set_ne (by omega)]
        exact hbelow j hj
      · simp [hlt]
    constructor
    · intro hc
      dsimp only at hc
      split at hc <;> cases hc
    · intro k hk
      dsimp only at hk
      split at hk
      · rename_i hnext
        obtain rfl := Loop.at.inj hk
        exact ⟨hrun, by simpa using hnext, fun j hj => hupto j (by omega)⟩
      · cases hk
    · intro hret _ j
      dsimp only at hret
      split at hret
      · cases hret
      · rename_i hlast
        rcases Nat.lt_or_ge j m.started.length with hj | hj
        · exact hupto j (by omega)
        · simp [hj]
    · simp only [hrun, hstop, true_iff]
      exact ⟨by split <;> simp, trivial⟩
    · simp [hstop]
    · simp [hstop]
  · cases hs

theorem Wf.managerStartRaised {m m' : ManagerStack} (h : m.Wf)
    (hs : m.managerStartRaised = some m') : m'.Wf := by
  unfold ManagerStack.managerStartRaised at hs
  split at hs
  · rename_i i hi
    obtain rfl := Option.some.inj hs
    have hrun := (h.starting i hi).1
    have hstop := h.not_stopping_of_starting hi
    constructor <;> simp [hrun, hstop]
  · cases hs

/-- `stop()` keeps the invariant when the start loop is over. -/
theorem Wf.stop {m : ManagerStack} (h : m.Wf)
    (hover : m.isRunning = true → m.startLoop.inProgress = false) : m.stop.Wf := by
  unfold ManagerStack.stop
  split
  · rename_i hrun
    have hne := (h.running.mp hrun).1
    constructor
    · intro hc
      exact absurd hc hne
    · intro i hi
      exact absurd hi (inProgress_eq_false.mp (hover hrun) i)
    · intro _ hc
      dsimp only at hc
      split at hc <;> cases hc
    · simp only [Bool.false_eq_true, false_iff, not_and]
      intro _
      split <;> simp
    · intro i hi
      dsimp only at hi
      split at hi
      · cases hi
      · obtain rfl := Loop.at.inj hi
        refine ⟨?_, fun j hj => by simp [show m.started.length ≤ j by omega]⟩
        show m.started.length - 1 < m.started.length
        omega
    · intro hret j
      dsimp only at hret
      split at hret
      · rename_i hlen
        simp [show m.started.length ≤ j by omega]
      · cases hret
  · exact h

theorem Wf.managerStopped {m m' : ManagerStack} (h : m.Wf) (hs : m.managerStopped = some m') :
    m'.Wf := by
  unfold ManagerStack.managerStopped at hs
  -- either position `i` was stopped and the loop goes on below it, or it was the first
  have hnext : ∀ i, m.stopLoop = .at i → ∀ j : Nat, i ≤ j →
      (m.started.set i false)[j]? ≠ some true := by
    intro i hi j hj
    obtain ⟨hlt, habove⟩ := h.stopping i hi
    rcases Nat.lt_or_eq_of_le hj with hj | rfl
    · rw [List.getElem?_set_ne (by omega)]
      exact habove j hj
    · simp [hlt]
  have hcalled : ∀ i, m.stopLoop = .at i → m.startLoop ≠ .notCalled := by
    intro i hi hc
    rw [(h.startNotCalled hc).2.1] at hi
    cases hi
  have hnotstarting : ∀ i, m.stopLoop = .at i → ∀ j, m.startLoop ≠ .at j := by
    intro i hi j hj
    rw [h.not_stopping_of_starting hj] at hi
    cases hi
  have hidle : ∀ i, m.stopLoop = .at i → m.isRunning = false := by
    intro i hi
    by_contra hrun
    rw [(h.running.mp (by simpa using hrun)).2] at hi
    cases hi
  split at hs
  · rename_i hi
    obtain rfl := Option.some.inj hs
    constructor
    · intro hc; exact absurd hc (hcalled 0 hi)
    · intro i hc; exact absurd hc (hnotstarting 0 hi i)
    · intro _ hc; cases hc
    · simp [hidle 0 hi]
    · intro i hc; cases hc
    · intro _ j; exact hnext 0 hi j (Nat.zero_le j)
  · rename_i i hi
    obtain rfl := Option.some.inj hs
    have hlt := (h.stopping _ hi).1
    constructor
    · intro hc; exact absurd hc (hcalled _ hi)
    · intro i hc; exact absurd hc (hnotstarting _ hi i)
    · intro _ hc; cases hc
    · simp [hidle _ hi]
    · intro k hk
      obtain rfl := Loop.at.inj hk
      exact ⟨by simpa using by omega, fun j hj => hnext _ hi j (by omega)⟩
    · intro hc; cases hc
  · cases hs

theorem Wf.managerStopRaised {m m' : ManagerStack} (h : m.Wf)
    (hs : m.managerStopRaised = some m') : m'.Wf := by
  unfold ManagerStack.managerStopRaised at hs
  split at hs
  · rename_i i hi
    obtain rfl := Option.some.inj hs
    have hrun : m.isRunning = false := by
      by_contra hrun
      rw [(h.running.mp (by simpa using hrun)).2] at hi
      cases hi
    constructor
    · intro hc
      rw [(h.startNotCalled hc).2.1] at hi
      cases hi
    · intro j hj
      rw [h.not_stopping_of_starting hj] at hi
      cases hi
    · intro _ hc; cases hc
    · simp [hrun]
    · intro j hj; cases hj
    · intro hc; cases hc
  · cases hs

/-- **A start that returned** and was not followed by a stop leaves the stack
running with all its managers. -/
theorem Wf.running_of_returned {m : ManagerStack} (h : m.Wf) (hs : m.startLoop = .returned)
    (hn : m.stopLoop = .notCalled) : m.Running := by
  refine ⟨h.running.mpr ⟨by simp [hs], hn⟩, hs, hn, fun b hb => ?_⟩
  obtain ⟨j, hj⟩ := List.mem_iff_getElem?.mp hb
  have := h.startReturned hs hn j
  cases b with
  | true => rfl
  | false => exact absurd hj this

/-- **A stop that returned** leaves nothing of the stack running. -/
theorem Wf.stopped_of_returned {m : ManagerStack} (h : m.Wf) (hr : m.stopLoop = .returned) :
    m.Stopped := by
  refine ⟨?_, ?_, by simp [hr, Loop.inProgress], fun b hb => ?_⟩
  · by_contra hrun
    rw [(h.running.mp (by simpa using hrun)).2] at hr
    cases hr
  · apply inProgress_eq_false.mpr
    intro i hi
    rw [h.not_stopping_of_starting hi] at hr
    cases hr
  · obtain ⟨j, hj⟩ := List.mem_iff_getElem?.mp hb
    cases b with
    | true => exact absurd hj (h.stopReturned hr j)
    | false => rfl

end ManagerStack
