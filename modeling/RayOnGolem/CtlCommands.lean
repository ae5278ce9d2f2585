import RayOnGolem.Ctl
import RayOnGolem.Lib.Polling

/-!
# What the `start` and `stop` commands do

`Justified` says of each event in the history of a command that what was learnt before
allows it, and `PcLaw` what is known at each position.

Main result: `commands_follow` -- in every interleaving of the commands of one data directory
a `start` creates at most one web server, and only after it saw none; a `stop` forces a
shutdown and kills a process only with leave; each command ends for the reason that it prints,
and a `start` fails exactly when its process exited or one of its loops passed its deadline;
and no loop goes on for more rounds than its timeout has check intervals.  The clock is not
set back.
-/

namespace CtlCommand

open Polling

/-- The command is a `start`. -/
def isStart : CtlCommand → Bool
  | .start _ _ _ => true
  | .stop _ _ => false

/-- No web server was there, or the one that was shutting down is gone with its process. -/
def SawNone (past : List CtlEvent) : Prop :=
  .spawned ∉ past ∧ (past = [.status none] ∨
    (.status (some true) ∈ past ∧ .serviceable none ∈ past ∧
      past.head? = some (.processInfo false)))

/-- The cluster was not empty, and `--force` was given or the user agreed. -/
def MayForce (c : CtlCommand) (past : List CtlEvent) : Prop :=
  .shutdown false .clusterNotEmpty ∈ past ∧ (c.force = true ∨ .confirm false true ∈ past)

/-- A process was found, and `--kill` was given or the user agreed. -/
def MayKill (c : CtlCommand) (past : List CtlEvent) : Prop :=
  .processInfo true ∈ past ∧ (c.kill = true ∨ .confirm true true ∈ past)

/-- The loop began so long ago that its timeout is over. -/
def Passed (loop : CtlLoop) (past : List CtlEvent) (now : Nat) : Prop :=
  ∃ since, .waiting loop since ∈ past ∧ since + loop.timeout ≤ now

/-- What was learnt before allows the event. -/
def Allowed (c : CtlCommand) (past : List CtlEvent) : CtlEvent → Prop
  | .spawned => c.isStart = true ∧ SawNone past
  | .shutdown true _ => c.isStart = false ∧ c.MayForce past
  | .killed => c.isStart = false ∧ c.MayKill past
  | .exited => c.isStart = true ∧ .spawned ∈ past
  | .timedOut loop now => Passed loop past now
  | _ => True

/-- Every event was allowed when it came. -/
def Justified (c : CtlCommand) : List CtlEvent → Prop
  | [] => True
  | e :: past => c.Allowed past e ∧ c.Justified past

/-- The loop has just been found to have passed its deadline. -/
def TimedOut (loop : CtlLoop) (history : List CtlEvent) : Prop :=
  ∃ now, history.head? = some (.timedOut loop now) ∧ Passed loop history now

/-- Why a `start` fails: the process that it made exited or its web server does not serve in
time; or, before it made one, the earlier web server or its process did not stop in time. -/
def FailLaw (history : List CtlEvent) : Prop :=
  (.spawned ∈ history ∧ (history.head? = some .exited ∨ TimedOut .start history)) ∨
    (.spawned ∉ history ∧ .status (some true) ∈ history ∧
      (TimedOut .shutdown history ∨ TimedOut .processStop history))

/-- Why a command ends. -/
def EndLaw (c : CtlCommand) (history : List CtlEvent) : CtlEnd → Prop
  | .alreadyRunning => history = [.status (some false)]
  | .started => .spawned ∈ history ∧ history.head? = some (.serviceable (some true))
  | .failed => c.isStart = true ∧ FailLaw history
  | .cancelled => history.head? = some (.confirm false false)
  | .completed => c.isStart = false ∧ history.head? = some (.processInfo false)
  | .stillRunning => history.head? = some (.confirm true false)
  | .terminated => .killed ∈ history
  | .raised => True

/-- A loop that began, with its deadline and its rounds. -/
structure Looping (loop : CtlLoop) (history : List CtlEvent) (deadline count time : Nat) :
    Prop where
  began : ∃ since, .waiting loop since ∈ history ∧ deadline = since + loop.timeout
  rounds : Rounds rayOnGolemCheckInterval loop.timeout deadline count time

/-- A `start` that waits has been told that the web server is shutting down. -/
def Waits (c : CtlCommand) (history : List CtlEvent) : Prop :=
  c.isStart = true → .status (some true) ∈ history ∧ .spawned ∉ history

/-- A `start` that waits for the process has seen that the web server is gone. -/
def WaitsProcess (c : CtlCommand) (history : List CtlEvent) : Prop :=
  c.Waits history ∧ .serviceable none ∈ history

theorem MayForce.event {c : CtlCommand} {past : List CtlEvent} (h : c.MayForce past)
    (e : CtlEvent) : c.MayForce (e :: past) :=
  ⟨List.mem_cons_of_mem e h.1, h.2.imp id (List.mem_cons_of_mem e)⟩

/-- What is known in `get_process_info`. -/
def InfoLaw (c : CtlCommand) (history : List CtlEvent) (now : Nat) : InfoCaller → Prop
  | .poll deadline count => c.WaitsProcess history ∧
      Looping .processStop history deadline (count + 1) (now + rayOnGolemCheckInterval)
  | .final => c.isStart = false

/-- What is known at a position. -/
def PcLaw (c : CtlCommand) (history : List CtlEvent) (now : Nat) : CtlPc → Prop
  | .getStatus => c.isStart = true ∧ history = []
  | .spawn => c.isStart = true ∧ SawNone history
  | .truncatePid _ | .writePid _ _ => c.isStart = true ∧ .spawned ∈ history
  | .startPoll _ deadline count | .startServiceable _ deadline count =>
      (c.isStart = true ∧ .spawned ∈ history) ∧
        Looping .start history deadline count now
  | .communicate _ deadline count wake =>
      (c.isStart = true ∧ .spawned ∈ history) ∧
        Looping .start history deadline (count + 1) wake
  | .stopServiceable force | .shutdown force =>
      c.isStart = false ∧ (force = true → c.MayForce history)
  | .confirmForce => c.isStart = false ∧ .shutdown false .clusterNotEmpty ∈ history
  | .shutdownBegin => c.Waits history
  | .shutdownPoll deadline count | .shutdownServiceable deadline count =>
      c.Waits history ∧ Looping .shutdown history deadline count now
  | .shutdownSleep deadline count wake =>
      c.Waits history ∧ Looping .shutdown history deadline (count + 1) wake
  | .processPoll deadline count =>
      c.WaitsProcess history ∧ Looping .processStop history deadline count now
  | .processSleep deadline count wake =>
      c.WaitsProcess history ∧ Looping .processStop history deadline count wake
  | .readPid caller | .openProcess caller _ | .statPid caller _ => c.InfoLaw history now caller
  | .clearStopped => c.WaitsProcess history ∧ history.head? = some (.processInfo false)
  | .confirmKill _ => c.isStart = false ∧ .processInfo true ∈ history
  | .kill _ => c.isStart = false ∧ c.MayKill history
  | .clearKilled => .killed ∈ history
  | .ended e => c.EndLaw history e

/-! ### Loops -/

section

variable {loop : CtlLoop} {history : List CtlEvent} {deadline count time : Nat}

theorem looping_zero (loop : CtlLoop) (history : List CtlEvent) (time : Nat) :
    Looping loop (.waiting loop time :: history) (time + loop.timeout) 0 time :=
  ⟨⟨time, by simp, rfl⟩, rounds_zero (by decide) _ _⟩

theorem Looping.later {time' : Nat} (h : Looping loop history deadline count time)
    (hle : time ≤ time') : Looping loop history deadline count time' :=
  ⟨h.began, h.rounds.later hle⟩

theorem Looping.next (h : Looping loop history deadline count time) (hlt : time < deadline) :
    Looping loop history deadline (count + 1) (time + rayOnGolemCheckInterval) :=
  ⟨h.began, h.rounds.next hlt⟩

theorem Looping.event (h : Looping loop history deadline count time) (e : CtlEvent) :
    Looping loop (e :: history) deadline count time := by
  obtain ⟨since, hsince, hdeadline⟩ := h.began
  exact ⟨⟨since, List.mem_cons_of_mem e hsince, hdeadline⟩, h.rounds⟩

/-- The deadline has passed. -/
theorem Looping.passed (h : Looping loop history deadline count time) (hover : deadline ≤ time) :
    Passed loop history time := by
  obtain ⟨since, hsince, rfl⟩ := h.began
  exact ⟨since, hsince, hover⟩

theorem Passed.timedOut (h : Passed loop history time) :
    TimedOut loop (.timedOut loop time :: history) := by
  obtain ⟨since, hsince, hover⟩ := h
  exact ⟨time, rfl, since, List.mem_cons_of_mem _ hsince, hover⟩

end

end CtlCommand

namespace CtlSession

open CtlCommand Polling

variable {s s' : CtlSession} {v : CtlView} {effect : CtlEffect} {now : Nat}

/-- What holds of a command. -/
structure Lawful (s : CtlSession) (now : Nat) : Prop where
  justified : s.command.Justified s.history
  position : s.command.PcLaw s.history now s.pc

/-- The rounds of the loop that the command is in, and the loop. -/
def CtlPc.rounds : CtlPc → Option (Nat × CtlLoop)
  | .startPoll _ _ count | .communicate _ _ count _ | .startServiceable _ _ count =>
      some (count, .start)
  | .shutdownPoll _ count | .shutdownSleep _ count _ | .shutdownServiceable _ count =>
      some (count, .shutdown)
  | .processPoll _ count | .processSleep _ count _ => some (count, .processStop)
  | _ => none

/-- What a user of the commands relies on. -/
structure Follows (s : CtlSession) : Prop where
  justified : s.command.Justified s.history
  once : s.history.count .spawned ≤ 1
  ends : ∀ e, s.pc = .ended e → s.command.EndLaw s.history e
  rounds : ∀ count loop, CtlPc.rounds s.pc = some (count, loop) →
    count ≤ loop.timeout / rayOnGolemCheckInterval

theorem PcLaw.later {c : CtlCommand} {history : List CtlEvent} {now' : Nat} {pc : CtlPc}
    (h : c.PcLaw history now pc) (hle : now ≤ now') : c.PcLaw history now' pc := by
  have hinfo : ∀ {caller : InfoCaller}, c.InfoLaw history now caller →
      c.InfoLaw history now' caller := by
    intro caller hcaller
    cases caller with
    | poll deadline count =>
        exact ⟨hcaller.1, hcaller.2.later (Nat.add_le_add_right hle _)⟩
    | final => exact hcaller
  cases pc with
  | startPoll | startServiceable | shutdownPoll | shutdownServiceable | processPoll =>
      exact ⟨h.1, h.2.later hle⟩
  | readPid caller | openProcess caller | statPid caller => exact hinfo h
  | _ => exact h

theorem Lawful.later {now' : Nat} (h : s.Lawful now) (hle : now ≤ now') : s.Lawful now' :=
  ⟨h.justified, PcLaw.later h.position hle⟩

/-! ### The steps of a command -/

/-- A command goes on without an event. -/
theorem Lawful.next (h : s.Lawful now) {pc : CtlPc}
    (hpc : s.command.PcLaw s.history now pc) : (s.next pc []).Lawful now :=
  ⟨h.justified, hpc⟩

/-- A command goes on with two events. -/
theorem Lawful.events (h : s.Lawful now) {pc : CtlPc} {e e' : CtlEvent}
    (he : s.command.Allowed s.history e) (he' : s.command.Allowed (e :: s.history) e')
    (hpc : s.command.PcLaw (e' :: e :: s.history) now pc) : (s.next pc [e', e]).Lawful now :=
  ⟨⟨he', he, h.justified⟩, hpc⟩

/-- A command goes on with an event. -/
theorem Lawful.event (h : s.Lawful now) {pc : CtlPc} {e : CtlEvent}
    (he : s.command.Allowed s.history e) (hpc : s.command.PcLaw (e :: s.history) now pc) :
    (s.next pc [e]).Lawful now :=
  ⟨⟨he, h.justified⟩, hpc⟩

theorem Waits.event {c : CtlCommand} {history : List CtlEvent} {e : CtlEvent}
    (h : c.Waits history) (he : e ≠ .spawned) : c.Waits (e :: history) := by
  intro hstart
  obtain ⟨hstatus, hnone⟩ := h hstart
  exact ⟨List.mem_cons_of_mem e hstatus, by simp [hnone, he.symm]⟩

theorem WaitsProcess.event {c : CtlCommand} {history : List CtlEvent} {e : CtlEvent}
    (h : c.WaitsProcess history) (he : e ≠ .spawned) : c.WaitsProcess (e :: history) :=
  ⟨Waits.event h.1 he, List.mem_cons_of_mem e h.2⟩

/-- `wait_for_stop` returns. -/
theorem pcLaw_afterWait {c : CtlCommand} {history : List CtlEvent} (h : c.WaitsProcess history)
    (hhead : history.head? = some (.processInfo false)) : c.PcLaw history now c.afterWait := by
  cases c with
  | start port registryStats selfShutdown =>
      obtain ⟨hstatus, hnone⟩ := h.1 rfl
      exact ⟨rfl, hnone, .inr ⟨hstatus, h.2, hhead⟩⟩
  | stop force kill => rfl

/-- `wait_for_stop` raises. -/
theorem pcLaw_afterTimeout {c : CtlCommand} {history : List CtlEvent} (h : c.Waits history)
    (htimedOut : TimedOut .shutdown history ∨ TimedOut .processStop history) :
    c.PcLaw history now c.afterTimeout := by
  cases c with
  | start port registryStats selfShutdown =>
      obtain ⟨hstatus, hnone⟩ := h rfl
      exact ⟨rfl, .inr ⟨hnone, hstatus, htimedOut⟩⟩
  | stop force kill => rfl

/-- `_wait_for_process_stop` begins. -/
theorem Lawful.waitForProcess (h : s.Lawful now) (hwaits : s.command.Waits s.history) :
    (s.waitForProcess now).Lawful now := by
  refine h.events trivial trivial ⟨⟨?_, by simp⟩, looping_zero .processStop _ now⟩
  exact Waits.event (Waits.event hwaits (by simp)) (by simp)

theorem Lawful.notFound (h : s.Lawful now) {caller : InfoCaller}
    (hinfo : s.command.InfoLaw s.history now caller) : (s.notFound caller).Lawful now := by
  cases caller with
  | poll deadline count =>
      have hwaits := WaitsProcess.event (e := .processInfo false) hinfo.1 (by simp)
      refine h.event trivial ?_
      split
      · exact pcLaw_afterWait hwaits rfl
      · exact ⟨hwaits, rfl⟩
  | final => exact h.event trivial ⟨hinfo, rfl⟩

theorem Lawful.found (h : s.Lawful now) {caller : InfoCaller} (process : ProcessTable.Handle)
    (hinfo : s.command.InfoLaw s.history now caller) : (s.found now process caller).Lawful now := by
  cases caller with
  | poll deadline count =>
      exact h.event trivial ⟨WaitsProcess.event hinfo.1 (by simp), hinfo.2.event _⟩
  | final =>
      refine h.event trivial ?_
      split
      · exact ⟨hinfo, by simp, .inl ‹_›⟩
      · exact ⟨hinfo, by simp⟩

theorem Lawful.go (h : s.Lawful v.now) (hstep : s.go v = some (effect, s')) :
    s'.Lawful v.now := by
  have hlaw := h.position
  unfold CtlSession.go at hstep
  split at hstep
  case h_12 => cases hstep
  all_goals
    rename_i hpc
    rw [hpc] at hlaw
  · cases hstep
    exact h.next hlaw
  · cases hstep
    exact h.event trivial
      ⟨⟨hlaw.1, List.mem_cons_of_mem _ hlaw.2⟩, looping_zero .start s.history v.now⟩
  · cases hstep
    split
    · exact h.next ⟨hlaw.1, hlaw.2.next ‹_›⟩
    · have hpassed := hlaw.2.passed (Nat.le_of_not_lt ‹_›)
      exact h.event hpassed
        ⟨hlaw.1.1, .inl ⟨List.mem_cons_of_mem _ hlaw.1.2, .inr hpassed.timedOut⟩⟩
  · cases hstep
    split
    · exact h.next ⟨hlaw.1, hlaw.2.next ‹_›⟩
    · have hpassed := hlaw.2.passed (Nat.le_of_not_lt ‹_›)
      exact h.event hpassed
        (pcLaw_afterTimeout (Waits.event hlaw.1 (by simp)) (.inl hpassed.timedOut))
  · cases hstep
    split
    · exact h.next ⟨hlaw.1, hlaw.2.next ‹_›⟩
    · have hpassed := hlaw.2.passed (Nat.le_of_not_lt ‹_›)
      exact h.event hpassed
        (pcLaw_afterTimeout (Waits.event hlaw.1.1 (by simp)) (.inr hpassed.timedOut))
  · split at hstep <;> cases hstep
    · exact h.next hlaw
    · exact h.notFound hlaw
  · split at hstep <;> cases hstep
    · exact h.next hlaw
    · exact h.notFound hlaw
  · split at hstep <;> cases hstep
    · split
      · exact h.found _ hlaw
      · exact h.notFound hlaw
    · exact h.notFound hlaw
  · cases hstep
    exact h.next (pcLaw_afterWait hlaw.1 hlaw.2)
  · cases hstep
    exact h.event hlaw (by simp [PcLaw])
  · cases hstep
    exact h.next hlaw

theorem Lawful.serviceable (h : s.Lawful v.now) {answer : Option Bool}
    (hstep : s.serviceable v answer = some s') : s'.Lawful v.now := by
  have hlaw := h.position
  unfold CtlSession.serviceable at hstep
  split at hstep
  case h_5 => cases hstep
  all_goals
    rename_i hpc
    rw [hpc] at hlaw
    cases hstep
  · refine h.event trivial ?_
    have hspawned := List.mem_cons_of_mem (CtlEvent.serviceable answer) hlaw.1.2
    split
    · subst answer
      exact ⟨hspawned, rfl⟩
    · exact ⟨⟨hlaw.1.1, hspawned⟩, hlaw.2.event _⟩
  · refine h.event trivial ?_
    split
    · exact ⟨hlaw.1, fun hforce => (hlaw.2 hforce).event _⟩
    · intro hstart
      simp [hlaw.1] at hstart
  · split
    · exact h.waitForProcess hlaw
    · refine h.events trivial trivial ⟨?_, looping_zero .shutdown _ v.now⟩
      exact Waits.event (Waits.event hlaw (by simp)) (by simp)
  · split
    · exact h.waitForProcess hlaw.1
    · exact h.event trivial ⟨Waits.event hlaw.1 (by simp), hlaw.2.event _⟩

theorem Lawful.slept (h : s.Lawful v.now) (hstep : s.slept v = some s') :
    s'.Lawful v.now := by
  have hlaw := h.position
  unfold CtlSession.slept at hstep
  split at hstep
  case h_4 => cases hstep
  all_goals
    rename_i hpc
    rw [hpc] at hlaw
    obtain ⟨hwake, heq⟩ := Option.ite_none_right_eq_some.mp hstep
    cases heq
    exact h.next ⟨hlaw.1, hlaw.2.later hwake⟩

theorem Lawful.confirm (h : s.Lawful now) {yes : Bool} (hstep : s.confirm yes = some s') :
    s'.Lawful now := by
  have hlaw := h.position
  unfold CtlSession.confirm at hstep
  split at hstep
  case h_3 => cases hstep
  all_goals
    rename_i hpc
    rw [hpc] at hlaw
    cases hstep
    refine h.event trivial ?_
  · cases yes with
    | true => exact ⟨hlaw.1, fun _ => ⟨List.mem_cons_of_mem _ hlaw.2, .inr (by simp)⟩⟩
    | false => rfl
  · cases yes with
    | true => exact ⟨hlaw.1, List.mem_cons_of_mem _ hlaw.2, .inr (by simp)⟩
    | false => rfl

/-- `shutdown_webserver` answers. -/
theorem Lawful.shutdown (h : s.Lawful now) {force : Bool} (hpc : s.pc = .shutdown force)
    (state : ShutdownState) :
    (s.next (if force = true ∨ state ≠ .clusterNotEmpty then .shutdownBegin
      else if s.command.force then .stopServiceable true
      else .confirmForce) [.shutdown force state]).Lawful now := by
  have hlaw := h.position
  rw [hpc] at hlaw
  refine h.event ?_ ?_
  · cases force with
    | true => exact ⟨hlaw.1, hlaw.2 rfl⟩
    | false => trivial
  · split
    · intro hstart
      simp [hlaw.1] at hstart
    · rename_i hempty
      obtain ⟨rfl, rfl⟩ : force = false ∧ state = .clusterNotEmpty := by simpa using hempty
      split
      · exact ⟨hlaw.1, fun _ => ⟨by simp, .inl ‹_›⟩⟩
      · exact ⟨hlaw.1, by simp⟩

/-- Every step of a command is lawful. -/
theorem Lawful.step (h : s.Lawful v.now) {a : CtlAct} (hstep : s.step v a = some (effect, s')) :
    s'.Lawful v.now := by
  have hlaw := h.position
  cases a with
  | go => exact h.go hstep
  | status shuttingDown =>
      simp only [CtlSession.step] at hstep
      split at hstep
      · rename_i hpc
        cases hstep
        rw [hpc] at hlaw
        refine h.event trivial ?_
        rcases shuttingDown with _ | _ | _
        · exact ⟨hlaw.1, by simp [hlaw.2], .inl (by rw [hlaw.2])⟩
        · exact congrArg _ hlaw.2
        · exact fun _ => ⟨by simp, by simp [hlaw.2]⟩
      · cases hstep
  | serviceable answer =>
      obtain ⟨t, ht, heq⟩ := Option.map_eq_some_iff.mp hstep
      cases heq
      exact h.serviceable ht
  | shutdown state =>
      simp only [CtlSession.step] at hstep
      split at hstep <;> cases hstep
      exact h.shutdown ‹_› state
  | confirm yes =>
      obtain ⟨t, ht, heq⟩ := Option.map_eq_some_iff.mp hstep
      cases heq
      exact h.confirm ht
  | spawned pid =>
      simp only [CtlSession.step] at hstep
      split at hstep
      · rename_i hpc
        cases hstep
        rw [hpc] at hlaw
        exact h.event hlaw ⟨hlaw.1, by simp⟩
      · cases hstep
  | exited =>
      simp only [CtlSession.step] at hstep
      split at hstep
      · rename_i hpc
        cases hstep
        rw [hpc] at hlaw
        exact h.event hlaw.1
          ⟨hlaw.1.1, .inl ⟨List.mem_cons_of_mem _ hlaw.1.2, .inl rfl⟩⟩
      · cases hstep
  | slept =>
      obtain ⟨t, ht, heq⟩ := Option.map_eq_some_iff.mp hstep
      cases heq
      exact h.slept ht
  | raised =>
      simp only [CtlSession.step] at hstep
      split at hstep <;> cases hstep
      exact h.next trivial

theorem count_spawned_of_justified {c : CtlCommand} {history : List CtlEvent}
    (h : c.Justified history) : history.count .spawned ≤ 1 := by
  induction history with
  | nil => simp
  | cons e past ih =>
      by_cases he : e = .spawned
      · subst he
        rw [List.count_cons_self, List.count_eq_zero.mpr h.1.2.1]
      · rw [List.count_cons_of_ne he]
        exact ih h.2

theorem Lawful.follows (h : s.Lawful now) : s.Follows := by
  refine ⟨h.justified, count_spawned_of_justified h.justified, fun e he => ?_, ?_⟩
  · have hlaw := h.position
    rw [he] at hlaw
    exact hlaw
  · intro count loop hrounds
    have hlaw := h.position
    have hdvd : rayOnGolemCheckInterval ∣ loop.timeout := by
      cases loop <;> decide
    have hloop : ∃ rounds time deadline, count ≤ rounds ∧
        Looping loop s.history deadline rounds time := by
      cases hpc : s.pc <;> rw [hpc] at hrounds hlaw <;> cases hrounds
      all_goals exact ⟨_, _, _, by omega, hlaw.2⟩
    obtain ⟨rounds, time, deadline, hle, hlooping⟩ := hloop
    exact hle.trans (hlooping.rounds.le hdvd)

end CtlSession

namespace CtlWorld

open Runs

variable {w w' : CtlWorld}

/-- Every command is lawful. -/
def Lawful (w : CtlWorld) : Prop := ∀ s ∈ w.sessions, s.Lawful w.processes.now

theorem Lawful.step {a : Act} (h : Lawful w) (hstep : w.step a = some w') : Lawful w' := by
  cases a with
  | tick seconds =>
      cases hstep
      exact fun s hs => (h s hs).later (Nat.le_add_right _ _)
  | spawnOther pid =>
      obtain ⟨T', hspawn, rfl⟩ := Option.map_eq_some_iff.mp hstep
      obtain ⟨rfl, -⟩ := ProcessTable.Table.spawn_cases hspawn
      exact h
  | free entry =>
      simp only [CtlWorld.step] at hstep
      split at hstep
      · cases hstep
      · obtain ⟨T', hfree, rfl⟩ := Option.map_eq_some_iff.mp hstep
        obtain ⟨e, -, -, rfl⟩ := ProcessTable.Table.free_cases hfree
        exact h
  | command c =>
      cases hstep
      intro s hs
      rcases List.mem_append.mp hs with hold | hnew
      · exact h s hold
      · obtain rfl : s = ⟨c, c.entry, []⟩ := by simpa using hnew
        refine ⟨trivial, ?_⟩
        cases c with
        | start port registryStats selfShutdown => exact ⟨rfl, rfl⟩
        | stop force kill => exact ⟨rfl, fun hforce => by cases hforce⟩
  | session i b =>
      simp only [CtlWorld.step] at hstep
      split at hstep
      · rename_i s hs
        split at hstep
        · rename_i effect s' hmove
          obtain ⟨w'', hw, rfl⟩ := Option.map_eq_some_iff.mp hstep
          have hnext := (h s (List.mem_of_getElem? hs)).step (v := w.view) hmove
          intro t (ht : t ∈ w''.sessions.set i s')
          show t.Lawful w''.processes.now
          rw [now_perform hw]
          rw [sessions_perform hw] at ht
          rcases List.mem_or_eq_of_mem_set ht with hold | rfl
          · exact h t hold
          · exact hnext
        · cases hstep
      · cases hstep

theorem lawful_of_reach (h : Reachable Initial CtlWorld.step w) : Lawful w := by
  refine h.invariant (fun w hw => ?_) fun _ _ _ hw _ hstep => hw.step hstep
  simp [Lawful, hw.2.1]

/-- **What the commands do.**  However the commands of one data directory, the web server, the
user and the processes interleave, each event of a command was allowed by what it had learnt
before, a `start` makes at most one web server, a command ends for a reason it has seen, and no
loop makes more rounds than its timeout has check intervals. -/
theorem commands_follow (h : Reachable Initial step w) : ∀ s ∈ w.sessions, s.Follows :=
  fun s hs => (lawful_of_reach h s hs).follows

/-- `stop --force` on a cluster that is not empty. -/
def forcedStop : List Act :=
  [.command (.stop true false), .session 0 (.serviceable (some true)),
    .session 0 (.shutdown .clusterNotEmpty), .session 0 (.serviceable (some true)),
    .session 0 (.shutdown .forcedShutdown), .session 0 (.serviceable (some false)),
    .session 0 .go, .tick 2, .session 0 .slept, .session 0 (.serviceable none), .session 0 .go,
    .session 0 .go, .session 0 .go]

theorem commands_follow_forcedStop :
    ∃ w, exec step forcedStop {} = some w ∧
      w.sessions.map CtlSession.pc = [.ended .completed] ∧ ∀ s ∈ w.sessions, s.Follows := by
  refine ⟨_, rfl, rfl, ?_⟩
  have hreach : Reachable Initial step _ :=
    Reach.exec (s := {}) forcedStop (.start ⟨rfl, rfl, rfl, ProcessTable.Table.wf_empty⟩) rfl
  exact commands_follow hreach

end CtlWorld
