import RayOnGolem.Yagna

/-!
# What becomes of the daemon

`PcLaw` says what is known at each position of the service, and `TaskLaw` what the task knows of
the daemon.

Main result: `process_accounted` -- over the whole life of the service, however its awaits end
and whenever the daemon does: a yagna that was started externally is left alone, the web server
serves with an application key only, a warning is about a daemon that ended by itself, `stop()`
returns when the daemon has ended and raises for no other reason than that it had ended unasked
or that it is itself cancelled, and a daemon is left running unasked exactly where `start()`
raised after making it.
-/

/-- At these positions the daemon may have been told to end. -/
def YagnaPc.terminates : YagnaPc → Bool
  | .waiting | .stopped | .stopRaised .cancelledError => true
  | _ => false

/-- The service is over. -/
def YagnaPc.over : YagnaPc → Bool
  | .stopped | .startRaised _ | .stopRaised _ => true
  | _ => false

/-- The rounds that were begun in the loop that the service is in. -/
def YagnaPc.rounds : YagnaPc → Option Nat
  | .communicating _ count _ | .checking _ count => some count
  | _ => none

namespace Yagna

open Runs Polling

/-- The daemon was told to end, or is gone. -/
def Told (p : YagnaProcess) : Prop := p.terminated = true ∨ p.phase ≠ .alive

/-- The rounds of the loop of `_run_yagna`. -/
abbrev StartRounds (deadline count time : Nat) : Prop :=
  Rounds yagnaCheckInterval yagnaStartTimeout deadline count time

/-- The daemon that was made, if any, has its task. -/
def Watched (s : Yagna) : Prop :=
  (s.yagnaProcess = none → s.external = true) ∧
    ∀ p, s.yagnaProcess = some p → ∃ t, s.earlyExitTask = some t ∧ t.cancelled = false

/-- What is known at a position. -/
def PcLaw (s : Yagna) : YagnaPc → Prop
  | .starting | .spawning => s.yagnaProcess = none ∧ s.earlyExitTask = none ∧ s.external = false
  | .communicating deadline count wake =>
      s.yagnaProcess ≠ none ∧ s.earlyExitTask = none ∧ StartRounds deadline count wake
  | .checking deadline count =>
      s.yagnaProcess ≠ none ∧ s.earlyExitTask = none ∧ StartRounds deadline count s.now
  | .listing | .creating => s.Watched
  | .serving => s.Watched ∧ s.yagnaAppkey ≠ none
  | .cancelling =>
      s.yagnaProcess ≠ none ∧
        ∃ t, s.earlyExitTask = some t ∧ (t.pc.over = true ∨ t.cancelled = true)
  | .waiting => ∃ p, s.yagnaProcess = some p ∧ Told p
  | .stopped => ∀ p, s.yagnaProcess = some p → p.ended = true
  | .startRaised e => e = .exited → ∃ p, s.yagnaProcess = some p ∧ p.ended = true
  | .stopRaised .attributeError => False
  | .stopRaised .processLookupError =>
      ∃ p, s.yagnaProcess = some p ∧ p.phase = .closed ∧ p.terminated = false
  | .stopRaised .cancelledError => ∃ p, s.yagnaProcess = some p ∧ Told p

/-- A warning is about a daemon that ended by itself, and a daemon is told to end only when the
task is over. -/
structure TaskLaw (t : EarlyExitTask) (p : YagnaProcess) : Prop where
  warned : t.pc = .warned → p.ended = true ∧ p.terminated = false
  terminated : p.terminated = true → t.pc.over = true
  cancelled : t.pc = .cancelled → t.cancelled = true

/-- What holds of the service at any time. -/
structure Sound (s : Yagna) : Prop where
  position : s.PcLaw s.pc
  external : s.external = true → s.yagnaProcess = none
  task : ∀ t p, s.earlyExitTask = some t → s.yagnaProcess = some p → TaskLaw t p
  told : ∀ p, s.yagnaProcess = some p → p.terminated = true → s.pc.terminates = true

variable {settings : YagnaSettings} {s s' : Yagna} {a : Act}

theorem sound_initial (h : Initial s) : Sound s := by
  obtain ⟨now, rfl⟩ := h
  constructor <;> simp [PcLaw]

/-! ### The service goes on -/

/-- From a position at which the daemon was not told to end. -/
theorem Sound.next (h : Sound s) {pc : YagnaPc} (hlaw : s.PcLaw pc)
    (hterminates : s.pc.terminates = true → pc.terminates = true) :
    Sound { s with pc := pc } := by
  refine ⟨?_, h.external, h.task, fun p hp hterminated => hterminates (h.told p hp hterminated)⟩
  cases pc <;> exact hlaw

/-- A position before `stop()`. -/
theorem not_terminates (hpc : s.pc.terminates = false) {pc : YagnaPc} :
    s.pc.terminates = true → pc.terminates = true := by
  simp [hpc]

/-- The head of the loop. -/
theorem Sound.poll (h : Sound s) (hterminates : s.pc.terminates = false)
    (hprocess : s.yagnaProcess ≠ none) (htask : s.earlyExitTask = none) {deadline count : Nat}
    (hrounds : StartRounds deadline count s.now) :
    Sound { s with pc := poll s.now deadline count } := by
  unfold Yagna.poll
  split
  · exact h.next ⟨hprocess, htask, hrounds.next ‹_›⟩ (not_terminates hterminates)
  · exact h.next (fun he => by cases he) (not_terminates hterminates)

/-- The application key is looked for. -/
theorem sound_getOrCreateYagnaAppkey (hwatched : s.Watched)
    (hexternal : s.external = true → s.yagnaProcess = none)
    (htask : ∀ t p, s.earlyExitTask = some t → s.yagnaProcess = some p → TaskLaw t p)
    (hrunning : ∀ p, s.yagnaProcess = some p → p.terminated = false) :
    Sound (getOrCreateYagnaAppkey settings s) := by
  have htold : ∀ p, s.yagnaProcess = some p → p.terminated = true → False := by
    intro p hp hterminated
    simp [hrunning p hp] at hterminated
  have hlisting : Sound { s with pc := .listing } :=
    ⟨hwatched, hexternal, htask, fun p hp hterminated => (htold p hp hterminated).elim⟩
  unfold Yagna.getOrCreateYagnaAppkey
  split
  · split
    · exact hlisting
    · exact ⟨⟨hwatched, by simp⟩, hexternal, htask, fun p hp ht => (htold p hp ht).elim⟩
  · exact hlisting

theorem Sound.running (h : Sound s) (hterminates : s.pc.terminates = false) {p : YagnaProcess}
    (hp : s.yagnaProcess = some p) : p.terminated = false := by
  by_contra hnot
  have := h.told p hp (by simpa using hnot)
  simp [hterminates] at this

theorem Sound.checked (h : Sound s) {running : Bool}
    (hstep : s.checked settings running = some s') : Sound s' := by
  have hlaw := h.position
  unfold Yagna.checked at hstep
  split at hstep
  case h_1 hpc =>
    rw [hpc] at hlaw
    obtain ⟨hprocess, htask, hexternal⟩ := hlaw
    cases running with
    | true =>
        obtain rfl := Option.some.inj hstep
        apply sound_getOrCreateYagnaAppkey
        · exact ⟨fun _ => rfl, by simp [hprocess]⟩
        · exact fun _ => hprocess
        · exact h.task
        · simp [hprocess]
    | false =>
        obtain rfl := Option.some.inj hstep
        exact h.next ⟨hprocess, htask, hexternal⟩ (not_terminates (by rw [hpc]; rfl))
  case h_2 deadline count hpc =>
    rw [hpc] at hlaw
    obtain ⟨hprocess, htask, hrounds⟩ := hlaw
    have hterminates : s.pc.terminates = false := by rw [hpc]; rfl
    cases running with
    | true =>
        obtain rfl := Option.some.inj hstep
        apply sound_getOrCreateYagnaAppkey
        · exact ⟨fun hnone => absurd hnone hprocess, fun p _ => ⟨{}, rfl, rfl⟩⟩
        · exact h.external
        · intro t p ht hp
          obtain rfl := Option.some.inj ht
          exact ⟨nofun, by simp [h.running hterminates hp], nofun⟩
        · exact fun p hp => h.running hterminates hp
    | false =>
        obtain rfl := Option.some.inj hstep
        exact h.poll hterminates hprocess htask hrounds
  case h_3 => cases hstep

theorem Sound.spawned (h : Sound s) (hstep : s.spawned = some s') : Sound s' := by
  have hlaw := h.position
  obtain ⟨hpc, heq⟩ := Option.ite_none_right_eq_some.mp hstep
  obtain rfl := Option.some.inj heq
  rw [hpc] at hlaw
  obtain ⟨-, htask, hexternal⟩ := hlaw
  have hrounds : StartRounds (s.now + yagnaStartTimeout) 0 s.now := rounds_zero (by decide) _ _
  unfold Yagna.poll
  split
  · refine ⟨⟨by simp, htask, hrounds.next ‹_›⟩, by simp [hexternal], by simp [htask], ?_⟩
    rintro p hp
    obtain rfl := Option.some.inj hp
    simp
  · refine ⟨nofun, by simp [hexternal], by simp [htask], ?_⟩
    rintro p hp
    obtain rfl := Option.some.inj hp
    simp

theorem Sound.communicated (h : Sound s) (hstep : s.communicated = some s') : Sound s' := by
  unfold Yagna.communicated at hstep
  split at hstep
  case h_1 hpc =>
    obtain ⟨hended, heq⟩ := Option.ite_none_right_eq_some.mp hstep
    obtain rfl := Option.some.inj heq
    refine h.next (fun _ => ?_) (not_terminates (by rw [hpc]; rfl))
    simpa [Option.any_eq_true] using hended
  case h_2 => cases hstep

theorem Sound.timedOut (h : Sound s) (hstep : s.timedOut = some s') : Sound s' := by
  have hlaw := h.position
  unfold Yagna.timedOut at hstep
  split at hstep
  case h_1 deadline count wake hpc =>
    obtain ⟨hwake, heq⟩ := Option.ite_none_right_eq_some.mp hstep
    obtain rfl := Option.some.inj heq
    rw [hpc] at hlaw
    exact h.next ⟨hlaw.1, hlaw.2.1, hlaw.2.2.later hwake⟩ (not_terminates (by rw [hpc]; rfl))
  case h_2 => cases hstep

/-- The service has its application key. -/
theorem Sound.serving (h : Sound s) (hterminates : s.pc.terminates = false) (hwatched : s.Watched)
    (key : String) : Sound { s with pc := .serving, yagnaAppkey := some key } :=
  ⟨⟨hwatched, by simp⟩, h.external, h.task, fun p hp hterminated => by
    simp [h.running hterminates hp] at hterminated⟩

theorem Sound.listed (h : Sound s) {apps : List YagnaApp}
    (hstep : s.listed settings apps = some s') : Sound s' := by
  have hlaw := h.position
  obtain ⟨hpc, heq⟩ := Option.ite_none_right_eq_some.mp hstep
  have hterminates : s.pc.terminates = false := by rw [hpc]; rfl
  rw [hpc] at hlaw
  split at heq <;> obtain rfl := Option.some.inj heq
  · exact h.serving hterminates hlaw _
  · exact h.next hlaw (not_terminates hterminates)

theorem Sound.created (h : Sound s) {key : String} (hstep : s.created key = some s') :
    Sound s' := by
  have hlaw := h.position
  obtain ⟨hpc, heq⟩ := Option.ite_none_right_eq_some.mp hstep
  obtain rfl := Option.some.inj heq
  rw [hpc] at hlaw
  exact h.serving (by rw [hpc]; rfl) hlaw key

theorem Sound.raised (h : Sound s) (hstep : s.raised = some s') : Sound s' := by
  unfold Yagna.raised at hstep
  split at hstep
  case h_7 => cases hstep
  all_goals
    obtain rfl := Option.some.inj hstep
    exact h.next (fun he => by cases he) (not_terminates (by simp [*, YagnaPc.terminates]))

/-! ### The service stops -/

theorem Sound.stop (h : Sound s) (hstep : s.stop = some s') : Sound s' := by
  have hlaw := h.position
  obtain ⟨hpc, heq⟩ := Option.ite_none_right_eq_some.mp hstep
  have hterminates : s.pc.terminates = false := by rw [hpc]; rfl
  rw [hpc] at hlaw
  obtain ⟨⟨-, hwatched⟩, -⟩ := hlaw
  split at heq
  case isTrue hended =>
    obtain rfl := Option.some.inj heq
    refine h.next (fun p hp => ?_) (not_terminates hterminates)
    simpa [hp] using hended
  case isFalse hrunning =>
    obtain ⟨p, hp⟩ : ∃ p, s.yagnaProcess = some p := by
      cases hp : s.yagnaProcess with
      | none => simp [hp] at hrunning
      | some p => exact ⟨p, rfl⟩
    obtain ⟨t, ht, -⟩ := hwatched p hp
    rw [ht] at heq
    obtain rfl := Option.some.inj heq
    refine ⟨⟨by simp [hp], _, rfl, ?_⟩, h.external, ?_, ?_⟩
    · cases t.pc.over <;> simp
    · intro u q hu hq
      obtain rfl := Option.some.inj hu
      have htask := h.task t q ht hq
      exact ⟨htask.warned, htask.terminated, fun hc => by simp [htask.cancelled hc]⟩
    · intro q hq hterminated
      simp [h.running hterminates hq] at hterminated

theorem Sound.terminate (h : Sound s) (hstep : s.terminate = some s') : Sound s' := by
  have hlaw := h.position
  obtain ⟨⟨hpc, hover⟩, heq⟩ := Option.ite_none_right_eq_some.mp hstep
  have hterminates : s.pc.terminates = false := by rw [hpc]; rfl
  rw [hpc] at hlaw
  obtain ⟨hprocess, t, ht, -⟩ := hlaw
  split at heq
  case h_1 p hp =>
    split at heq
    case isTrue hclosed =>
      obtain rfl := Option.some.inj heq
      exact h.next ⟨p, hp, hclosed, h.running hterminates hp⟩ (not_terminates hterminates)
    case isFalse =>
      obtain rfl := Option.some.inj heq
      have hrunning := h.running hterminates hp
      refine ⟨⟨_, rfl, ?_⟩, fun hexternal => ?_, ?_, fun _ _ _ => rfl⟩
      · by_cases halive : p.phase = .alive
        · exact .inl (by simp [halive])
        · exact .inr halive
      · simp [h.external hexternal] at hp
      · intro u q hu hq
        obtain rfl := Option.some.inj hq
        have hu : s.earlyExitTask = some u := hu
        have htask := h.task u p hu hp
        refine ⟨fun hwarned => ?_, fun _ => by simpa [hu] using hover, htask.cancelled⟩
        obtain ⟨hended, -⟩ := htask.warned hwarned
        refine ⟨hended, ?_⟩
        have halive : p.phase ≠ .alive := by
          intro halive
          simp [YagnaProcess.ended, halive] at hended
        simp [hrunning, halive]
  case h_2 hnone => exact absurd hnone hprocess

theorem Sound.waited (h : Sound s) {cancelled : Bool} (hstep : s.waited cancelled = some s') :
    Sound s' := by
  have hlaw := h.position
  obtain ⟨hpc, heq⟩ := Option.ite_none_right_eq_some.mp hstep
  rw [hpc] at hlaw
  split at heq
  case isTrue =>
    obtain rfl := Option.some.inj heq
    exact h.next hlaw fun _ => rfl
  case isFalse =>
    obtain ⟨hended, heq⟩ := Option.ite_none_right_eq_some.mp heq
    obtain rfl := Option.some.inj heq
    exact h.next (fun p hp => by simpa [hp] using hended) fun _ => rfl

/-! ### The daemon and its task go on -/

/-- What lasts when the daemon goes on. -/
structure Later (p q : YagnaProcess) : Prop where
  terminated : q.terminated = p.terminated
  ended : p.ended = true → q.ended = true
  gone : p.phase ≠ .alive → q.phase ≠ .alive
  closed : p.phase = .closed → q.phase = .closed

theorem Told.later {p q : YagnaProcess} (h : Told p) (hlater : Later p q) : Told q :=
  h.imp (fun hterminated => by rw [hlater.terminated, hterminated]) hlater.gone

theorem Sound.later (h : Sound s) {p q : YagnaProcess} (hp : s.yagnaProcess = some p)
    (hlater : Later p q) : Sound { s with yagnaProcess := some q } := by
  have hlaw := h.position
  refine ⟨?_, fun hexternal => ?_, fun t r ht hr => ?_, fun r hr hterminated => ?_⟩
  · show PcLaw _ s.pc
    cases hpc : s.pc <;> rw [hpc] at hlaw
    case starting => simp [hlaw.1] at hp
    case spawning => simp [hlaw.1] at hp
    case communicating => exact ⟨by simp, hlaw.2⟩
    case checking => exact ⟨by simp, hlaw.2⟩
    case listing => exact ⟨by simp, fun _ _ => hlaw.2 p hp⟩
    case creating => exact ⟨by simp, fun _ _ => hlaw.2 p hp⟩
    case serving => exact ⟨⟨by simp, fun _ _ => hlaw.1.2 p hp⟩, hlaw.2⟩
    case cancelling => exact ⟨by simp, hlaw.2⟩
    case waiting =>
      obtain ⟨r, hr, htold⟩ := hlaw
      obtain rfl := Option.some.inj (hp.symm.trans hr)
      exact ⟨q, rfl, htold.later hlater⟩
    case stopped =>
      intro r hr
      obtain rfl := Option.some.inj hr
      exact hlater.ended (hlaw p hp)
    case startRaised =>
      intro he
      obtain ⟨r, hr, hended⟩ := hlaw he
      obtain rfl := Option.some.inj (hp.symm.trans hr)
      exact ⟨q, rfl, hlater.ended hended⟩
    case stopRaised e =>
      cases e with
      | attributeError => exact hlaw
      | processLookupError =>
          obtain ⟨r, hr, hclosed, hterminated⟩ := hlaw
          obtain rfl := Option.some.inj (hp.symm.trans hr)
          exact ⟨q, rfl, hlater.closed hclosed, hlater.terminated.trans hterminated⟩
      | cancelledError =>
          obtain ⟨r, hr, htold⟩ := hlaw
          obtain rfl := Option.some.inj (hp.symm.trans hr)
          exact ⟨q, rfl, htold.later hlater⟩
  · simp [h.external hexternal] at hp
  · obtain rfl := Option.some.inj hr
    have htask := h.task t p ht hp
    refine ⟨fun hwarned => ?_, fun hterminated => htask.terminated ?_, htask.cancelled⟩
    · obtain ⟨hended, hterminated⟩ := htask.warned hwarned
      exact ⟨hlater.ended hended, hlater.terminated.trans hterminated⟩
    · exact hlater.terminated ▸ hterminated
  · obtain rfl := Option.some.inj hr
    exact h.told p hp (hlater.terminated ▸ hterminated)

theorem Sound.processEnds (h : Sound s) (hstep : s.processEnds = some s') : Sound s' := by
  obtain ⟨p, hp, heq⟩ := Option.bind_eq_some_iff.mp hstep
  split at heq
  case h_4 => cases heq
  all_goals
    rename_i hphase
    obtain rfl := Option.some.inj heq
    refine h.later hp ⟨rfl, ?_, ?_, ?_⟩ <;> simp [YagnaProcess.ended, hphase]

/-- The task goes on. -/
theorem Sound.taskGoes (h : Sound s) {t u : EarlyExitTask} (ht : s.earlyExitTask = some t)
    (hcancelled : u.cancelled = t.cancelled) (hover : t.pc.over = true → u.pc.over = true)
    (hlaw : ∀ p, s.yagnaProcess = some p → TaskLaw t p → TaskLaw u p) :
    Sound { s with earlyExitTask := some u } := by
  have hposition := h.position
  refine ⟨?_, h.external, fun v p hv hp => ?_, h.told⟩
  · show PcLaw _ s.pc
    cases hpc : s.pc <;> rw [hpc] at hposition
    case starting => simp [hposition.2.1] at ht
    case spawning => simp [hposition.2.1] at ht
    case communicating => simp [hposition.2.1] at ht
    case checking => simp [hposition.2.1] at ht
    case listing | creating =>
      refine ⟨hposition.1, fun p hp => ?_⟩
      obtain ⟨v, hv, hnot⟩ := hposition.2 p hp
      obtain rfl := Option.some.inj (ht.symm.trans hv)
      exact ⟨u, rfl, hcancelled.trans hnot⟩
    case serving =>
      refine ⟨⟨hposition.1.1, fun p hp => ?_⟩, hposition.2⟩
      obtain ⟨v, hv, hnot⟩ := hposition.1.2 p hp
      obtain rfl := Option.some.inj (ht.symm.trans hv)
      exact ⟨u, rfl, hcancelled.trans hnot⟩
    case cancelling =>
      obtain ⟨hprocess, v, hv, hv'⟩ := hposition
      obtain rfl := Option.some.inj (ht.symm.trans hv)
      exact ⟨hprocess, u, rfl, hv'.imp hover hcancelled.trans⟩
    case stopRaised e => cases e <;> exact hposition
    all_goals exact hposition
  · obtain rfl := Option.some.inj hv
    exact hlaw p hp (h.task t p ht hp)

theorem Sound.communicate (h : Sound s) (hstep : s.communicate = some s') : Sound s' := by
  obtain ⟨t, ht, heq⟩ := Option.bind_eq_some_iff.mp hstep
  obtain ⟨⟨hpc, -⟩, heq⟩ := Option.ite_none_right_eq_some.mp heq
  obtain rfl := Option.some.inj heq
  refine h.taskGoes ht rfl (by simp [hpc, EarlyExitPc.over]) fun p _ hlaw =>
    ⟨nofun, fun hp => ?_, nofun⟩
  have hover := hlaw.terminated hp
  simp [hpc, EarlyExitPc.over] at hover

theorem Sound.warn (h : Sound s) (hstep : s.warn = some s') : Sound s' := by
  obtain ⟨t, ht, heq⟩ := Option.bind_eq_some_iff.mp hstep
  obtain ⟨⟨hpc, -, hended⟩, heq⟩ := Option.ite_none_right_eq_some.mp heq
  obtain rfl := Option.some.inj heq
  refine h.taskGoes ht rfl (fun _ => rfl) fun p hp hlaw => ⟨fun _ => ?_, fun _ => rfl, nofun⟩
  refine ⟨by simpa [hp] using hended, ?_⟩
  by_contra hnot
  have hover := hlaw.terminated (by simpa using hnot)
  simp [hpc, EarlyExitPc.over] at hover

theorem Sound.cancelDelivered (h : Sound s) (hstep : s.cancelDelivered = some s') : Sound s' := by
  obtain ⟨t, ht, heq⟩ := Option.bind_eq_some_iff.mp hstep
  obtain ⟨⟨hcancelled, -⟩, heq⟩ := Option.ite_none_right_eq_some.mp heq
  obtain rfl := Option.some.inj heq
  exact h.taskGoes ht rfl (fun _ => rfl) fun p _ _ => ⟨nofun, fun _ => rfl, fun _ => hcancelled⟩

/-- Time passes. -/
theorem Sound.tick (h : Sound s) (seconds : Nat) : Sound { s with now := s.now + seconds } := by
  have hlaw := h.position
  refine ⟨?_, h.external, h.task, h.told⟩
  show PcLaw _ s.pc
  cases hpc : s.pc <;> rw [hpc] at hlaw
  case checking => exact ⟨hlaw.1, hlaw.2.1, hlaw.2.2.later (Nat.le_add_right _ _)⟩
  case stopRaised e => cases e <;> exact hlaw
  all_goals exact hlaw

/-- Every step keeps it. -/
theorem Sound.step (h : Sound s) (hstep : s.step settings a = some s') : Sound s' := by
  cases a with
  | checked running => exact h.checked hstep
  | spawned => exact h.spawned hstep
  | communicated => exact h.communicated hstep
  | timedOut => exact h.timedOut hstep
  | listed apps => exact h.listed hstep
  | created key => exact h.created hstep
  | raised => exact h.raised hstep
  | stop => exact h.stop hstep
  | terminate => exact h.terminate hstep
  | waited cancelled => exact h.waited hstep
  | processEnds => exact h.processEnds hstep
  | communicate => exact h.communicate hstep
  | warn => exact h.warn hstep
  | cancelDelivered => exact h.cancelDelivered hstep
  | tick seconds =>
      obtain rfl := Option.some.inj hstep
      exact h.tick seconds

theorem sound_of_reach (h : Reachable Initial (step settings) s) : Sound s :=
  h.invariant (fun _ hinit => sound_initial hinit) fun _ _ _ hsound _ hstep => hsound.step hstep

/-! ### What a maintainer relies on -/

/-- The life of the service and of its daemon. -/
structure Accounted (settings : YagnaSettings) (s : Yagna) : Prop where
  /-- A yagna that was there is left alone. -/
  external : s.external = true → s.yagnaProcess = none
  /-- The other services find the application key. -/
  served : s.pc = .serving → s.yagnaAppkey ≠ none
  /-- Nothing but `stop()` ends the daemon. -/
  told : ∀ p, s.yagnaProcess = some p → p.terminated = true → s.pc.terminates = true
  /-- A warning is true. -/
  warned : ∀ t p, s.earlyExitTask = some t → s.yagnaProcess = some p → t.pc = .warned →
    p.ended = true ∧ p.terminated = false
  /-- While the web server serves, the end of the daemon is warned of. -/
  reported : s.pc = .serving → ∀ p, s.yagnaProcess = some p → p.ended = true →
    ∃ t, s.earlyExitTask = some t ∧
      (t.pc = .warned ∨ ∃ a ∈ [Act.communicate, Act.warn], (s.step settings a).isSome)
  /-- A `stop()` does not wait for its task in vain. -/
  continues : s.pc = .cancelling →
    ∃ a ∈ [Act.terminate, Act.cancelDelivered], (s.step settings a).isSome
  /-- After `stop()` the daemon has ended. -/
  stopped : s.pc = .stopped → ∀ p, s.yagnaProcess = some p → p.ended = true
  /-- Why `stop()` raises. -/
  raised : ∀ e, s.pc = .stopRaised e → ∃ p, s.yagnaProcess = some p ∧
    ((e = .processLookupError ∧ p.phase = .closed ∧ p.terminated = false) ∨
      (e = .cancelledError ∧ (p.terminated = true ∨ p.phase ≠ .alive)))
  /-- When a daemon is left running. -/
  left : s.pc.over = true → ∀ p, s.yagnaProcess = some p → p.phase = .alive →
    (p.terminated = false ↔ ∃ e, s.pc = .startRaised e)
  /-- The loop ends. -/
  rounds : ∀ count, s.pc.rounds = some count → count ≤ 60

theorem Sound.reported (h : Sound s) (hpc : s.pc = .serving) {p : YagnaProcess}
    (hp : s.yagnaProcess = some p) (hended : p.ended = true) :
    ∃ t, s.earlyExitTask = some t ∧
      (t.pc = .warned ∨ ∃ a ∈ [Act.communicate, Act.warn], (s.step settings a).isSome) := by
  have hlaw := h.position
  rw [hpc] at hlaw
  obtain ⟨t, ht, hcancelled⟩ := hlaw.1.2 p hp
  refine ⟨t, ht, ?_⟩
  cases htask : t.pc with
  | scheduled =>
      exact .inr ⟨.communicate, by simp [Yagna.step, Yagna.communicate, ht, htask, hcancelled]⟩
  | communicating =>
      exact .inr ⟨.warn, by simp [Yagna.step, Yagna.warn, ht, htask, hcancelled, hp, hended]⟩
  | warned => exact .inl rfl
  | cancelled =>
      have hcancel := (h.task t p ht hp).cancelled htask
      simp [hcancelled] at hcancel

theorem Sound.continues (h : Sound s) (hpc : s.pc = .cancelling) :
    ∃ a ∈ [Act.terminate, Act.cancelDelivered], (s.step settings a).isSome := by
  have hlaw := h.position
  rw [hpc] at hlaw
  obtain ⟨hprocess, t, ht, hdone⟩ := hlaw
  obtain ⟨p, hp⟩ := Option.ne_none_iff_exists'.mp hprocess
  cases hover : t.pc.over with
  | true =>
      refine ⟨.terminate, by simp, ?_⟩
      by_cases hclosed : p.phase = .closed <;>
        simp [Yagna.step, Yagna.terminate, hpc, ht, hover, hp, hclosed]
  | false =>
      have hcancelled : t.cancelled = true := hdone.resolve_left (by simp [hover])
      exact ⟨.cancelDelivered, by simp [Yagna.step, Yagna.cancelDelivered, ht, hover, hcancelled]⟩

theorem Sound.left (h : Sound s) (hover : s.pc.over = true) {p : YagnaProcess}
    (hp : s.yagnaProcess = some p) (halive : p.phase = .alive) :
    p.terminated = false ↔ ∃ e, s.pc = .startRaised e := by
  have hlaw := h.position
  constructor
  · intro hterminated
    cases hpc : s.pc <;> rw [hpc] at hlaw hover
    case stopped =>
      have hended := hlaw p hp
      simp [YagnaProcess.ended, halive] at hended
    case startRaised e => exact ⟨e, rfl⟩
    case stopRaised e =>
      cases e with
      | attributeError => exact hlaw.elim
      | processLookupError =>
          obtain ⟨q, hq, hclosed, -⟩ := hlaw
          obtain rfl := Option.some.inj (hp.symm.trans hq)
          simp [halive] at hclosed
      | cancelledError =>
          obtain ⟨q, hq, htold⟩ := hlaw
          obtain rfl := Option.some.inj (hp.symm.trans hq)
          simp [Told, halive, hterminated] at htold
    all_goals cases hover
  · intro hraised
    obtain ⟨e, hpc⟩ := hraised
    exact h.running (by rw [hpc]; rfl) hp

theorem Sound.rounds (h : Sound s) {count : Nat} (hcount : s.pc.rounds = some count) :
    count ≤ 60 := by
  have hlaw := h.position
  cases hpc : s.pc <;> rw [hpc] at hlaw hcount
  case communicating | checking =>
    obtain rfl := Option.some.inj hcount
    exact hlaw.2.2.le (by decide)
  all_goals cases hcount

theorem Sound.raises (h : Sound s) {e : YagnaStopError} (hpc : s.pc = .stopRaised e) :
    ∃ p, s.yagnaProcess = some p ∧
      ((e = .processLookupError ∧ p.phase = .closed ∧ p.terminated = false) ∨
        (e = .cancelledError ∧ (p.terminated = true ∨ p.phase ≠ .alive))) := by
  have hlaw := h.position
  rw [hpc] at hlaw
  cases e with
  | attributeError => exact hlaw.elim
  | processLookupError =>
      obtain ⟨p, hp, hclosed, hterminated⟩ := hlaw
      exact ⟨p, hp, .inl ⟨rfl, hclosed, hterminated⟩⟩
  | cancelledError =>
      obtain ⟨p, hp, htold⟩ := hlaw
      exact ⟨p, hp, .inr ⟨rfl, htold⟩⟩

/-- **The daemon is accounted for**, whatever happens to the service and to the daemon. -/
theorem process_accounted (settings : YagnaSettings) {s : Yagna}
    (h : Reachable Initial (step settings) s) : Accounted settings s := by
  have hsound := sound_of_reach h
  have hlaw := hsound.position
  refine ⟨hsound.external, fun hpc => ?_, hsound.told,
    fun t p ht hp => (hsound.task t p ht hp).warned, fun hpc p => hsound.reported hpc,
    hsound.continues, fun hpc => ?_, fun e => hsound.raises, fun hover p => hsound.left hover,
    fun count => hsound.rounds⟩
  · rw [hpc] at hlaw
    exact hlaw.2
  · rw [hpc] at hlaw
    exact hlaw

/-- A life: yagna is made and there after two rounds, ends while the web server serves and is
warned of, and nothing is left for `stop()` to do. -/
def endsEarly : List Act :=
  [.checked false, .spawned, .tick 2, .timedOut, .checked false, .tick 3, .timedOut, .checked true,
    .listed [], .created "key", .communicate, .processEnds, .processEnds, .warn, .stop]

theorem process_accounted_endsEarly :
    Accounted {}
      { pc := .stopped
        now := 5
        yagnaAppkey := some "key"
        yagnaProcess := some { phase := .returned }
        earlyExitTask := some { pc := .warned } } :=
  process_accounted {} (Reach.exec endsEarly (s := {}) (.start ⟨0, rfl⟩) rfl)

end Yagna
