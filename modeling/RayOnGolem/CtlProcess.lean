import RayOnGolem.Ctl

/-!
# Which processes `stop` kills

`get_process_info` compares the time of the pid file with the time at which the process was
created, so that a number that was given away again is not taken for the web server.  `Moves`
lists what a step of a command asks of the file and the processes, and `Sound` says what the
file and the commands know of them.

Main results:

* `kills_only_webservers` -- whatever commands of one data directory run beside each other, as
  long as none writes the pid file while another one is in `get_process_info` or has the file
  open for writing, every process that is killed was made by `start_webserver`;
* `kills_other_process`, `kills_mixed_process` -- neither part of the condition can be left
  out.
-/

open ProcessTable

namespace CtlPc

/-- The process that the command may kill. -/
def target : CtlPc → Option Handle
  | .confirmKill process | .kill process => some process
  | _ => none

/-- Nothing about processes is known at this position. -/
def Inert (pc : CtlPc) : Prop := pc.child = none ∧ pc.inInfo = false ∧ pc.target = none

/-- A command that has the pid file open for writing has made a process. -/
theorem inSave_of_child {pc : CtlPc} (h : pc.child = none) : pc.inSave = false := by
  cases pc <;> first | rfl | cases h

/-- A command that may kill a process has made none. -/
theorem child_of_target {pc : CtlPc} {process : Handle} (h : pc.target = some process) :
    pc.child = none := by
  cases pc <;> first | rfl | cases h

end CtlPc

/-- The effect changes the pid file, other than by removing it. -/
def CtlEffect.writes : CtlEffect → Bool
  | .truncate | .write _ _ => true
  | _ => false

namespace CtlSession

/-- What a step of a command asks of the file and the processes. -/
inductive Moves (s : CtlSession) (v : CtlView) : CtlEffect → CtlPc → Prop
  | idles (pc : CtlPc) (hinert : pc.Inert) : Moves s v .none pc
  | tends (c : Popened) (pc : CtlPc) (hchild : s.pc.child = some c) (hpc : pc.child = some c)
      (hsave : pc.inSave = false) (hinfo : pc.inInfo = false) (htarget : pc.target = none) :
      Moves s v .none pc
  | reads (caller : InfoCaller) (pid : Nat) (f : PidFile) (hfile : v.pidfile = some f)
      (hcontent : f.content = some pid) : Moves s v .none (.openProcess caller pid)
  | opens (caller : InfoCaller) (pid : Nat) (process : Handle)
      (hpc : s.pc = .openProcess caller pid) (hfind : v.find pid = some process) :
      Moves s v .none (.statPid caller process)
  | finds (caller : InfoCaller) (process : Handle) (f : PidFile) (pc : CtlPc)
      (hpc : s.pc = .statPid caller process) (hfile : v.pidfile = some f)
      (htime : process.created ≤ f.mtime)
      (hto : pc = .confirmKill process ∨ pc = .kill process) : Moves s v .none pc
  | agrees (process : Handle) (hpc : s.pc = .confirmKill process) :
      Moves s v .none (.kill process)
  | spawns (pid : Nat) (args : List String) :
      Moves s v (.spawn pid args) (.truncatePid ⟨v.entries, pid⟩)
  | truncates (c : Popened) (inode : Nat) (hpc : s.pc = .truncatePid c) :
      Moves s v .truncate (.writePid c inode)
  | writes (c : Popened) (inode deadline : Nat) (hpc : s.pc = .writePid c inode) :
      Moves s v (.write inode c.pid) (.startPoll c deadline 0)
  | unlinks (pc : CtlPc) (hinert : pc.Inert) : Moves s v .unlink pc
  | waits (c : Popened) (hchild : s.pc.child = some c) (e : CtlEnd) :
      Moves s v (.wait c.entry) (.ended e)
  | kills (process : Handle) (hpc : s.pc = .kill process) :
      Moves s v (.kill process) .clearKilled

variable {s s' : CtlSession} {v : CtlView} {effect : CtlEffect}

theorem inert_afterWait (c : CtlCommand) : c.afterWait.Inert := by
  cases c <;> exact ⟨rfl, rfl, rfl⟩

theorem inert_afterTimeout (c : CtlCommand) : c.afterTimeout.Inert := by
  cases c <;> exact ⟨rfl, rfl, rfl⟩

theorem moves_notFound (caller : InfoCaller) : Moves s v .none (s.notFound caller).pc := by
  cases caller with
  | poll deadline count =>
      refine .idles _ ?_
      simp only [notFound, next]
      split
      · exact inert_afterWait _
      · exact ⟨rfl, rfl, rfl⟩
  | final => exact .idles _ ⟨rfl, rfl, rfl⟩

theorem moves_go (h : s.go v = some (effect, s')) : Moves s v effect s'.pc := by
  unfold go at h
  split at h
  case h_1 c hpc =>
      cases h
      exact .truncates c _ hpc
  case h_2 c inode hpc =>
      cases h
      exact .writes c inode _ hpc
  case h_3 c deadline count hpc =>
      cases h
      split
      · exact .tends c _ (by rw [hpc]; rfl) rfl rfl rfl rfl
      · exact .idles _ ⟨rfl, rfl, rfl⟩
  case h_4 deadline count hpc =>
      cases h
      split
      · exact .idles _ ⟨rfl, rfl, rfl⟩
      · exact .idles _ (inert_afterTimeout _)
  case h_5 deadline count hpc =>
      cases h
      split
      · exact .idles _ ⟨rfl, rfl, rfl⟩
      · exact .idles _ (inert_afterTimeout _)
  case h_6 caller hpc =>
      split at h
      · rename_i pid hcontent
        cases h
        obtain ⟨f, hfile, hpid⟩ := Option.bind_eq_some_iff.mp hcontent
        exact .reads caller pid f hfile hpid
      · cases h
        exact moves_notFound caller
  case h_7 caller pid hpc =>
      split at h
      · rename_i process hfind
        cases h
        exact .opens caller pid process hpc hfind
      · cases h
        exact moves_notFound caller
  case h_8 caller process hpc =>
      split at h
      · rename_i f hfile
        cases h
        split
        · rename_i htime
          cases caller with
          | poll deadline count => exact .idles _ ⟨rfl, rfl, rfl⟩
          | final =>
              refine .finds .final process f _ hpc hfile htime ?_
              simp only [found, next]
              split
              · exact .inr rfl
              · exact .inl rfl
        · exact moves_notFound caller
      · cases h
        exact moves_notFound caller
  case h_9 hpc =>
      cases h
      exact .unlinks _ (inert_afterWait _)
  case h_10 process hpc =>
      cases h
      exact .kills process hpc
  case h_11 hpc =>
      cases h
      exact .unlinks _ ⟨rfl, rfl, rfl⟩
  case h_12 => cases h

theorem moves_serviceable {answer : Option Bool} (h : s.serviceable v answer = some s') :
    Moves s v .none s'.pc := by
  unfold serviceable at h
  split at h
  case h_1 c deadline count hpc =>
      cases h
      simp only [next]
      split
      · exact .idles _ ⟨rfl, rfl, rfl⟩
      · exact .tends c _ (by rw [hpc]; rfl) rfl rfl rfl rfl
  case h_2 force hpc =>
      cases h
      simp only [next]
      split <;> exact .idles _ ⟨rfl, rfl, rfl⟩
  case h_5 => cases h
  all_goals
    cases h
    split <;> exact .idles _ ⟨rfl, rfl, rfl⟩

theorem moves_slept (h : s.slept v = some s') : Moves s v .none s'.pc := by
  unfold slept at h
  split at h
  case h_1 c deadline count wake hpc =>
      obtain ⟨-, heq⟩ := Option.ite_none_right_eq_some.mp h
      cases heq
      exact .tends c _ (by rw [hpc]; rfl) rfl rfl rfl rfl
  case h_4 => cases h
  all_goals
    obtain ⟨-, heq⟩ := Option.ite_none_right_eq_some.mp h
    cases heq
    exact .idles _ ⟨rfl, rfl, rfl⟩

theorem moves_confirm {yes : Bool} (h : s.confirm yes = some s') : Moves s v .none s'.pc := by
  unfold confirm at h
  split at h
  · cases h
    cases yes <;> exact .idles _ ⟨rfl, rfl, rfl⟩
  · cases h
    cases yes
    · exact .idles _ ⟨rfl, rfl, rfl⟩
    · exact .agrees _ ‹_›
  · cases h

/-- What a step asks is one of the listed moves. -/
theorem moves_step {a : CtlAct} (h : s.step v a = some (effect, s')) :
    Moves s v effect s'.pc := by
  cases a with
  | go => exact moves_go h
  | status shuttingDown =>
      simp only [step] at h
      split at h <;> cases h
      rcases shuttingDown with _ | _ | _ <;> exact .idles _ ⟨rfl, rfl, rfl⟩
  | serviceable answer =>
      obtain ⟨t, ht, heq⟩ := Option.map_eq_some_iff.mp h
      cases heq
      exact moves_serviceable ht
  | shutdown state =>
      simp only [step] at h
      split at h <;> cases h
      refine .idles _ ?_
      simp only [next]
      split
      · exact ⟨rfl, rfl, rfl⟩
      · split <;> exact ⟨rfl, rfl, rfl⟩
  | confirm yes =>
      obtain ⟨t, ht, heq⟩ := Option.map_eq_some_iff.mp h
      cases heq
      exact moves_confirm ht
  | spawned pid =>
      simp only [step] at h
      split at h <;> cases h
      exact .spawns pid _
  | exited =>
      simp only [step] at h
      split at h <;> cases h
      exact .waits _ (by rw [‹s.pc = _›]; rfl) _
  | slept =>
      obtain ⟨t, ht, heq⟩ := Option.map_eq_some_iff.mp h
      cases heq
      exact moves_slept ht
  | raised =>
      simp only [step] at h
      split at h <;> cases h
      exact .idles _ ⟨rfl, rfl, rfl⟩

/-- Only `go` writes the pid file. -/
theorem go_of_writes {a : CtlAct} (h : s.step v a = some (effect, s'))
    (hwrites : effect.writes = true) : a = .go := by
  cases a with
  | go => rfl
  | serviceable | confirm | slept =>
      obtain ⟨t, -, heq⟩ := Option.map_eq_some_iff.mp h
      cases heq
      cases hwrites
  | _ =>
      simp only [step] at h
      split at h <;> cases h
      cases hwrites

end CtlSession

namespace CtlWorld

open Runs

variable {w w' : CtlWorld} {T T' : Table Program} {o o' : Option PidFile} {s s' : CtlSession}

/-- A web server has the child's number. -/
def ChildSound (T : Table Program) (c : Popened) : Prop :=
  ∃ e, T.entries[c.entry]? = some e ∧ e.pid = c.pid ∧ e.program.isWebserver = true ∧
    e.freed = none

/-- The handle is that of a web server. -/
def TargetSound (T : Table Program) (process : Handle) : Prop :=
  ∃ (i : Nat) (e : Entry Program), T.entries[i]? = some e ∧ e.Named process ∧
    e.program.isWebserver = true

/-- The handle is that of a process which had the number in the file when it was written,
if it was created by then. -/
def InfoSound (T : Table Program) (o : Option PidFile) (process : Handle) : Prop :=
  ∃ (i : Nat) (e : Entry Program), T.entries[i]? = some e ∧ e.Named process ∧
    ∀ f, o = some f → f.content = some process.pid ∧
      (process.created ≤ f.mtime → e.Alive f.mtime)

/-- What a command knows at its position. -/
structure PcSound (T : Table Program) (o : Option PidFile) (pc : CtlPc) : Prop where
  child : ∀ c, pc.child = some c → ChildSound T c
  target : ∀ process, pc.target = some process → TargetSound T process
  save : ∀ c inode, pc = .writePid c inode → ∀ f, o = some f → f.text = []
  opens : ∀ caller pid, pc = .openProcess caller pid → ∀ f, o = some f → f.content = some pid
  stat : ∀ caller process, pc = .statPid caller process → InfoSound T o process

/-- The pid file, the commands and the killed processes. -/
structure Sound (w : CtlWorld) : Prop where
  wf : w.processes.Wf
  mtime : ∀ f, w.pidfile = some f → f.mtime ≤ w.processes.now
  file : ∀ f pid, w.pidfile = some f → f.content = some pid →
    ∃ (i : Nat) (e : Entry Program), w.processes.entries[i]? = some e ∧ e.pid = pid ∧
      e.program.isWebserver = true ∧ e.Alive f.mtime
  sessions : ∀ (i : Nat) (s : CtlSession), w.sessions[i]? = some s →
    PcSound w.processes w.pidfile s.pc
  parents : ∀ (i j : Nat) (s t : CtlSession) (c d : Popened), w.sessions[i]? = some s →
    w.sessions[j]? = some t → s.pc.child = some c → t.pc.child = some d → c.entry = d.entry →
    i = j
  saves : ∀ (i j : Nat) (s t : CtlSession), w.sessions[i]? = some s → w.sessions[j]? = some t →
    s.pc.inSave = true → t.pc.inSave = true → i = j
  killed : ∀ i ∈ w.killed, ∃ e, w.processes.entries[i]? = some e ∧
    e.program.isWebserver = true

theorem pcSound_inert {pc : CtlPc} (h : pc.Inert) : PcSound T o pc := by
  obtain ⟨hchild, hinfo, htarget⟩ := h
  refine ⟨fun c hc => ?_, fun process ht => ?_, ?_, ?_, ?_⟩
  · simp [hchild] at hc
  · simp [htarget] at ht
  · rintro c inode rfl
    cases hchild
  · rintro caller pid rfl
    cases hinfo
  · rintro caller process rfl
    cases hinfo

/-- A command that tends a web server. -/
theorem pcSound_tends {pc : CtlPc} {c : Popened} (hpc : pc.child = some c)
    (hsave : pc.inSave = false) (hinfo : pc.inInfo = false) (htarget : pc.target = none)
    (h : ChildSound T c) : PcSound T o pc := by
  refine ⟨fun d hd => ?_, fun process ht => ?_, ?_, ?_, ?_⟩
  · obtain rfl : c = d := Option.some.inj (hpc.symm.trans hd)
    exact h
  · simp [htarget] at ht
  · rintro d inode rfl
    cases hsave
  · rintro caller pid rfl
    cases hinfo
  · rintro caller process rfl
    cases hinfo

/-- A command that may kill a process. -/
theorem pcSound_target {pc : CtlPc} {process : Handle} (hpc : pc.target = some process)
    (h : TargetSound T process) : PcSound T o pc := by
  refine ⟨fun c hc => ?_, fun process' ht => ?_, ?_, ?_, ?_⟩
  · simp [CtlPc.child_of_target hpc] at hc
  · obtain rfl : process = process' := Option.some.inj (hpc.symm.trans ht)
    exact h
  · rintro c inode rfl
    cases hpc
  · rintro caller pid rfl
    cases hpc
  · rintro caller process' rfl
    cases hpc

/-- Other processes come and go. -/
theorem PcSound.later {pc : CtlPc} (h : PcSound T o pc) (hlater : Table.Later T T')
    (hmtime : ∀ f, o = some f → f.mtime ≤ T.now)
    (hchild : ∀ c, pc.child = some c → ChildSound T c → ChildSound T' c) : PcSound T' o pc := by
  refine ⟨fun c hc => hchild c hc (h.child c hc), fun process ht => ?_, h.save, h.opens, ?_⟩
  · obtain ⟨i, e, he, hnamed, hweb⟩ := h.target process ht
    obtain ⟨e', he', hpid, hcreated, hprogram, -⟩ := hlater.entries i e he
    exact ⟨i, e', he', ⟨hpid.trans hnamed.1, hcreated.trans hnamed.2⟩, hprogram ▸ hweb⟩
  · intro caller process hpc
    obtain ⟨i, e, he, hnamed, hfile⟩ := h.stat caller process hpc
    obtain ⟨e', he', hpid, hcreated, -, halive⟩ := hlater.entries i e he
    refine ⟨i, e', he', ⟨hpid.trans hnamed.1, hcreated.trans hnamed.2⟩, fun f hf => ?_⟩
    exact ⟨(hfile f hf).1, fun hle => halive _ (hmtime f hf) ((hfile f hf).2 hle)⟩

/-- The file changes while no one has it open or compares it, or is removed. -/
theorem PcSound.file {pc : CtlPc} (h : PcSound T o pc)
    (ho : (pc.inSave = false ∧ pc.inInfo = false) ∨ o' = none) : PcSound T o' pc := by
  refine ⟨h.child, h.target, ?_, ?_, ?_⟩
  · rintro c inode rfl f rfl
    simp [CtlPc.inSave] at ho
  · rintro caller pid rfl f rfl
    simp [CtlPc.inInfo] at ho
  · rintro caller process rfl
    obtain ⟨i, e, he, hnamed, -⟩ := h.stat caller process rfl
    refine ⟨i, e, he, hnamed, ?_⟩
    rintro f rfl
    simp [CtlPc.inInfo] at ho

/-! ### Other processes -/

theorem childSound_append {c : Popened} {e : Entry Program} (h : ChildSound T c)
    (hT : T' = { T with entries := T.entries ++ [e] }) : ChildSound T' c := by
  obtain ⟨f, hf, hrest⟩ := h
  subst hT
  exact ⟨f, Objects.append_old hf, hrest⟩

theorem childSound_free {c : Popened} {k : Nat} (h : ChildSound T c) (hfree : T.free k = some T')
    (hne : c.entry ≠ k) : ChildSound T' c := by
  obtain ⟨f, hf, hrest⟩ := h
  obtain ⟨e, -, -, rfl⟩ := Table.free_cases hfree
  exact ⟨f, Objects.set_old hne hf, hrest⟩

/-- The processes change, and no command or file. -/
theorem Sound.later (h : Sound w) (hwf : T'.Wf) (hlater : Table.Later w.processes T')
    (hchild : ∀ (i : Nat) (s : CtlSession) (c : Popened), w.sessions[i]? = some s →
      s.pc.child = some c → ChildSound w.processes c → ChildSound T' c) :
    Sound { w with processes := T' } := by
  refine ⟨hwf, fun f hf => Nat.le_trans (h.mtime f hf) hlater.now, ?_, ?_, h.parents, h.saves,
    ?_⟩
  · intro f pid hf hcontent
    obtain ⟨i, e, he, hpid, hweb, halive⟩ := h.file f pid hf hcontent
    obtain ⟨e', he', hpid', -, hprogram, halive'⟩ := hlater.entries i e he
    exact ⟨i, e', he', hpid'.trans hpid, hprogram ▸ hweb, halive' _ (h.mtime f hf) halive⟩
  · intro i s hs
    exact (h.sessions i s hs).later hlater h.mtime fun c hc => hchild i s c hs hc
  · intro i hi
    obtain ⟨e, he, hweb⟩ := h.killed i hi
    obtain ⟨e', he', -, -, hprogram, -⟩ := hlater.entries i e he
    exact ⟨e', he', hprogram ▸ hweb⟩

theorem Sound.tick (h : Sound w) (d : Nat) :
    Sound { w with processes := w.processes.tick d } :=
  h.later (h.wf.tick d) (Table.later_tick _ d) fun _ _ _ _ _ hc => hc

theorem Sound.spawn (h : Sound w) {pid : Nat} {program : Program}
    (hspawn : w.processes.spawn pid program = some T') : Sound { w with processes := T' } :=
  h.later (h.wf.spawn hspawn) (Table.later_spawn hspawn) fun _ _ _ _ _ hc =>
    childSound_append hc (Table.spawn_cases hspawn).1

/-- A process that no command may wait for is gone. -/
theorem Sound.free (h : Sound w) {k : Nat} (hfree : w.processes.free k = some T')
    (horphan : ∀ (i : Nat) (s : CtlSession) (c : Popened), w.sessions[i]? = some s →
      s.pc.child = some c → c.entry ≠ k) : Sound { w with processes := T' } :=
  h.later (h.wf.free hfree) (Table.later_free hfree) fun i s c hs hc hsound =>
    childSound_free hsound hfree (horphan i s c hs hc)

/-! ### The pid file and the commands -/

/-- The pid file changes. -/
theorem Sound.file_changes (h : Sound w) (inodes : Nat)
    (hmtime : ∀ f, o = some f → f.mtime ≤ w.processes.now)
    (hfile : ∀ f pid, o = some f → f.content = some pid →
      ∃ (i : Nat) (e : Entry Program), w.processes.entries[i]? = some e ∧ e.pid = pid ∧
        e.program.isWebserver = true ∧ e.Alive f.mtime)
    (hquiet : (∀ s ∈ w.sessions, s.pc.inSave = false ∧ s.pc.inInfo = false) ∨ o = none) :
    Sound { w with pidfile := o, inodes := inodes } := by
  refine ⟨h.wf, hmtime, hfile, fun i s hs => ?_, h.parents, h.saves, h.killed⟩
  refine (h.sessions i s hs).file ?_
  rcases hquiet with hall | hnone
  · exact .inl (hall s (List.mem_of_getElem? hs))
  · exact .inr hnone

theorem Sound.unlink (h : Sound w) : Sound { w with pidfile := none } :=
  h.file_changes w.inodes (by simp) (by simp) (.inr rfl)

/-- A command is at another position. -/
theorem Sound.session (h : Sound w) {i : Nat} (hs : w.sessions[i]? = some s)
    (hpc : PcSound w.processes w.pidfile s'.pc)
    (hparent : ∀ d, s'.pc.child = some d → s.pc.child = some d ∨
      ∀ (j : Nat) (t : CtlSession) (c : Popened), w.sessions[j]? = some t →
        t.pc.child = some c → c.entry ≠ d.entry)
    (hsave : s'.pc.inSave = true → ∀ t ∈ w.sessions, t.pc.inSave = false) :
    Sound { w with sessions := w.sessions.set i s' } := by
  have hbefore : ∀ {j k : Nat} {t u : CtlSession} {c d : Popened},
      (w.sessions.set i s')[j]? = some t → (w.sessions.set i s')[k]? = some u →
      t.pc.child = some c → u.pc.child = some d → c.entry = d.entry → j = i → j = k := by
    rintro j k t u c d ht hu hc hd hcd rfl
    rcases Objects.set_cases hu with ⟨rfl, -, -⟩ | ⟨hkj, hu'⟩
    · rfl
    · rcases Objects.set_cases ht with ⟨-, rfl, -⟩ | ⟨hne, -⟩
      · rcases hparent c hc with hold | hfresh
        · exact h.parents j k s u c d hs hu' hold hd hcd
        · exact absurd hcd.symm (hfresh k u d hu' hd)
      · exact absurd rfl hne
  refine ⟨h.wf, h.mtime, h.file, ?_, ?_, ?_, h.killed⟩
  · intro j t ht
    rcases Objects.set_cases ht with ⟨-, rfl, -⟩ | ⟨-, hold⟩
    · exact hpc
    · exact h.sessions j t hold
  · intro j k t u c d ht hu hc hd hcd
    by_cases hji : j = i
    · exact hbefore ht hu hc hd hcd hji
    · by_cases hki : k = i
      · exact (hbefore hu ht hd hc hcd.symm hki).symm
      · rcases Objects.set_cases ht with ⟨rfl, -, -⟩ | ⟨-, ht'⟩
        · exact absurd rfl hji
        · rcases Objects.set_cases hu with ⟨rfl, -, -⟩ | ⟨-, hu'⟩
          · exact absurd rfl hki
          · exact h.parents j k t u c d ht' hu' hc hd hcd
  · intro j k t u ht hu hsaving hsaving'
    have hnone : ∀ {m : Nat} {x : CtlSession}, w.sessions[m]? = some x → s'.pc.inSave = true →
        x.pc.inSave = true → False := by
      intro m x hx hnew hold
      rw [hsave hnew x (List.mem_of_getElem? hx)] at hold
      cases hold
    rcases Objects.set_cases ht with ⟨rfl, rfl, -⟩ | ⟨-, ht'⟩ <;>
      rcases Objects.set_cases hu with ⟨rfl, rfl, -⟩ | ⟨-, hu'⟩
    · rfl
    · exact (hnone hu' hsaving hsaving').elim
    · exact (hnone ht' hsaving' hsaving).elim
    · exact h.saves j k t u ht' hu' hsaving hsaving'

/-- A command that makes no new process and opens no file is at another position. -/
theorem Sound.session_tends (h : Sound w) {i : Nat} (hs : w.sessions[i]? = some s)
    (hpc : PcSound w.processes w.pidfile s'.pc)
    (hchild : s'.pc.child = none ∨ s'.pc.child = s.pc.child) (hsave : s'.pc.inSave = false) :
    Sound { w with sessions := w.sessions.set i s' } := by
  refine h.session hs hpc (fun d hd => .inl ?_) fun hnew => ?_
  · rcases hchild with hnone | hsame
    · simp [hnone] at hd
    · exact hsame ▸ hd
  · rw [hsave] at hnew
    cases hnew

/-- What `get_process_info` finds is a web server. -/
theorem Sound.found (h : Sound w) {i : Nat} (hs : w.sessions[i]? = some s) {caller : InfoCaller}
    {process : Handle} {f : PidFile} (hpc : s.pc = .statPid caller process)
    (hfile : w.pidfile = some f) (htime : process.created ≤ f.mtime) :
    TargetSound w.processes process := by
  obtain ⟨j, e, he, hnamed, hstat⟩ := (h.sessions i s hs).stat caller process hpc
  obtain ⟨hcontent, halive⟩ := hstat f hfile
  obtain ⟨k, e', he', hpid, hweb, halive'⟩ := h.file f process.pid hfile hcontent
  -- two processes of one number live at the time of the file
  have hjk := h.wf.same_of_alive he he' (hnamed.1.trans hpid.symm) (halive htime) halive'
  subst hjk
  obtain rfl : e = e' := Option.some.inj (he.symm.trans he')
  exact ⟨j, e, he, hnamed, hweb⟩

/-- `open("w")` leaves an empty file. -/
theorem perform_truncate (hw : w.perform .truncate = some w') :
    ∃ f inodes, w' = { w with pidfile := some f, inodes := inodes } ∧ f.text = [] ∧
      f.mtime = w.processes.now := by
  simp only [perform] at hw
  split at hw <;> cases hw <;> exact ⟨_, _, rfl, rfl, rfl⟩

/-- The pid file is emptied. -/
theorem Sound.emptied (h : Sound w) {f : PidFile} (inodes : Nat) (htext : f.text = [])
    (hmtime : f.mtime = w.processes.now)
    (hquiet : ∀ t ∈ w.sessions, t.pc.inSave = false ∧ t.pc.inInfo = false) :
    Sound { w with pidfile := some f, inodes := inodes } := by
  refine h.file_changes inodes ?_ ?_ (.inl hquiet)
  · intro g hg
    cases hg
    exact Nat.le_of_eq hmtime
  · intro g pid hg hcontent
    cases hg
    simp [PidFile.content, intOfText, htext] at hcontent

/-- The number of a web server is written to an empty pid file. -/
theorem Sound.written (h : Sound w) {c : Popened} (inode : Nat)
    (hchild : ChildSound w.processes c) (hempty : ∀ f, w.pidfile = some f → f.text = [])
    (hquiet : ∀ t ∈ w.sessions, t.pc.inSave = false ∧ t.pc.inInfo = false) :
    Sound { w with
      pidfile := w.pidfile.map fun f =>
        if f.inode = inode then f.write (pidText c.pid) w.processes.now else f } := by
  obtain ⟨e, he, hpid, hweb, hfreed⟩ := hchild
  refine h.file_changes w.inodes ?_ ?_ (.inl hquiet)
  · intro g hg
    obtain ⟨f, hf, rfl⟩ := Option.map_eq_some_iff.mp hg
    split
    · exact Nat.le_refl _
    · exact h.mtime f hf
  · intro g pid hg hcontent
    obtain ⟨f, hf, rfl⟩ := Option.map_eq_some_iff.mp hg
    split at hcontent
    · rename_i hinode
      rw [PidFile.content_write (hempty f hf)] at hcontent
      cases hcontent
      refine ⟨_, e, he, hpid, hweb, ?_⟩
      rw [if_pos hinode]
      exact Table.alive_of_not_freed (h.wf.created _ e he) hfreed
    · simp [PidFile.content, intOfText, hempty f hf] at hcontent

/-- A web server is killed. -/
theorem Sound.kill (h : Sound w) {process : Handle} {k : Nat}
    (hk : w.processes.resolve process = some k) (htarget : TargetSound w.processes process) :
    Sound { w with killed := w.killed ++ [k] } := by
  obtain ⟨e, he, hnamed, -⟩ := Table.resolve_cases hk
  obtain ⟨j, e', he', hnamed', hweb⟩ := htarget
  have hkj := h.wf.same_of_named he he' hnamed hnamed'
  subst hkj
  refine ⟨h.wf, h.mtime, h.file, h.sessions, h.parents, h.saves, fun m hm => ?_⟩
  rcases List.mem_append.mp hm with hold | hnew
  · exact h.killed m hold
  · obtain rfl : m = k := by simpa using hnew
    exact ⟨e', he', hweb⟩

/-- The pid file can change without a command being misled: nobody is in `get_process_info`,
and nobody else has it open for writing when it is emptied. -/
structure Quiet (w : CtlWorld) (effect : CtlEffect) : Prop where
  info : effect.writes = true → ∀ t ∈ w.sessions, t.pc.inInfo = false
  save : effect = .truncate → ∀ t ∈ w.sessions, t.pc.inSave = false

/-- A command goes on. -/
theorem Sound.moves (h : Sound w) {i : Nat} (hs : w.sessions[i]? = some s) {effect : CtlEffect}
    (hm : s.Moves w.view effect s'.pc) (hquiet : Quiet w effect)
    (hw : w.perform effect = some w') :
    Sound { w' with sessions := w.sessions.set i s' } := by
  have hsound := h.sessions i s hs
  obtain ⟨pc, hpc⟩ : ∃ pc, pc = s'.pc := ⟨_, rfl⟩
  rw [← hpc] at hm
  cases hm with
  | idles pc hinert =>
      cases hw
      exact h.session_tends hs (hpc ▸ pcSound_inert hinert) (.inl (hpc ▸ hinert.1))
        (hpc ▸ CtlPc.inSave_of_child hinert.1)
  | tends c pc hchild hpc' hsave hinfo htarget =>
      cases hw
      exact h.session_tends hs
        (hpc ▸ pcSound_tends hpc' hsave hinfo htarget (hsound.child c hchild))
        (.inr (hpc ▸ hpc'.trans hchild.symm)) (hpc ▸ hsave)
  | reads caller pid f hfile hcontent =>
      cases hw
      refine h.session_tends hs
        (hpc ▸ ⟨by simp [CtlPc.child], by simp [CtlPc.target], by simp, ?_, by simp⟩)
        (.inl (hpc ▸ rfl)) (hpc ▸ rfl)
      rintro caller' pid' heq f' hf'
      cases heq
      obtain rfl : f = f' := Option.some.inj (hfile.symm.trans hf')
      exact hcontent
  | opens caller pid process hold hfind =>
      cases hw
      refine h.session_tends hs
        (hpc ▸ ⟨by simp [CtlPc.child], by simp [CtlPc.target], by simp, by simp, ?_⟩)
        (.inl (hpc ▸ rfl)) (hpc ▸ rfl)
      rintro caller' process' heq
      cases heq
      obtain ⟨hpid, j, e, he, hnamed, hfreed⟩ := Table.find_cases hfind
      refine ⟨j, e, he, hnamed, fun f hf => ⟨?_, fun hle => ?_⟩⟩
      · exact hpid ▸ hsound.opens caller pid hold f hf
      · exact Table.alive_of_not_freed (hnamed.2 ▸ hle) hfreed
  | finds caller process f pc hold hfile htime hto =>
      cases hw
      have hpc' : s'.pc.target = some process := by rcases hto with rfl | rfl <;> rw [← hpc] <;> rfl
      have hnone := CtlPc.child_of_target hpc'
      exact h.session_tends hs (pcSound_target hpc' (h.found hs hold hfile htime)) (.inl hnone)
        (CtlPc.inSave_of_child hnone)
  | agrees process hold =>
      cases hw
      refine h.session_tends hs (hpc ▸ pcSound_target rfl ?_) (.inl (hpc ▸ rfl)) (hpc ▸ rfl)
      exact hsound.target process (hold ▸ rfl)
  | spawns pid args =>
      obtain ⟨T', hspawn, rfl⟩ := Option.map_eq_some_iff.mp hw
      obtain ⟨rfl, -⟩ := Table.spawn_cases hspawn
      refine (h.spawn hspawn).session hs (hpc ▸ pcSound_tends rfl rfl rfl rfl ?_)
        (fun d hd => .inr ?_) fun hnew => ?_
      · exact ⟨⟨pid, w.processes.now, .webserver args, none⟩, by simp [view], rfl, rfl, rfl⟩
      · intro j t c ht hc
        rw [← hpc] at hd
        cases hd
        obtain ⟨e, he, -⟩ := (h.sessions j t ht).child c hc
        have := (List.getElem?_eq_some_iff.mp he).1
        simp only [view]
        omega
      · rw [← hpc] at hnew
        cases hnew
  | truncates c inode hold =>
      obtain ⟨f, inodes, rfl, htext, hmtime⟩ := perform_truncate hw
      have hchanged : Sound { w with pidfile := some f, inodes := inodes } :=
        h.emptied inodes htext hmtime fun t ht =>
          ⟨hquiet.save rfl t ht, hquiet.info rfl t ht⟩
      refine hchanged.session hs (hpc ▸ ⟨?_, by simp [CtlPc.target], ?_, by simp, by simp⟩)
        (fun d hd => .inl ?_) fun _ t ht => hquiet.save rfl t ht
      · intro d hd
        cases hd
        exact hsound.child c (hold ▸ rfl)
      · rintro d k heq g hg
        cases hg
        exact htext
      · rw [← hpc] at hd
        exact hold ▸ hd
  | writes c inode deadline hold =>
      cases hw
      have hchild := hsound.child c (hold ▸ rfl)
      -- the writer goes on first, and then nobody has the file open for writing
      have hon : Sound { w with sessions := w.sessions.set i s' } :=
        h.session_tends hs (hpc ▸ pcSound_tends rfl rfl rfl rfl hchild)
          (.inr (by rw [← hpc, hold]; rfl)) (hpc ▸ rfl)
      refine hon.written inode hchild (hsound.save c inode hold) fun t ht => ?_
      obtain ⟨j, hj⟩ := List.mem_iff_getElem?.mp ht
      rcases Objects.set_cases hj with ⟨-, rfl, -⟩ | ⟨hji, hold'⟩
      · rw [← hpc]
        exact ⟨rfl, rfl⟩
      · refine ⟨?_, hquiet.info rfl t (List.mem_of_getElem? hold')⟩
        by_contra hsaving
        exact hji (h.saves j i t s hold' hs (by simpa using hsaving) (by rw [hold]; rfl))
  | unlinks pc hinert =>
      cases hw
      exact h.unlink.session_tends hs (hpc ▸ pcSound_inert hinert) (.inl (hpc ▸ hinert.1))
        (hpc ▸ CtlPc.inSave_of_child hinert.1)
  | waits c hchild e =>
      obtain ⟨T', hfree, rfl⟩ := Option.map_eq_some_iff.mp hw
      have hended : Sound { w with sessions := w.sessions.set i s' } :=
        h.session_tends hs (hpc ▸ pcSound_inert ⟨rfl, rfl, rfl⟩) (.inl (hpc ▸ rfl)) (hpc ▸ rfl)
      refine hended.free hfree fun j t d ht hd heq => ?_
      rcases Objects.set_cases ht with ⟨rfl, rfl, -⟩ | ⟨hji, ht'⟩
      · rw [← hpc] at hd
        cases hd
      · exact hji (h.parents j i t s d c ht' hs hd hchild heq)
  | kills process hold =>
      have hnext : Sound { w with sessions := w.sessions.set i s' } :=
        h.session_tends hs (hpc ▸ pcSound_inert ⟨rfl, rfl, rfl⟩) (.inl (hpc ▸ rfl)) (hpc ▸ rfl)
      simp only [perform] at hw
      split at hw
      · rename_i k hk
        cases hw
        exact hnext.kill hk (hsound.target process (hold ▸ rfl))
      · cases hw
        exact hnext

/-! ### Every step -/

theorem sound_initial (h : Initial w) : Sound w := by
  obtain ⟨hfile, hsessions, hkilled, hwf⟩ := h
  constructor <;> simp_all

theorem Sound.command (h : Sound w) (c : CtlCommand) :
    Sound { w with sessions := w.sessions ++ [⟨c, c.entry, []⟩] } := by
  have hinert : c.entry.Inert := by cases c <;> exact ⟨rfl, rfl, rfl⟩
  refine ⟨h.wf, h.mtime, h.file, ?_, ?_, ?_, h.killed⟩
  · intro i s hs
    rcases Objects.append_cases hs with hs' | ⟨-, rfl⟩
    · exact h.sessions i s hs'
    · exact pcSound_inert hinert
  · intro i j s t d d' hs ht hd hd' heq
    rcases Objects.append_cases hs with hs' | ⟨-, rfl⟩
    · rcases Objects.append_cases ht with ht' | ⟨-, rfl⟩
      · exact h.parents i j s t d d' hs' ht' hd hd' heq
      · rw [hinert.1] at hd'
        cases hd'
    · rw [hinert.1] at hd
      cases hd
  · intro i j s t hs ht hsaving hsaving'
    have hnone : c.entry.inSave = false := CtlPc.inSave_of_child hinert.1
    rcases Objects.append_cases hs with hs' | ⟨-, rfl⟩
    · rcases Objects.append_cases ht with ht' | ⟨-, rfl⟩
      · exact h.saves i j s t hs' ht' hsaving hsaving'
      · rw [hnone] at hsaving'
        cases hsaving'
    · rw [hnone] at hsaving
      cases hsaving

/-- The pid file is written in steps that `apart` guards. -/
theorem quiet_of_apart {i : Nat} {a : CtlAct} {effect : CtlEffect}
    (hok : w.apart (.session i a) = true) (hs : w.sessions[i]? = some s)
    (hstep : s.step w.view a = some (effect, s')) : Quiet w effect := by
  have hgo := fun hwrites => CtlSession.go_of_writes hstep hwrites
  have hmoves := CtlSession.moves_step hstep
  generalize s'.pc = pc at hmoves
  cases hmoves with
  | truncates c inode hold =>
      obtain rfl := hgo rfl
      simp only [apart, apartFromInfo, apartFromSave, writer, hs, Option.map_some,
        Option.getD_some, hold, List.all_eq_true, Bool.and_eq_true, Bool.not_eq_true'] at hok
      exact ⟨fun _ t ht => hok.1 t ht, fun _ t ht => hok.2 t ht⟩
  | writes c inode deadline hold =>
      obtain rfl := hgo rfl
      simp only [apart, apartFromInfo, apartFromSave, writer, hs, Option.map_some,
        Option.getD_some, hold, List.all_eq_true, Bool.and_eq_true, Bool.not_eq_true'] at hok
      exact ⟨fun _ t ht => hok.1 t ht, fun heq => (by cases heq)⟩
  | _ => exact ⟨fun hwrites => (by cases hwrites), fun heq => (by cases heq)⟩

theorem Sound.step {a : Act} (h : Sound w) (hok : w.apart a = true)
    (hstep : w.step a = some w') : Sound w' := by
  cases a with
  | tick seconds =>
      cases hstep
      exact h.tick seconds
  | spawnOther pid =>
      obtain ⟨T', hspawn, rfl⟩ := Option.map_eq_some_iff.mp hstep
      exact h.spawn hspawn
  | free entry =>
      simp only [CtlWorld.step] at hstep
      split at hstep
      · cases hstep
      · rename_i horphan
        obtain ⟨T', hfree, rfl⟩ := Option.map_eq_some_iff.mp hstep
        refine h.free hfree fun i s c hs hc heq => horphan ?_
        exact List.any_eq_true.mpr ⟨s, List.mem_of_getElem? hs, by simp [hc, heq]⟩
  | command c =>
      cases hstep
      exact h.command c
  | session i b =>
      simp only [CtlWorld.step] at hstep
      split at hstep
      · rename_i s hs
        split at hstep
        · rename_i effect s' hmove
          obtain ⟨w'', hw, rfl⟩ := Option.map_eq_some_iff.mp hstep
          have hmoved := h.moves hs (CtlSession.moves_step hmove) (quiet_of_apart hok hs hmove) hw
          rwa [← sessions_perform hw] at hmoved
        · cases hstep
      · cases hstep

theorem sound_of_reach (h : Reach Initial CtlWorld.step (fun w a => apart w a) w) : Sound w :=
  h.invariant (fun _ => sound_initial) fun _ _ _ hw hok hstep => hw.step hok hstep

/-- A web server is started under pid 100. -/
def startsServer : List Act :=
  [.command (.start 4578 true false), .session 0 (.status none), .session 0 (.spawned 100),
    .session 0 .go, .session 0 .go, .session 0 .go, .tick 2, .session 0 .slept,
    .session 0 (.serviceable (some true))]

/-- `stop` waits in vain for its shutdown, and the user agrees to kill it. -/
def killsServer : List Act :=
  startsServer ++ [.command (.stop false false), .session 1 (.serviceable (some true)),
    .session 1 (.shutdown .willShutdown), .session 1 (.serviceable (some false)), .tick 61,
    .session 1 .go, .session 1 .go, .session 1 .go, .session 1 .go, .session 1 (.confirm true),
    .session 1 .go]

/-- The server is gone and another process has its number; `stop` has looked that one up when
a second `start` writes the pid file. -/
def killsOther : List Act :=
  startsServer ++ [.free 0, .tick 1, .spawnOther 100, .command (.stop false true),
    .session 1 (.serviceable none), .session 1 (.serviceable none), .tick 181, .session 1 .go,
    .session 1 .go, .session 1 .go, .command (.start 4578 true false),
    .session 2 (.status none), .session 2 (.spawned 200), .session 2 .go, .session 2 .go,
    .session 1 .go, .session 1 .go]

/-- A process that was killed and is no web server. -/
theorem not_all_webservers {w : CtlWorld} {i : Nat} (hkilled : i ∈ w.killed)
    (hother : (w.processes.entries[i]?).map Entry.program = some .other) :
    ¬ ∀ i ∈ w.killed, ∃ e, w.processes.entries[i]? = some e ∧ e.program.isWebserver = true := by
  intro hall
  obtain ⟨e, he, hweb⟩ := hall i hkilled
  rw [he] at hother
  obtain hprogram : e.program = .other := Option.some.inj hother
  simp [hprogram, Program.isWebserver] at hweb

/-- **Not when one writes while another one compares**: the time of the second write makes up
for the old number. -/
theorem kills_other_process :
    ¬ ∀ w, Reach Initial step (fun w a => apartFromSave w a) w →
      ∀ i ∈ w.killed, ∃ e, w.processes.entries[i]? = some e ∧ e.program.isWebserver = true := by
  intro hall
  have hrun : ∃ w, exec (guarded step apartFromSave) killsOther {} = some w ∧ w.killed = [1] ∧
      (w.processes.entries[1]?).map Entry.program = some .other := ⟨_, rfl, rfl, rfl⟩
  obtain ⟨w, hw, hkilled, hother⟩ := hrun
  have hreach : Reach Initial step (fun w a => apartFromSave w a) w :=
    Reach.execGuarded killsOther (.start ⟨rfl, rfl, rfl, Table.wf_empty⟩) hw
  exact not_all_webservers (by simp [hkilled]) hother (hall w hreach)

/-- Two commands start web servers under pid 10000 and 9999 and are in `_save_pid` at once. -/
def killsMixed : List Act :=
  [.spawnOther 99990, .command (.start 4578 true false), .command (.start 4578 true false),
    .session 0 (.status none), .session 1 (.status none), .session 0 (.spawned 10000),
    .session 1 (.spawned 9999), .session 0 .go, .session 1 .go, .session 0 .go, .session 1 .go,
    .command (.stop false true), .session 2 (.serviceable none), .session 2 (.serviceable none),
    .tick 181, .session 2 .go, .session 2 .go, .session 2 .go, .session 2 .go, .session 2 .go]

/-- **Nor when two save a pid at once**: the shorter number leaves the last digit of the longer
one, and 99990 is in the file. -/
theorem kills_mixed_process :
    ¬ ∀ w, Reach Initial step (fun w a => apartFromInfo w a) w →
      ∀ i ∈ w.killed, ∃ e, w.processes.entries[i]? = some e ∧ e.program.isWebserver = true := by
  intro hall
  have hrun : ∃ w, exec (guarded step apartFromInfo) killsMixed {} = some w ∧ w.killed = [0] ∧
      (w.processes.entries[0]?).map Entry.program = some .other := ⟨_, rfl, rfl, rfl⟩
  obtain ⟨w, hw, hkilled, hother⟩ := hrun
  have hreach : Reach Initial step (fun w a => apartFromInfo w a) w :=
    Reach.execGuarded killsMixed (.start ⟨rfl, rfl, rfl, Table.wf_empty⟩) hw
  exact not_all_webservers (by simp [hkilled]) hother (hall w hreach)

end CtlWorld
