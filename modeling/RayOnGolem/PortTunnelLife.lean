import RayOnGolem.ClusterNodeStep
import RayOnGolem.PortTunnel

/-!
# The processes of a tunnel over its life

`Tunnel.Fine` says what becomes of one process and its task, `Sound` which process and task
the attributes of the sidecar hold.  Both are kept when the calls come in turn.

Main results:

* `processes_kept` -- a process that runs is never lost, a task warns of the exits that no
  `stop()` met and of no others, and a `stop()` raises only where the process was over;
* `lives_as_sidecar` -- the tunnel lives a life that the node's model gives to a sidecar.
-/

namespace Sidecar

/-- The lives of a sidecar whose `start()` and `stop()` are run by child tasks of `gather`. -/
inductive Lives (kind : SidecarKind) : Sidecar → Prop
  | made : Lives kind { kind := kind }
  | gathersStart {c : Sidecar} (h : Lives kind c) (hstarting : c.starting ≠ .waiting) :
      Lives kind { c with starting := .scheduled }
  | gathersStop {c : Sidecar} (h : Lives kind c) (hstopping : c.stopping ≠ .waiting) :
      Lives kind { c with stopping := .scheduled }
  | step {c c' : Sidecar} {a : ClusterNode.SidecarAct} (h : Lives kind c) (hstep : Step c a c') :
      Lives kind c'

end Sidecar

/-- What becomes of process `j` and its task. -/
structure Tunnel.Fine (j : Nat) (x : Tunnel) : Prop where
  task : x.exitTask = .scheduled ∨ x.exitTask = .communicating j ∨ x.exitTask = .warned j ∨
    x.exitTask = .cancelled
  warned : x.exitTask = .warned j → x.isRunning = false ∧ x.cancelled = false
  cancelled : x.exitTask = .cancelled → x.cancelled = true
  terminated : x.terminated = true → x.exitTask = .cancelled

namespace PortTunnel

open Runs

variable {s s' : PortTunnel} {a : Act} {c : Sidecar}

/-- Where a `stop()` stands, or how it ended. -/
def StopSound (s : PortTunnel) : TunnelStopPc → Prop
  | .cancelling j => s.tunnelProcess = some j ∧
      ∃ x, s.tunnels[j]? = some x ∧ x.cancelled = true ∧ x.terminated = false
  | .waiting p => s.tunnelProcess = some p ∧
      ∃ x, s.tunnels[p]? = some x ∧ x.exitTask = .cancelled
  | .returned p => ∃ x, s.tunnels[p]? = some x ∧ x.isRunning = false
  | .raised o => ∃ p x, o = some p ∧ s.tunnels[p]? = some x ∧ x.process = .closed ∧
      x.terminated = false

/-- The attributes hold the process that runs and its task. -/
structure Sound (s : PortTunnel) : Prop where
  known : ∀ p, s.tunnelProcess = some p → ∃ x, s.tunnels[p]? = some x
  fine : ∀ (j : Nat) (x : Tunnel), s.tunnels[j]? = some x → x.Fine j
  running : ∀ (p : Nat) (x : Tunnel), s.tunnels[p]? = some x → x.isRunning = true →
    s.tunnelProcess = some p
  scheduled : ∀ (j : Nat) (x : Tunnel), s.tunnels[j]? = some x → x.exitTask = .scheduled →
    x.cancelled = false → s.tunnelProcess = some j
  tended : ∀ (p : Nat) (x : Tunnel), s.tunnels[p]? = some x → x.isRunning = true →
    s.stopping = false → s.earlyExitTask = some p ∧ x.cancelled = false
  stops : ∀ (i : Nat) (pc : TunnelStopPc), s.stops[i]? = some pc → s.StopSound pc
  single : ∀ (i j : Nat) (pc pc' : TunnelStopPc), s.stops[i]? = some pc →
    s.stops[j]? = some pc' → pc.inProgress = true → pc'.inProgress = true → i = j
  one : s.starting ≤ 1
  idle : 0 < s.starting → s.stopping = false ∧ s.isRunning = false

/-- What a user of the sidecar relies on: a process that runs is the one that `stop()` would
end, a task that ends unless cancelled warns of its own process, which no `stop()` ended, and
a `stop()` that is over leaves a process that is over. -/
structure Kept (s : PortTunnel) : Prop where
  running : ∀ (p : Nat) (x : Tunnel), s.tunnels[p]? = some x → x.isRunning = true →
    s.tunnelProcess = some p
  warned : ∀ (j p : Nat) (x : Tunnel), s.tunnels[j]? = some x → x.exitTask = .warned p →
    p = j ∧ x.isRunning = false ∧ x.terminated = false
  unwarned : ∀ (j : Nat) (x : Tunnel), s.tunnels[j]? = some x → x.exitTask.over = true →
    x.cancelled = false → x.exitTask = .warned j
  returned : ∀ p, .returned p ∈ s.stops → ∃ x, s.tunnels[p]? = some x ∧ x.isRunning = false
  raised : ∀ o, .raised o ∈ s.stops → ∃ p x, o = some p ∧ s.tunnels[p]? = some x ∧
    x.isRunning = false ∧ x.terminated = false

/-! ### Small facts -/

theorem isRunning_eq_true : s.isRunning = true ↔
    ∃ p x, s.tunnelProcess = some p ∧ s.tunnels[p]? = some x ∧ x.isRunning = true := by
  simp only [isRunning, Option.any_eq_true_iff_get, Option.isSome_iff_exists]
  constructor
  · rintro ⟨⟨⟨p, x⟩, hheld⟩, hrunning⟩
    obtain ⟨hp, hx⟩ := held_eq_some.mp hheld
    exact ⟨p, x, hp, hx, by simpa [hheld] using hrunning⟩
  · rintro ⟨p, x, hp, hx, hrunning⟩
    have hheld : s.held s.tunnelProcess = some (p, x) := held_eq_some.mpr ⟨hp, hx⟩
    exact ⟨⟨_, hheld⟩, by simpa [hheld] using hrunning⟩

theorem stopping_eq_false :
    s.stopping = false ↔ ∀ (i : Nat) (pc : TunnelStopPc), s.stops[i]? = some pc →
      pc.inProgress = false := by
  rw [stopping, List.any_eq_false]
  constructor
  · intro h i pc hi
    simpa using h pc (List.mem_of_getElem? hi)
  · intro h pc hpc
    obtain ⟨i, hi⟩ := List.getElem?_of_mem hpc
    simpa using h i pc hi

theorem stopping_of_mem {i : Nat} {x : TunnelStopPc} (hi : s.stops[i]? = some x)
    (hpc : x.inProgress = true) : s.stopping = true := by
  by_contra hnot
  have hfalse := stopping_eq_false.mp (by simpa using hnot) i x hi
  simp [hpc] at hfalse

theorem sound_initial (h : Initial s) : Sound s := by
  obtain rfl := h
  constructor <;> simp

/-- No process runs. -/
theorem Sound.none_running (h : Sound s) (hidle : s.isRunning = false) {p : Nat} {x : Tunnel}
    (hx : s.tunnels[p]? = some x) : x.isRunning = false := by
  by_contra hnot
  have hrunning : x.isRunning = true := by simpa using hnot
  have htrue := isRunning_eq_true.mpr ⟨p, x, h.running p x hx hrunning, hx, hrunning⟩
  simp [hidle] at htrue

/-- While a process runs and no `stop()` is in progress, its task waits. -/
theorem Sound.task_waits (h : Sound s) (hbeside : s.stopping = false) {p : Nat} {x : Tunnel}
    (hx : s.tunnels[p]? = some x) (hrunning : x.isRunning = true) :
    x.exitTask.over = false ∧ x.terminated = false := by
  have hfine := h.fine p x hx
  obtain ⟨-, hcancelled⟩ := h.tended p x hx hrunning hbeside
  have hnot : x.exitTask ≠ .cancelled := by
    intro heq
    simp [hfine.cancelled heq] at hcancelled
  constructor
  · rcases hfine.task with htask | htask | htask | htask
    · simp [htask, ExitTaskPc.over]
    · simp [htask, ExitTaskPc.over]
    · simp [(hfine.warned htask).1] at hrunning
    · exact absurd htask hnot
  · by_contra hterminated
    exact hnot (hfine.terminated (by simpa using hterminated))

/-! ### A process or its task goes on -/

/-- What `StopSound` asks of a process stays true where these parts of it do. -/
theorem StopSound.setTunnel {pc : TunnelStopPc} (h : s.StopSound pc) {j : Nat} {x y : Tunnel}
    (hx : s.tunnels[j]? = some x) (hall : s'.tunnels = s.tunnels.set j y)
    (hprocess : s'.tunnelProcess = s.tunnelProcess)
    (hrunning : y.isRunning = true → x.isRunning = true)
    (hcancelled : x.cancelled = true → y.cancelled = true)
    (hterminated : y.terminated = x.terminated ∨ ∀ k, pc ≠ .cancelling k ∧ x.process ≠ .closed)
    (htask : x.exitTask = .cancelled → y.exitTask = .cancelled)
    (hclosed : x.process = .closed → y.process = .closed) : s'.StopSound pc := by
  have hkept : ∀ {k : Nat} {z : Tunnel}, s.tunnels[k]? = some z →
      (k = j ∧ z = x ∧ s'.tunnels[k]? = some y) ∨ s'.tunnels[k]? = some z := by
    intro k z hz
    rw [hall]
    by_cases hkj : k = j
    · subst hkj
      exact .inl ⟨rfl, Option.some.inj (hz.symm.trans hx), Objects.set_self hx⟩
    · exact .inr (Objects.set_old hkj hz)
  cases pc with
  | cancelling k =>
      obtain ⟨hp, z, hz, hzc, hzt⟩ := h
      refine ⟨hprocess ▸ hp, ?_⟩
      rcases hkept hz with ⟨rfl, rfl, hy⟩ | hz'
      · refine ⟨y, hy, hcancelled hzc, ?_⟩
        rcases hterminated with heq | hne
        · rw [heq, hzt]
        · exact absurd rfl (hne k).1
      · exact ⟨z, hz', hzc, hzt⟩
  | waiting p =>
      obtain ⟨hp, z, hz, hzt⟩ := h
      refine ⟨hprocess ▸ hp, ?_⟩
      rcases hkept hz with ⟨rfl, rfl, hy⟩ | hz'
      · exact ⟨y, hy, htask hzt⟩
      · exact ⟨z, hz', hzt⟩
  | returned p =>
      obtain ⟨z, hz, hzr⟩ := h
      rcases hkept hz with ⟨rfl, rfl, hy⟩ | hz'
      · refine ⟨y, hy, ?_⟩
        by_contra hnot
        simp [hrunning (by simpa using hnot)] at hzr
      · exact ⟨z, hz', hzr⟩
  | raised o =>
      obtain ⟨p, z, ho, hz, hzc, hzt⟩ := h
      rcases hkept hz with ⟨rfl, rfl, hy⟩ | hz'
      · refine ⟨p, y, ho, hy, hclosed hzc, ?_⟩
        rcases hterminated with heq | hne
        · rw [heq, hzt]
        · exact absurd hzc (hne 0).2
      · exact ⟨p, z, ho, hz', hzc, hzt⟩

/-- A process or its task goes on. -/
theorem Sound.setTunnel (h : Sound s) {j : Nat} {x : Tunnel} (hx : s.tunnels[j]? = some x)
    (y : Tunnel) (hfine : y.Fine j) (hrunning : y.isRunning = true → x.isRunning = true)
    (hscheduled : y.exitTask = .scheduled → x.exitTask = .scheduled)
    (hcancelled : y.cancelled = x.cancelled) (hterminated : y.terminated = x.terminated)
    (htask : x.exitTask = .cancelled → y.exitTask = .cancelled)
    (hclosed : x.process = .closed → y.process = .closed) :
    Sound { s with tunnels := s.tunnels.set j y } := by
  have hold := Objects.less_of_set (p := fun z => z.isRunning = true) hx hrunning
  refine ⟨?_, ?_, ?_, ?_, ?_, ?_, h.single, h.one, ?_⟩
  · intro p hp
    obtain ⟨z, hz⟩ := h.known p hp
    by_cases hpj : p = j
    · subst hpj
      exact ⟨y, Objects.set_self hx⟩
    · exact ⟨z, Objects.set_old hpj hz⟩
  · intro k z hz
    rcases Objects.set_cases hz with ⟨rfl, rfl, -⟩ | ⟨-, hz'⟩
    · exact hfine
    · exact h.fine k z hz'
  · intro p z hz hrun
    obtain ⟨u, hu, hurun⟩ := hold p z hz hrun
    exact h.running p u hu hurun
  · intro k z hz hsched hcanc
    rcases Objects.set_cases hz with ⟨rfl, rfl, -⟩ | ⟨-, hz'⟩
    · exact h.scheduled k x hx (hscheduled hsched) (hcancelled ▸ hcanc)
    · exact h.scheduled k z hz' hsched hcanc
  · intro p z hz hrun hbeside
    rcases Objects.set_cases hz with ⟨rfl, rfl, -⟩ | ⟨-, hz'⟩
    · rw [hcancelled]
      exact h.tended p x hx (hrunning hrun) hbeside
    · exact h.tended p z hz' hrun hbeside
  · intro i pc hi
    exact (h.stops i pc hi).setTunnel hx rfl rfl hrunning (fun hc => hcancelled.trans hc)
      (.inl hterminated) htask hclosed
  · intro hstarting
    obtain ⟨hbeside, hidle⟩ := h.idle hstarting
    refine ⟨hbeside, ?_⟩
    by_contra hnot
    obtain ⟨p, z, hp, hz, hrun⟩ := isRunning_eq_true.mp (by simpa using hnot)
    obtain ⟨u, hu, hurun⟩ := hold p z hz hrun
    simp [h.none_running hidle hu] at hurun

/-! ### The calls -/

/-- A new process and its task, when no other process runs and no other task is to start. -/
theorem Sound.spawned (h : Sound s) (hstarting : 0 < s.starting)
    (hbegun : ∀ x ∈ s.tunnels, x.exitTask = .scheduled → x.cancelled = true) :
    Sound { s with
      tunnelProcess := some s.tunnels.length
      earlyExitTask := some s.tunnels.length
      tunnels := s.tunnels ++ [{}]
      starting := s.starting - 1 } := by
  obtain ⟨hbeside, hidle⟩ := h.idle hstarting
  have hover := stopping_eq_false.mp hbeside
  have hnew : (s.tunnels ++ [({} : Tunnel)])[s.tunnels.length]? = some {} := by simp
  refine ⟨?_, ?_, ?_, ?_, ?_, ?_, h.single, by have := h.one; simp; omega, ?_⟩
  · rintro p hp
    obtain rfl : s.tunnels.length = p := Option.some.inj hp
    exact ⟨{}, hnew⟩
  · intro j x hx
    rcases Objects.append_cases hx with hx' | ⟨rfl, rfl⟩
    · exact h.fine j x hx'
    · exact ⟨.inl rfl, by simp, by simp, by simp⟩
  · intro p x hx hrun
    rcases Objects.append_cases hx with hx' | ⟨rfl, rfl⟩
    · simp [h.none_running hidle hx'] at hrun
    · rfl
  · intro j x hx hsched hcanc
    rcases Objects.append_cases hx with hx' | ⟨rfl, rfl⟩
    · simp [hbegun x (List.mem_of_getElem? hx') hsched] at hcanc
    · rfl
  · intro p x hx hrun _
    rcases Objects.append_cases hx with hx' | ⟨rfl, rfl⟩
    · simp [h.none_running hidle hx'] at hrun
    · exact ⟨rfl, rfl⟩
  · intro i pc hi
    have hkept := h.stops i pc hi
    cases pc with
    | cancelling j => cases hover i _ hi
    | waiting p => cases hover i _ hi
    | returned p =>
        obtain ⟨x, hx, hrun⟩ := hkept
        exact ⟨x, Objects.append_old hx, hrun⟩
    | raised o =>
        obtain ⟨p, x, ho, hx, hrest⟩ := hkept
        exact ⟨p, x, ho, Objects.append_old hx, hrest⟩
  · intro hmore
    have hmore' : 0 < s.starting - 1 := hmore
    have := h.one
    omega

/-- `stop()` finds the task of the process that runs, and cancels it. -/
theorem Sound.stops_begin (h : Sound s) (hbeside : s.stopping = false) {j : Nat} {x : Tunnel}
    (hrunning : s.isRunning = true) (htask : s.earlyExitTask = some j)
    (hx : s.tunnels[j]? = some x) :
    Sound { s with
      tunnels := s.tunnels.set j { x with cancelled := x.cancelled || !x.exitTask.over }
      stops := s.stops ++ [.cancelling j] } := by
  have hover := stopping_eq_false.mp hbeside
  obtain ⟨p, z, hp, hz, hrun⟩ := isRunning_eq_true.mp hrunning
  obtain rfl : j = p := Option.some.inj (htask.symm.trans (h.tended p z hz hrun hbeside).1)
  obtain rfl : x = z := Option.some.inj (hx.symm.trans hz)
  obtain ⟨hwaits, hterminated⟩ := h.task_waits hbeside hx hrun
  have hfine := h.fine j x hx
  rw [show (x.cancelled || !x.exitTask.over) = true by simp [hwaits]]
  have hstopping : PortTunnel.stopping { s with
      tunnels := s.tunnels.set j { x with cancelled := true }
      stops := s.stops ++ [.cancelling j] } = true := by
    simp [stopping, TunnelStopPc.inProgress]
  refine ⟨?_, ?_, ?_, ?_, ?_, ?_, ?_, h.one, ?_⟩
  · intro q hq
    obtain rfl : j = q := Option.some.inj (hp.symm.trans hq)
    exact ⟨_, Objects.set_self hx⟩
  · intro k y hy
    rcases Objects.set_cases hy with ⟨rfl, rfl, -⟩ | ⟨-, hy'⟩
    · refine ⟨hfine.task, fun hwarned => ?_, fun _ => rfl, hfine.terminated⟩
      simp [(hfine.warned hwarned).1] at hrun
    · exact h.fine k y hy'
  · intro q y hy hyrun
    rcases Objects.set_cases hy with ⟨rfl, rfl, -⟩ | ⟨-, hy'⟩
    · exact hp
    · exact h.running q y hy' hyrun
  · intro k y hy hsched hcanc
    rcases Objects.set_cases hy with ⟨rfl, rfl, -⟩ | ⟨-, hy'⟩
    · cases hcanc
    · exact h.scheduled k y hy' hsched hcanc
  · intro q y _ _ hnot
    rw [hstopping] at hnot
    cases hnot
  · intro i pc hi
    rcases Objects.append_cases hi with hi' | ⟨rfl, rfl⟩
    · exact (h.stops i pc hi').setTunnel hx rfl rfl id (fun _ => rfl) (.inl rfl) id id
    · exact ⟨hp, _, Objects.set_self hx, rfl, hterminated⟩
  · intro i k pc pc' hi hk hpc hpc'
    rcases Objects.append_cases hi with hi' | ⟨rfl, rfl⟩
    · simp [hover i pc hi'] at hpc
    · rcases Objects.append_cases hk with hk' | ⟨rfl, rfl⟩
      · simp [hover k pc' hk'] at hpc'
      · rfl
  · intro hstarting
    simp [(h.idle hstarting).2] at hrunning

/-- A `stop()` moves to another position, and no process or attribute but its own changes. -/
theorem Sound.stop_moves (h : Sound s) {i : Nat} {pc pc' : TunnelStopPc}
    (hi : s.stops[i]? = some pc) (hpc : pc.inProgress = true) :
    ∀ (k l : Nat) (q q' : TunnelStopPc), (s.stops.set i pc')[k]? = some q →
      (s.stops.set i pc')[l]? = some q' → q.inProgress = true → q'.inProgress = true → k = l := by
  intro k l q q' hk hl hq hq'
  have hsame : ∀ {m : Nat} {r : TunnelStopPc}, (s.stops.set i pc')[m]? = some r →
      r.inProgress = true → m = i := by
    intro m r hm hr
    rcases Objects.set_cases hm with ⟨rfl, -, -⟩ | ⟨-, hold⟩
    · rfl
    · exact h.single m i r pc hold hi hr hpc
  exact (hsame hk hq).trans (hsame hl hq').symm

/-- The other calls of `stop()` are over. -/
theorem Sound.others_over (h : Sound s) {i : Nat} {pc : TunnelStopPc} (hi : s.stops[i]? = some pc)
    (hpc : pc.inProgress = true) {k : Nat} {q : TunnelStopPc} (hk : s.stops[k]? = some q)
    (hki : k ≠ i) : q.inProgress = false := by
  by_contra hq
  exact hki (h.single k i q pc hk hi (by simpa using hq) hpc)

/-- What is said of a `stop()` that is over is about the processes alone. -/
theorem StopSound.of_over {pc : TunnelStopPc} (h : s.StopSound pc) (hover : pc.inProgress = false)
    (htunnels : s'.tunnels = s.tunnels) : s'.StopSound pc := by
  cases pc with
  | cancelling j => cases hover
  | waiting p => cases hover
  | returned p =>
      rw [StopSound, htunnels]
      exact h
  | raised o =>
      rw [StopSound, htunnels]
      exact h

/-- `terminate()` reaches the transport. -/
theorem Sound.terminates (h : Sound s) {i p : Nat} {x : Tunnel}
    (hi : s.stops[i]? = some (.cancelling p)) (hover : x.exitTask.over = true)
    (hx : s.tunnels[p]? = some x) (hprocess : x.process ≠ .closed) :
    Sound { s with
      tunnels := s.tunnels.set p { x with terminated := x.terminated || x.process = .alive }
      earlyExitTask := none
      stops := s.stops.set i (.waiting p) } := by
  obtain ⟨hp, z, hz, hcancelled, -⟩ := h.stops i _ hi
  obtain rfl : x = z := Option.some.inj (hx.symm.trans hz)
  have hfine := h.fine p x hx
  have hended : x.exitTask = .cancelled := by
    rcases hfine.task with htask | htask | htask | htask
    · simp [htask, ExitTaskPc.over] at hover
    · simp [htask, ExitTaskPc.over] at hover
    · simp [(hfine.warned htask).2] at hcancelled
    · exact htask
  have hstopping := stopping_of_mem (x := .cancelling p) hi rfl
  have hstill : PortTunnel.stopping { s with
      tunnels := s.tunnels.set p { x with terminated := x.terminated || x.process = .alive }
      earlyExitTask := none
      stops := s.stops.set i (.waiting p) } = true :=
    stopping_of_mem (i := i) (x := .waiting p) (Objects.set_self hi) rfl
  have hlike := Objects.less_of_set (p := fun z => z.isRunning = true)
    (y := { x with terminated := x.terminated || x.process = .alive }) hx id
  refine ⟨?_, ?_, ?_, ?_, ?_, ?_, h.stop_moves hi rfl, h.one, ?_⟩
  · intro q hq
    obtain rfl : p = q := Option.some.inj (hp.symm.trans hq)
    exact ⟨_, Objects.set_self hx⟩
  · intro k y hy
    rcases Objects.set_cases hy with ⟨rfl, rfl, -⟩ | ⟨-, hy'⟩
    · exact ⟨hfine.task, hfine.warned, hfine.cancelled, fun _ => hended⟩
    · exact h.fine k y hy'
  · intro q y hy hrun
    obtain ⟨u, hu, hurun⟩ := hlike q y hy hrun
    exact h.running q u hu hurun
  · intro k y hy hsched hcanc
    rcases Objects.set_cases hy with ⟨rfl, rfl, -⟩ | ⟨-, hy'⟩
    · exact h.scheduled k x hx hsched hcanc
    · exact h.scheduled k y hy' hsched hcanc
  · intro q y _ _ hnot
    rw [hstill] at hnot
    cases hnot
  · intro k pc hk
    rcases Objects.set_cases hk with ⟨rfl, rfl, -⟩ | ⟨hki, hk'⟩
    · exact ⟨hp, _, Objects.set_self hx, hended⟩
    · have hotherover := h.others_over hi rfl hk' hki
      refine (h.stops k pc hk').setTunnel hx rfl rfl id id (.inr fun m => ⟨?_, hprocess⟩) id id
      rintro rfl
      cases hotherover
  · intro hstarting
    simp [(h.idle hstarting).1] at hstopping

/-- `terminate()` raises, since the process was given up. -/
theorem Sound.findsClosed (h : Sound s) {i p : Nat} {x : Tunnel}
    (hi : s.stops[i]? = some (.cancelling p)) (hx : s.tunnels[p]? = some x)
    (hprocess : x.process = .closed) :
    Sound { s with earlyExitTask := none, stops := s.stops.set i (.raised (some p)) } := by
  obtain ⟨hp, z, hz, -, hterminated⟩ := h.stops i _ hi
  obtain rfl : x = z := Option.some.inj (hx.symm.trans hz)
  have hstopping := stopping_of_mem (x := .cancelling p) hi rfl
  refine ⟨h.known, h.fine, h.running, h.scheduled, ?_, ?_, h.stop_moves hi rfl, h.one, ?_⟩
  · intro q y hy hrun _
    obtain rfl : p = q := Option.some.inj (hp.symm.trans (h.running q y hy hrun))
    obtain rfl : x = y := Option.some.inj (hx.symm.trans hy)
    simp [Tunnel.isRunning, hprocess] at hrun
  · intro k pc hk
    rcases Objects.set_cases hk with ⟨rfl, rfl, -⟩ | ⟨hki, hk'⟩
    · exact ⟨p, x, rfl, hx, hprocess, hterminated⟩
    · exact (h.stops k pc hk').of_over (h.others_over hi rfl hk' hki) rfl
  · intro hstarting
    simp [(h.idle hstarting).1] at hstopping

/-- `stop()` sees the end of the process and forgets it. -/
theorem Sound.stopReturns (h : Sound s) {i p : Nat} {x : Tunnel}
    (hi : s.stops[i]? = some (.waiting p)) (hx : s.tunnels[p]? = some x)
    (hended : x.isRunning = false) :
    Sound { s with tunnelProcess := none, stops := s.stops.set i (.returned p) } := by
  obtain ⟨hp, z, hz, htask⟩ := h.stops i _ hi
  obtain rfl : x = z := Option.some.inj (hx.symm.trans hz)
  have hstopping := stopping_of_mem (x := .waiting p) hi rfl
  have hnone : ∀ (q : Nat) (y : Tunnel), s.tunnels[q]? = some y → y.isRunning = false := by
    intro q y hy
    by_contra hnot
    have hrun : y.isRunning = true := by simpa using hnot
    obtain rfl : p = q := Option.some.inj (hp.symm.trans (h.running q y hy hrun))
    obtain rfl : x = y := Option.some.inj (hx.symm.trans hy)
    simp [hended] at hrun
  refine ⟨by simp, h.fine, ?_, ?_, ?_, ?_, h.stop_moves hi rfl, h.one, ?_⟩
  · intro q y hy hrun
    simp [hnone q y hy] at hrun
  · intro k y hy hsched hcanc
    obtain rfl : p = k := Option.some.inj (hp.symm.trans (h.scheduled k y hy hsched hcanc))
    obtain rfl : x = y := Option.some.inj (hx.symm.trans hy)
    simp [htask] at hsched
  · intro q y hy hrun
    simp [hnone q y hy] at hrun
  · intro k pc hk
    rcases Objects.set_cases hk with ⟨rfl, rfl, -⟩ | ⟨hki, hk'⟩
    · exact ⟨x, hx, hended⟩
    · exact (h.stops k pc hk').of_over (h.others_over hi rfl hk' hki) rfl
  · intro hstarting
    simp [(h.idle hstarting).1] at hstopping

/-! ### Every step -/

theorem Sound.step (h : Sound s) (hok : s.inTurn a = true) (hs : Step s a s') : Sound s' := by
  cases hs with
  | startSkips => exact h
  | starts hrunning =>
      simp only [inTurn, Bool.and_eq_true, decide_eq_true_eq, Bool.not_eq_true'] at hok
      refine ⟨h.known, h.fine, h.running, h.scheduled, h.tended, h.stops, h.single, ?_, ?_⟩
      · simp [hok.1]
      · exact fun _ => ⟨hok.2, hrunning⟩
  | spawned hstarting =>
      refine h.spawned hstarting fun x hx hsched => ?_
      simpa [hsched] using List.all_eq_true.mp hok x hx
  | startRaised hstarting =>
      refine ⟨h.known, h.fine, h.running, h.scheduled, h.tended, h.stops, h.single, ?_, ?_⟩
      · exact Nat.le_trans (Nat.sub_le _ _) h.one
      · exact fun _ => h.idle hstarting
  | stopSkips => exact h
  | stops j x hrunning htask hx =>
      exact h.stops_begin (by simpa [inTurn] using hok) hrunning htask hx
  | stopRaises hrunning htask =>
      obtain ⟨p, x, -, hx, hrun⟩ := isRunning_eq_true.mp hrunning
      have htended := (h.tended p x hx hrun (by simpa [inTurn] using hok)).1
      rw [held_eq_some.mpr ⟨htended, hx⟩] at htask
      cases htask
  | terminates i j p x hi hover hp hx hprocess =>
      obtain rfl : j = p := Option.some.inj ((h.stops i _ hi).1.symm.trans hp)
      exact h.terminates hi (hover x hx) hx hprocess
  | findsClosed i j p x hi hover hp hx hprocess =>
      obtain rfl : j = p := Option.some.inj ((h.stops i _ hi).1.symm.trans hp)
      exact h.findsClosed hi hx hprocess
  | findsNone i j hi hover hnone =>
      obtain ⟨hp, x, hx, -⟩ := h.stops i _ hi
      rw [held_eq_some.mpr ⟨hp, hx⟩] at hnone
      cases hnone
  | stopReturns i p x hi hx hended => exact h.stopReturns hi hx hended
  | communicates j p x hx hscheduled hcancelled hp =>
      have hheld := h.scheduled j x hx hscheduled hcancelled
      obtain rfl : j = p := Option.some.inj (hheld.symm.trans hp)
      have hfine := h.fine j x hx
      refine h.setTunnel hx _ ⟨.inr (.inl rfl), by simp, by simp, fun hterminated => ?_⟩ id
        (by simp) rfl rfl (by simp [hscheduled]) id
      have htask := hfine.terminated hterminated
      simp [hscheduled] at htask
  | communicateRaises j x hx hscheduled hcancelled hp =>
      have hheld := h.scheduled j x hx hscheduled hcancelled
      simp [hp] at hheld
  | warns j p x hx hcommunicating hcancelled hended =>
      have hfine := h.fine j x hx
      obtain rfl : p = j := by
        rcases hfine.task with htask | htask | htask | htask <;> simp_all
      refine h.setTunnel hx _ ⟨.inr (.inr (.inl rfl)), fun _ => ⟨hended x hx, hcancelled⟩, by simp,
        fun hterminated => ?_⟩ id (by simp) rfl rfl (by simp [hcommunicating]) id
      have htask := hfine.terminated hterminated
      simp [hcommunicating] at htask
  | cancelled j x hx hcancelled hover =>
      exact h.setTunnel hx _ ⟨.inr (.inr (.inr rfl)), by simp, fun _ => hcancelled, fun _ => rfl⟩ id
        (by simp) rfl rfl (fun _ => rfl) id
  | ends j x phase hx hphase =>
      have hfine := h.fine j x hx
      have hrunning : Tunnel.isRunning { x with process := phase } = true → x.isRunning = true := by
        rcases hphase with heq | heq | heq <;> simp_all [Tunnel.isRunning]
      refine h.setTunnel hx _ ⟨hfine.task, fun hwarned => ⟨?_, (hfine.warned hwarned).2⟩,
        hfine.cancelled, hfine.terminated⟩ hrunning id rfl rfl id ?_
      · by_contra hnot
        have hrun := hrunning (by simpa using hnot)
        simp [(hfine.warned hwarned).1] at hrun
      · intro hclosed
        rcases hphase with heq | heq | heq <;> simp_all

theorem sound_of_reach (h : Reach Initial PortTunnel.step (fun s a => inTurn s a) s) : Sound s :=
  h.invariant (fun _ => sound_initial) fun _ _ _ hs hok hstep => hs.step hok (step_cases hstep)

theorem Sound.kept (h : Sound s) : Kept s := by
  refine ⟨h.running, ?_, ?_, ?_, ?_⟩
  · intro j p x hx hwarned
    have hfine := h.fine j x hx
    obtain rfl : p = j := by
      rcases hfine.task with htask | htask | htask | htask <;> simp_all
    refine ⟨rfl, (hfine.warned hwarned).1, ?_⟩
    by_contra hnot
    have htask := hfine.terminated (by simpa using hnot)
    simp [hwarned] at htask
  · intro j x hx hover hcancelled
    have hfine := h.fine j x hx
    rcases hfine.task with htask | htask | htask | htask
    · simp [htask, ExitTaskPc.over] at hover
    · simp [htask, ExitTaskPc.over] at hover
    · exact htask
    · simp [hfine.cancelled htask] at hcancelled
  · intro p hp
    obtain ⟨i, hi⟩ := List.getElem?_of_mem hp
    exact h.stops i _ hi
  · intro o ho
    obtain ⟨i, hi⟩ := List.getElem?_of_mem ho
    obtain ⟨p, x, rfl, hx, hclosed, hterminated⟩ := h.stops i _ hi
    exact ⟨p, x, rfl, hx, by simp [Tunnel.isRunning, hclosed], hterminated⟩

/-- **No tunnel process is lost.**  However calls in turn, the tasks and the ends of the
processes interleave, a process that runs is the one that the sidecar holds, each task that
is not cancelled warns when its process ends by itself, no warning is about a process that
`stop()` ended, and a `stop()` ends, with or without an exception, only when its process did. -/
theorem processes_kept (h : Reach Initial step (fun s a => inTurn s a) s) : Kept s :=
  (sound_of_reach h).kept

/-- A process that ends while `stop()` waits for the cancelled task: `stop()` raises. -/
def raisingStop : List Act :=
  [.start, .spawned, .tunnel 0 .communicate, .stop, .tunnel 0 .processEnds,
    .tunnel 0 .processEnds, .tunnel 0 .processEnds, .tunnel 0 .cancelDelivered, .terminate 0]

theorem processes_kept_raisingStop :
    ∃ s, exec (guarded step inTurn) raisingStop {} = some s ∧ s.stops = [.raised (some 0)] ∧
      Kept s := by
  refine ⟨_, rfl, rfl, ?_⟩
  have hreach : Reach Initial step (fun s a => inTurn s a) _ :=
    Reach.execGuarded raisingStop (.start rfl) rfl
  exact processes_kept hreach

/-! ### The sidecar of the node -/

/-- The sidecar, as the node's model has it, stands where the tunnel does. -/
structure Tracks (s : PortTunnel) (c : Sidecar) : Prop where
  kind : c.kind = .portTunnel
  running : c.isRunning = s.isRunning
  starting : c.starting = .waiting ↔ 0 < s.starting
  stopping : c.stopping = .waiting ↔ s.stopping = true

theorem Tracks.same (h : s.Tracks c) (hrunning : s'.isRunning = s.isRunning)
    (hstarting : s'.starting = s.starting) (hstopping : s'.stopping = s.stopping) :
    s'.Tracks c :=
  ⟨h.kind, h.running.trans hrunning.symm, hstarting ▸ h.starting, hstopping ▸ h.stopping⟩

/-- Where a process goes on as long as it did, the tunnel runs as long as it did. -/
theorem isRunning_setTunnel {j : Nat} {x y : Tunnel} {task : Option Nat}
    {stops : List TunnelStopPc} (hx : s.tunnels[j]? = some x)
    (hrunning : y.isRunning = x.isRunning) :
    PortTunnel.isRunning { s with
      tunnels := s.tunnels.set j y, earlyExitTask := task, stops := stops } = s.isRunning := by
  unfold isRunning held
  rcases s.tunnelProcess with _ | p
  · rfl
  · by_cases hpj : p = j
    · subst hpj
      simp [hx, Objects.set_self hx, hrunning]
    · simp [List.getElem?_set_ne (Ne.symm hpj)]

/-- One `stop()` in progress, and then another position of it. -/
theorem Sound.stopping_set (h : Sound s) {i : Nat} {pc pc' : TunnelStopPc}
    (hi : s.stops[i]? = some pc) (hpc : pc.inProgress = true) :
    (s.stops.set i pc').any TunnelStopPc.inProgress = pc'.inProgress := by
  rw [Bool.eq_iff_iff, List.any_eq_true]
  constructor
  · rintro ⟨q, hq, hprogress⟩
    obtain ⟨k, hk⟩ := List.getElem?_of_mem hq
    rcases Objects.set_cases hk with ⟨-, rfl, -⟩ | ⟨hki, hold⟩
    · exact hprogress
    · simp [h.others_over hi hpc hold hki] at hprogress
  · exact fun hprogress => ⟨pc', List.mem_of_getElem? (Objects.set_self hi), hprogress⟩

/-- A step of the tunnel is a step of the sidecar or none, once its child tasks are made. -/
theorem Tracks.step (h : s.Tracks c) (hsound : Sound s) (hok : s.inTurn a = true)
    (hs : Step s a s') (hlives : c.Lives .portTunnel) :
    ∃ c', c'.Lives .portTunnel ∧ s'.Tracks c' := by
  cases hs with
  | startSkips => exact ⟨c, hlives, h⟩
  | starts hrunning =>
      simp only [inTurn, Bool.and_eq_true, decide_eq_true_eq, Bool.not_eq_true'] at hok
      have hidle : c.starting ≠ .waiting := fun heq => by
        simpa [hok.1] using h.starting.mp heq
      refine ⟨_, (hlives.gathersStart hidle).step (.starts rfl), ?_⟩
      have hstart : Sidecar.start { c with starting := .scheduled } =
          { c with starting := .waiting } := by
        simp [Sidecar.start, h.kind, h.running, hrunning]
      rw [hstart]
      exact ⟨h.kind, h.running, by simp, h.stopping⟩
  | spawned hstarting =>
      refine ⟨_, hlives.step (.spawned (h.starting.mpr hstarting)), h.kind, ?_, ?_, h.stopping⟩
      · exact (isRunning_eq_true.mpr ⟨s.tunnels.length, {}, rfl, by simp, rfl⟩).symm
      · have := hsound.one
        simp
        omega
  | startRaised hstarting =>
      refine ⟨_, hlives.step (.startRaised (h.starting.mpr hstarting)), h.kind, h.running, ?_,
        h.stopping⟩
      have := hsound.one
      simp
      omega
  | stopSkips => exact ⟨c, hlives, h⟩
  | stops j x hrunning htask hx =>
      have hbeside : s.stopping = false := by simpa [inTurn] using hok
      have hidle : c.stopping ≠ .waiting := fun heq => by
        simp [h.stopping.mp heq] at hbeside
      refine ⟨_, (hlives.gathersStop hidle).step (.stops rfl), h.kind, ?_, h.starting, ?_⟩
      · exact h.running.trans (isRunning_setTunnel
          (y := { x with cancelled := x.cancelled || !x.exitTask.over }) hx rfl).symm
      · simp [Sidecar.stop, h.running, hrunning, PortTunnel.stopping, TunnelStopPc.inProgress]
  | stopRaises hrunning htask =>
      obtain ⟨p, x, -, hx, hrun⟩ := isRunning_eq_true.mp hrunning
      have htended := (hsound.tended p x hx hrun (by simpa [inTurn] using hok)).1
      rw [held_eq_some.mpr ⟨htended, hx⟩] at htask
      cases htask
  | terminates i j p x hi hover hp hx hprocess =>
      refine ⟨c, hlives, h.same (isRunning_setTunnel hx rfl) rfl ?_⟩
      rw [stopping_of_mem hi rfl]
      exact hsound.stopping_set hi rfl
  | findsClosed i j p x hi hover hp hx hprocess =>
      have hwaiting := h.stopping.mpr (stopping_of_mem hi rfl)
      refine ⟨_, hlives.step (.stopRaised hwaiting), h.kind, h.running, h.starting, ?_⟩
      rw [PortTunnel.stopping, hsound.stopping_set hi rfl]
      simp [TunnelStopPc.inProgress]
  | findsNone i j hi hover hnone =>
      obtain ⟨hp, x, hx, -⟩ := hsound.stops i _ hi
      rw [held_eq_some.mpr ⟨hp, hx⟩] at hnone
      cases hnone
  | stopReturns i p x hi hx hended =>
      have hwaiting := h.stopping.mpr (stopping_of_mem hi rfl)
      refine ⟨_, hlives.step (.stopped hwaiting), h.kind, rfl, h.starting, ?_⟩
      rw [PortTunnel.stopping, hsound.stopping_set hi rfl]
      simp [TunnelStopPc.inProgress]
  | communicates j p x hx => exact ⟨c, hlives, h.same (isRunning_setTunnel hx rfl) rfl rfl⟩
  | communicateRaises j x hx => exact ⟨c, hlives, h.same (isRunning_setTunnel hx rfl) rfl rfl⟩
  | warns j p x hx => exact ⟨c, hlives, h.same (isRunning_setTunnel hx rfl) rfl rfl⟩
  | cancelled j x hx => exact ⟨c, hlives, h.same (isRunning_setTunnel hx rfl) rfl rfl⟩
  | ends j x phase hx hphase =>
      by_cases hsame : Tunnel.isRunning { x with process := phase } = x.isRunning
      · exact ⟨c, hlives, h.same (isRunning_setTunnel hx hsame) rfl rfl⟩
      · -- the event loop sees the end of the process
        have hfrom : x.isRunning = true ∧ Tunnel.isRunning { x with process := phase } = false := by
          rcases hphase with heq | heq | heq <;> simp_all [Tunnel.isRunning]
        have hp := hsound.running j x hx hfrom.1
        have hrunning : c.isRunning = true :=
          h.running.trans (isRunning_eq_true.mpr ⟨j, x, hp, hx, hfrom.1⟩)
        refine ⟨_, hlives.step (.exited hrunning), h.kind, ?_, h.starting, h.stopping⟩
        have hheld : PortTunnel.held
            { s with tunnels := s.tunnels.set j { x with process := phase } } s.tunnelProcess =
              some (j, { x with process := phase }) :=
          held_eq_some.mpr ⟨hp, Objects.set_self hx⟩
        rw [isRunning, hheld]
        exact hfrom.2.symm

/-- **The tunnel lives the life of a sidecar**: in every run of it with calls in turn it stands
where a sidecar of the node's model stands in some run. -/
theorem lives_as_sidecar (h : Reach Initial PortTunnel.step (fun s a => inTurn s a) s) :
    ∃ c : Sidecar, c.Lives .portTunnel ∧ s.Tracks c := by
  have hall : Sound s ∧ ∃ c : Sidecar, c.Lives .portTunnel ∧ s.Tracks c := by
    refine h.invariant (I := fun s => Sound s ∧ ∃ c : Sidecar, c.Lives .portTunnel ∧ s.Tracks c)
      ?_ ?_
    · rintro s hs
      refine ⟨sound_initial hs, _, .made, ?_⟩
      obtain rfl := hs
      exact ⟨rfl, rfl, by simp, by simp [stopping]⟩
    · rintro s b s' ⟨hsound, c, hlives, htracks⟩ hok hstep
      have hs := step_cases hstep
      exact ⟨hsound.step hok hs, htracks.step hsound hok hs hlives⟩
  exact hall.2

theorem lives_as_sidecar_raisingStop :
    ∃ s, exec (guarded step inTurn) raisingStop {} = some s ∧ s.isRunning = false ∧
      ∃ c : Sidecar, c.Lives .portTunnel ∧ s.Tracks c := by
  refine ⟨_, rfl, rfl, ?_⟩
  have hreach : Reach Initial step (fun s a => inTurn s a) _ :=
    Reach.execGuarded raisingStop (.start rfl) rfl
  exact lives_as_sidecar hreach

end PortTunnel
