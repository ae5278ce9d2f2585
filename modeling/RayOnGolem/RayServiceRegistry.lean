import RayOnGolem.ClusterLife
import RayOnGolem.RayServiceStep

/-!
# What stands between a stop and a removal

A cluster leaves the registry in two ways: its delayed removal deletes it, or a
request cancels the removal and registers a new cluster in its place.  Both act on
what once was a stopped cluster, and it still is one unless it was started again
in between.  What stands in between is a *token*: an on-stop callback that has not
run, a callback task or a removal.

`Registry` says that a cluster with a token is terminated, registered, and has no
other token, that a cluster which is not terminated is registered, and who awaits a
start or a cancelled removal.  The lemmas say what each kind of change needs to
keep it: a task goes on (`setTask`) or is created (`addTask`), a cluster goes on
(`moveCluster`) or is created (`addCluster`), an entry is deleted (`erase`).
-/

/-- The kinds of tasks that a stopped cluster leaves behind. -/
def TaskKind.concerns (c : Nat) : TaskKind → Bool
  | .onClusterStop d => d == c
  | .removeCluster d => d == c
  | _ => false

namespace RayService

variable {digest : NodeConfigData → String} {s s' : RayService}

/-! ### Tokens -/

/-- What a stopped cluster leaves behind: a callback that has not run (`none`), or a
task (`some k`). -/
inductive Token (s : RayService) (c : Nat) : Option Nat → Prop
  | spawned (nc : NamedCluster) (hnc : s.allClusters[c]? = some nc)
      (hpos : 0 < nc.cluster.onStop) : Token s c none
  | task (k : Nat) (x : ServiceTask) (hx : s.tasks[k]? = some x) (halive : x.stage ≠ .over)
      (hkind : x.kind.concerns c = true) : Token s c (some k)

/-- The cluster registered under `name` waits for removal `j` to be cancelled. -/
structure Cancelling (s : RayService) (name : String) (j : Nat) : Prop where
  removal : ∃ y c, s.tasks[j]? = some y ∧ y.kind = .removeCluster c
  registered : ∀ (c : Nat) (nc : NamedCluster), s.clusters.get name = some c →
    s.allClusters[c]? = some nc → nc.cluster.state = .terminated ∧ ∀ p, Token s c p → p = some j

/-- No task cancels a removal under `name`. -/
def NobodyCancels (s : RayService) (name : String) : Prop :=
  ∀ (k : Nat) (x : ServiceTask) (j : Nat), s.tasks[k]? = some x → x.stage = .cancelling j →
    x.name ≠ name

/-- The invariant. -/
structure Registry (s : RayService) : Prop where
  life : ∀ (c : Nat) (nc : NamedCluster), s.allClusters[c]? = some nc → nc.cluster.Life
  known : ∀ (name : String) (c : Nat), s.clusters.get name = some c →
    ∃ nc, s.allClusters[c]? = some nc ∧ nc.name = name
  named : ∀ (k : Nat) (x : ServiceTask) (c : Nat), s.tasks[k]? = some x →
    x.kind.concerns c = true → ∃ nc, s.allClusters[c]? = some nc ∧ nc.name = x.name
  removals : ∀ (name : String) (j : Nat), s.clustersRemoveTasks.get name = some j →
    ∃ y c, s.tasks[j]? = some y ∧ y.kind = .removeCluster c ∧ y.name = name
  registered : ∀ (c : Nat) (nc : NamedCluster), s.allClusters[c]? = some nc →
    nc.cluster.state ≠ .terminated → s.clusters.get nc.name = some c
  token : ∀ (c : Nat) (nc : NamedCluster) (p : Option Nat), s.allClusters[c]? = some nc →
    Token s c p → nc.cluster.state = .terminated ∧ s.clusters.get nc.name = some c
  oneToken : ∀ (c : Nat) (p r : Option Nat), Token s c p → Token s c r → p = r
  cancelling : ∀ (k : Nat) (x : ServiceTask) (j : Nat), s.tasks[k]? = some x →
    x.stage = .cancelling j → Cancelling s x.name j
  watched : ∀ (c : Nat) (nc : NamedCluster) (t : Nat) (call : Call),
    s.allClusters[c]? = some nc → nc.cluster.calls[t]? = some call → call.stage = .starting →
      ∃ (k : Nat) (x : ServiceTask), s.tasks[k]? = some x ∧ x.stage = .starting c t ∧
        x.name = nc.name

theorem registry_initial (h : Initial s) : Registry s := by
  subst h
  refine ⟨?_, ?_, ?_, ?_, ?_, ?_, ?_, ?_, ?_⟩
  · intro c nc hnc
    simp at hnc
  · intro name c hc
    cases hc
  · intro k x c hx
    simp at hx
  · intro name j hj
    cases hj
  · intro c nc hnc
    simp at hnc
  · intro c nc p hnc
    simp at hnc
  · intro c p r hp
    cases hp with
    | spawned nc hnc => simp at hnc
    | task k x hx => simp at hx
  · intro k x j hx
    simp at hx
  · intro c nc t call hnc
    simp at hnc

/-! ### One part changes -/

/-- A token found after a change of tasks was there before. -/
theorem Token.back {c : Nat} {p : Option Nat} (h : Token s' c p)
    (hall : s'.allClusters = s.allClusters)
    (htasks : ∀ (k : Nat) (x' : ServiceTask), s'.tasks[k]? = some x' → x'.stage ≠ .over →
      x'.kind.concerns c = true →
        ∃ x, s.tasks[k]? = some x ∧ x.stage ≠ .over ∧ x.kind.concerns c = true) :
    Token s c p := by
  cases h with
  | spawned nc hnc hpos => exact .spawned nc (hall ▸ hnc) hpos
  | task k x' hx' halive' hkind' =>
      obtain ⟨x, hx, halive, hkind⟩ := htasks k x' hx' halive' hkind'
      exact .task k x hx halive hkind

/-- A cancelled removal is waited for as before when the clusters registered under the name
are, and no token is new. -/
theorem Cancelling.transport {name : String} {j : Nat} (h : Cancelling s name j)
    (htask : ∀ y, s.tasks[j]? = some y → ∃ y', s'.tasks[j]? = some y' ∧ y'.kind = y.kind)
    (hclusters : ∀ c nc, s'.clusters.get name = some c → s'.allClusters[c]? = some nc →
      s.clusters.get name = some c ∧ s.allClusters[c]? = some nc)
    (htokens : ∀ c p, Token s' c p → Token s c p) : Cancelling s' name j := by
  obtain ⟨⟨y, c, hy, hkind⟩, hregistered⟩ := h
  obtain ⟨y', hy', hkind'⟩ := htask y hy
  refine ⟨⟨y', c, hy', hkind'.trans hkind⟩, fun d nc hd hnc => ?_⟩
  obtain ⟨hold, hncOld⟩ := hclusters d nc hd hnc
  obtain ⟨hterm, hp⟩ := hregistered d nc hold hncOld
  exact ⟨hterm, fun p htoken => hp p (htokens d p htoken)⟩

/-- The locks do not matter, nor does `stop()`. -/
theorem Registry.frame (h : Registry s) (hclusters : s'.clusters = s.clusters)
    (hremovals : s'.clustersRemoveTasks = s.clustersRemoveTasks)
    (hall : s'.allClusters = s.allClusters) (htasks : s'.tasks = s.tasks) : Registry s' := by
  have hback : ∀ {c p}, Token s' c p → Token s c p := fun hp =>
    hp.back hall fun k x hx halive hkind => ⟨x, htasks ▸ hx, halive, hkind⟩
  refine ⟨?_, ?_, ?_, ?_, ?_, ?_, ?_, ?_, ?_⟩
  · rw [hall]
    exact h.life
  · rw [hclusters, hall]
    exact h.known
  · rw [htasks, hall]
    exact h.named
  · rw [hremovals, htasks]
    exact h.removals
  · rw [hall, hclusters]
    exact h.registered
  · rw [hall, hclusters]
    exact fun c nc p hnc hp => h.token c nc p hnc (hback hp)
  · exact fun c p r hp hr => h.oneToken c p r (hback hp) (hback hr)
  · intro k x j hx hj
    rw [htasks] at hx
    exact (h.cancelling k x j hx hj).transport (fun y hy => ⟨y, htasks ▸ hy, rfl⟩)
      (fun c nc hc hnc => ⟨hclusters ▸ hc, hall ▸ hnc⟩) fun c p => hback
  · rw [hall, htasks]
    exact h.watched

/-- A task goes on. -/
theorem Registry.setTask (h : Registry s) {k : Nat} {x y : ServiceTask}
    (hx : s.tasks[k]? = some x) (hkind : y.kind = x.kind) (hname : y.name = x.name)
    (halive : x.stage = .over → y.stage = .over)
    (hcancelling : ∀ j, y.stage = .cancelling j → Cancelling s y.name j)
    (hwatched : ∀ c t, x.stage = .starting c t → y.stage = x.stage ∨
      ∀ nc call, s.allClusters[c]? = some nc → nc.cluster.calls[t]? = some call →
        call.stage ≠ .starting) :
    Registry { s with tasks := s.tasks.set k y } := by
  have hback : ∀ {c p}, Token { s with tasks := s.tasks.set k y } c p → Token s c p := by
    intro c p hp
    refine hp.back rfl fun u z hz hzalive hzkind => ?_
    rcases Objects.set_cases hz with ⟨rfl, rfl, -⟩ | ⟨-, hold⟩
    · exact ⟨x, hx, fun hover => hzalive (halive hover), hkind ▸ hzkind⟩
    · exact ⟨z, hold, hzalive, hzkind⟩
  have hkeep : ∀ {u : Nat} {z : ServiceTask}, s.tasks[u]? = some z →
      ∃ z', (s.tasks.set k y)[u]? = some z' ∧ z'.kind = z.kind ∧ z'.name = z.name := by
    intro u z hz
    exact Objects.kept_of_set (p := fun z z' => z'.kind = z.kind ∧ z'.name = z.name)
      (fun _ => ⟨rfl, rfl⟩) hx ⟨hkind, hname⟩ hz
  have hcanc : ∀ {name : String} {j : Nat}, Cancelling s name j →
      Cancelling { s with tasks := s.tasks.set k y } name j := by
    intro name j hj
    refine hj.transport (fun z hz => ?_) (fun d nc hd hnc => ⟨hd, hnc⟩) fun c p => hback
    obtain ⟨z', hz', hzkind', -⟩ := hkeep hz
    exact ⟨z', hz', hzkind'⟩
  refine ⟨h.life, h.known, ?_, ?_, h.registered, ?_, ?_, ?_, ?_⟩
  · intro u z c hz hzkind
    rcases Objects.set_cases hz with ⟨rfl, rfl, -⟩ | ⟨-, hold⟩
    · rw [hname]
      exact h.named u x c hx (hkind ▸ hzkind)
    · exact h.named u z c hold hzkind
  · intro name j hj
    obtain ⟨z, c, hz, hzkind, hzname⟩ := h.removals name j hj
    obtain ⟨z', hz', hzkind', hzname'⟩ := hkeep hz
    exact ⟨z', c, hz', hzkind'.trans hzkind, hzname'.trans hzname⟩
  · exact fun c nc p hnc hp => h.token c nc p hnc (hback hp)
  · exact fun c p r hp hr => h.oneToken c p r (hback hp) (hback hr)
  · intro u z j hz hj
    rcases Objects.set_cases hz with ⟨rfl, rfl, -⟩ | ⟨-, hold⟩
    · exact hcanc (hcancelling j hj)
    · exact hcanc (h.cancelling u z j hold hj)
  · intro c nc t call hnc hcall hst
    obtain ⟨u, z, hz, hzstage, hzname⟩ := h.watched c nc t call hnc hcall hst
    by_cases huk : u = k
    · subst huk
      obtain rfl : x = z := Option.some.inj (hx.symm.trans hz)
      rcases hwatched c t hzstage with hsame | hnone
      · exact ⟨u, y, Objects.set_self hx, hsame.trans hzstage, hname.trans hzname⟩
      · exact absurd hst (hnone nc call hnc hcall)
    · exact ⟨u, z, Objects.set_old huk hz, hzstage, hzname⟩

/-- A task is created.  One that concerns a cluster needs that it is terminated and
registered, and has no token and nobody who cancels its removal. -/
theorem Registry.addTask (h : Registry s) {y : ServiceTask}
    (hstage : ∀ j, y.stage ≠ .cancelling j)
    (hconcerns : ∀ c, y.kind.concerns c = true →
      (∃ nc, s.allClusters[c]? = some nc ∧ nc.name = y.name ∧ nc.cluster.state = .terminated ∧
        s.clusters.get nc.name = some c) ∧ (∀ p, ¬ Token s c p) ∧ NobodyCancels s y.name) :
    Registry { s with tasks := s.tasks ++ [y] } := by
  -- a token is an old one, or the new task
  have hcases : ∀ {c p}, Token { s with tasks := s.tasks ++ [y] } c p →
      Token s c p ∨ (p = some s.tasks.length ∧ y.kind.concerns c = true) := by
    intro c p hp
    cases hp with
    | spawned nc hnc hpos => exact .inl (.spawned nc hnc hpos)
    | task k x hx halive hkind =>
        rcases Objects.append_cases hx with hold | ⟨rfl, rfl⟩
        · exact .inl (.task k x hold halive hkind)
        · exact .inr ⟨rfl, hkind⟩
  refine ⟨h.life, h.known, ?_, ?_, h.registered, ?_, ?_, ?_, ?_⟩
  · intro k x c hx hkind
    rcases Objects.append_cases hx with hold | ⟨-, rfl⟩
    · exact h.named k x c hold hkind
    · obtain ⟨⟨nc, hnc, hname, -⟩, -⟩ := hconcerns c hkind
      exact ⟨nc, hnc, hname⟩
  · intro name j hj
    obtain ⟨z, c, hz, hzkind⟩ := h.removals name j hj
    exact ⟨z, c, Objects.append_old hz, hzkind⟩
  · intro c nc p hnc hp
    rcases hcases hp with hold | ⟨-, hkind⟩
    · exact h.token c nc p hnc hold
    · obtain ⟨⟨nc', hnc', -, hterm, hreg⟩, -⟩ := hconcerns c hkind
      obtain rfl : nc = nc' := Option.some.inj (hnc.symm.trans hnc')
      exact ⟨hterm, hreg⟩
  · intro c p r hp hr
    rcases hcases hp with hold | ⟨rfl, hkind⟩
    · rcases hcases hr with hold' | ⟨-, hkind⟩
      · exact h.oneToken c p r hold hold'
      · exact absurd hold ((hconcerns c hkind).2.1 p)
    · rcases hcases hr with hold' | ⟨rfl, -⟩
      · exact absurd hold' ((hconcerns c hkind).2.1 r)
      · rfl
  · intro k x j hx hj
    rcases Objects.append_cases hx with hold | ⟨-, rfl⟩
    · obtain ⟨⟨z, c, hz, hzkind⟩, hregistered⟩ := h.cancelling k x j hold hj
      refine ⟨⟨z, c, Objects.append_old hz, hzkind⟩, fun d nc hd hnc => ?_⟩
      obtain ⟨hterm, htokens⟩ := hregistered d nc hd hnc
      refine ⟨hterm, fun p hp => ?_⟩
      rcases hcases hp with hp | ⟨-, hkind⟩
      · exact htokens p hp
      · -- the new task's cluster is not the one whose removal is cancelled
        obtain ⟨⟨nc', hnc', hname, -⟩, -, hnobody⟩ := hconcerns d hkind
        obtain ⟨nc'', hnc'', hname'⟩ := h.known x.name d hd
        have hnc'' : s.allClusters[d]? = some nc'' := hnc''
        obtain rfl : nc' = nc'' := Option.some.inj (hnc'.symm.trans hnc'')
        exact absurd (hname'.symm.trans hname) (hnobody k x j hold hj)
    · exact absurd hj (hstage j)
  · intro c nc t call hnc hcall hst
    obtain ⟨k, x, hx, hxstage⟩ := h.watched c nc t call hnc hcall hst
    exact ⟨k, x, Objects.append_old hx, hxstage⟩

/-- A cluster goes on.  If it was terminated and is not any more, then it is
registered, and has no token and nobody who cancels its removal. -/
theorem Registry.moveCluster (h : Registry s) {c : Nat} {nc : NamedCluster} {cl : Cluster}
    (hnc : s.allClusters[c]? = some nc) (hlife : cl.Life)
    (honStop : nc.cluster.onStop < cl.onStop → nc.cluster.state = .terminating)
    (hstate : nc.cluster.state = .terminated → cl.state ≠ .terminated →
      s.clusters.get nc.name = some c ∧ (∀ p, ¬ Token s c p) ∧ NobodyCancels s nc.name)
    (hstarting : ∀ t call, cl.calls[t]? = some call → call.stage = .starting →
      ∃ (k : Nat) (x : ServiceTask), s.tasks[k]? = some x ∧ x.stage = .starting c t ∧
        x.name = nc.name) :
    Registry { s with allClusters := s.allClusters.set c (nc.become cl) } := by
  -- a token of a cluster that was not terminated is the callback it just made
  have hcases : ∀ {d p}, Token { s with allClusters := s.allClusters.set c (nc.become cl) } d p →
      Token s d p ∨ (d = c ∧ p = none ∧ 0 < cl.onStop ∧ nc.cluster.state = .terminating) := by
    intro d p hp
    cases hp with
    | spawned mc hmc hpos =>
        rcases Objects.set_cases hmc with ⟨rfl, rfl, -⟩ | ⟨-, hold⟩
        · have hpos : 0 < cl.onStop := hpos
          by_cases hmore : nc.cluster.onStop < cl.onStop
          · exact .inr ⟨rfl, rfl, hpos, honStop hmore⟩
          · exact .inl (.spawned nc hnc (by omega))
        · exact .inl (.spawned mc hold hpos)
    | task k x hx halive hkind => exact .inl (.task k x hx halive hkind)
  have hterminated : ∀ {p}, Token s c p → cl.state = .terminated := by
    intro p hp
    by_contra hne
    exact (hstate (h.token c nc p hnc hp).1 hne).2.1 p hp
  have hkeep : ∀ {d : Nat} {mc : NamedCluster}, s.allClusters[d]? = some mc →
      ∃ mc', (s.allClusters.set c (nc.become cl))[d]? = some mc' ∧ mc'.name = mc.name := by
    intro d mc hmc
    exact Objects.kept_of_set (p := fun mc mc' => mc'.name = mc.name) (y := nc.become cl)
      (fun _ => rfl) hnc rfl hmc
  refine ⟨?_, ?_, ?_, h.removals, ?_, ?_, ?_, ?_, ?_⟩
  · intro d mc hmc
    rcases Objects.set_cases hmc with ⟨-, rfl, -⟩ | ⟨-, hold⟩
    · exact hlife
    · exact h.life d mc hold
  · intro name d hd
    obtain ⟨mc, hmc, hname⟩ := h.known name d hd
    obtain ⟨mc', hmc', hname'⟩ := hkeep hmc
    exact ⟨mc', hmc', hname'.trans hname⟩
  · intro k x d hx hkind
    obtain ⟨mc, hmc, hname⟩ := h.named k x d hx hkind
    obtain ⟨mc', hmc', hname'⟩ := hkeep hmc
    exact ⟨mc', hmc', hname'.trans hname⟩
  · intro d mc hmc hne
    rcases Objects.set_cases hmc with ⟨rfl, rfl, -⟩ | ⟨-, hold⟩
    · by_cases hterm : nc.cluster.state = .terminated
      · exact (hstate hterm hne).1
      · exact h.registered d nc hnc hterm
    · exact h.registered d mc hold hne
  · intro d mc p hmc hp
    rcases hcases hp with hold | ⟨rfl, rfl, hpos, hterminating⟩
    · rcases Objects.set_cases hmc with ⟨rfl, rfl, -⟩ | ⟨-, hmc⟩
      · exact ⟨hterminated hold, (h.token d nc p hnc hold).2⟩
      · exact h.token d mc p hmc hold
    · obtain rfl : mc = nc.become cl := Option.some.inj (hmc.symm.trans (Objects.set_self hnc))
      exact ⟨hlife.callbacks hpos, h.registered d nc hnc (by simp [hterminating])⟩
  · intro d p r hp hr
    -- a terminating cluster has no token
    have hnone : ∀ {r}, nc.cluster.state = .terminating → ¬ Token s c r := by
      intro r hterminating hr
      rw [(h.token c nc r hnc hr).1] at hterminating
      cases hterminating
    rcases hcases hp with hold | ⟨rfl, rfl, -, hterminating⟩
    · rcases hcases hr with hold' | ⟨rfl, rfl, -, hterminating⟩
      · exact h.oneToken d p r hold hold'
      · exact absurd hold (hnone hterminating)
    · rcases hcases hr with hold' | ⟨-, rfl, -⟩
      · exact absurd hold' (hnone hterminating)
      · rfl
  · intro k x j hx hj
    obtain ⟨hremoval, hregistered⟩ := h.cancelling k x j hx hj
    refine ⟨hremoval, fun d mc hd hmc => ?_⟩
    rcases Objects.set_cases hmc with ⟨rfl, rfl, -⟩ | ⟨hne, hold⟩
    · obtain ⟨hterm, htokens⟩ := hregistered d nc hd hnc
      have hname : nc.name = x.name := by
        obtain ⟨mc, hmc, hname⟩ := h.known x.name d hd
        obtain rfl : nc = mc := Option.some.inj (hnc.symm.trans hmc)
        exact hname
      refine ⟨?_, fun p hp => ?_⟩
      · show cl.state = .terminated
        by_contra hne
        exact (hstate hterm hne).2.2 k x j hx hj hname.symm
      · rcases hcases hp with hp | ⟨-, -, -, hterminating⟩
        · exact htokens p hp
        · rw [hterm] at hterminating
          cases hterminating
    · obtain ⟨hterm, htokens⟩ := hregistered d mc hd hold
      refine ⟨hterm, fun p hp => ?_⟩
      rcases hcases hp with hp | ⟨rfl, -⟩
      · exact htokens p hp
      · exact absurd rfl hne
  · intro d mc t call hmc hcall hst
    rcases Objects.set_cases hmc with ⟨rfl, rfl, -⟩ | ⟨-, hold⟩
    · exact hstarting t call hcall hst
    · exact h.watched d mc t call hold hcall hst

/-- The cluster registered under `name` is a stopped one without tokens, if any, and
nobody cancels its removal. -/
structure Vacant (s : RayService) (name : String) : Prop where
  registered : ∀ (c : Nat) (nc : NamedCluster), s.clusters.get name = some c →
    s.allClusters[c]? = some nc → nc.cluster.state = .terminated ∧ ∀ p, ¬ Token s c p
  nobody : NobodyCancels s name

/-- A vacant name's cluster is what a change of the entry drops. -/
theorem Vacant.kept {name : String} (hvacant : Vacant s name) {c : Nat} {nc : NamedCluster}
    (hnc : s.allClusters[c]? = some nc)
    (hreg : s.clusters.get nc.name = some c)
    (hlive : nc.cluster.state ≠ .terminated ∨ ∃ p, Token s c p) : nc.name ≠ name := by
  rintro rfl
  obtain ⟨hterm, hnone⟩ := hvacant.registered c nc hreg hnc
  rcases hlive with hne | ⟨p, hp⟩
  · exact hne hterm
  · exact hnone p hp

/-- The cluster of a vacant name is deleted. -/
theorem Registry.erase (h : Registry s) {name : String} (hvacant : Vacant s name) :
    Registry { s with clusters := s.clusters.erase name } := by
  have hget : ∀ {name' : String} {c : Nat}, (s.clusters.erase name).get name' = some c →
      s.clusters.get name' = some c := by
    intro name' c hc
    by_cases hname : name' = name
    · subst hname
      rw [Dict.get_erase_self] at hc
      cases hc
    · rwa [Dict.get_erase_ne _ hname] at hc
  have hback : ∀ {c p}, Token { s with clusters := s.clusters.erase name } c p → Token s c p :=
    fun hp => hp.back rfl fun k x hx halive hkind => ⟨x, hx, halive, hkind⟩
  refine ⟨h.life, ?_, h.named, h.removals, ?_, ?_, ?_, ?_, h.watched⟩
  · exact fun name' c hc => h.known name' c (hget hc)
  · intro c nc hnc hne
    have hreg := h.registered c nc hnc hne
    show (s.clusters.erase name).get nc.name = some c
    rw [Dict.get_erase_ne _ (hvacant.kept hnc hreg (.inl hne))]
    exact hreg
  · intro c nc p hnc hp
    obtain ⟨hterm, hreg⟩ := h.token c nc p hnc (hback hp)
    refine ⟨hterm, ?_⟩
    show (s.clusters.erase name).get nc.name = some c
    rw [Dict.get_erase_ne _ (hvacant.kept hnc hreg (.inr ⟨p, hback hp⟩))]
    exact hreg
  · exact fun c p r hp hr => h.oneToken c p r (hback hp) (hback hr)
  · intro k x j hx hj
    exact (h.cancelling k x j hx hj).transport (fun y hy => ⟨y, hy, rfl⟩)
      (fun c nc hc hnc => ⟨hget hc, hnc⟩) fun c p => hback

/-- A new cluster is registered under a vacant name, with the task that starts it. -/
theorem Registry.addCluster (h : Registry s) {name : String} (hvacant : Vacant s name)
    {q : Request} {k : Nat} {x : ServiceTask} (hx : s.tasks[k]? = some x)
    (hstage : x.stage = .starting s.allClusters.length 0) (hname : x.name = name) :
    Registry { s with
      clusters := s.clusters.set name s.allClusters.length
      allClusters := s.allClusters ++ [⟨name, Cluster.start {} q⟩] } := by
  have hfresh : ∀ {nc : NamedCluster}, s.allClusters[s.allClusters.length]? ≠ some nc := by simp
  have hback : ∀ {c p}, Token { s with
      clusters := s.clusters.set name s.allClusters.length
      allClusters := s.allClusters ++ [⟨name, Cluster.start {} q⟩] } c p → Token s c p := by
    intro c p hp
    cases hp with
    | spawned nc hnc hpos =>
        rcases Objects.append_cases hnc with hold | ⟨-, rfl⟩
        · exact .spawned nc hold hpos
        · exact absurd hpos (Nat.lt_irrefl 0)
    | task u y hy halive hkind => exact .task u y hy halive hkind
  have hother : ∀ {c : Nat} {nc : NamedCluster}, s.allClusters[c]? = some nc →
      s.clusters.get nc.name = some c → (nc.cluster.state ≠ .terminated ∨ ∃ p, Token s c p) →
        (s.clusters.set name s.allClusters.length).get nc.name = some c := by
    intro c nc hnc hreg hlive
    rw [Dict.get_set_ne _ (hvacant.kept hnc hreg hlive)]
    exact hreg
  have hlife : (Cluster.start {} q).Life := by
    have hstep : Cluster.Step (fun _ => "") {} (.start q) (Cluster.start {} q) :=
      Cluster.step_cases rfl
    have hcarries : Cluster.Carries {} (.start q) := Or.inl rfl
    exact (Cluster.life_initial rfl).step hcarries hstep
  refine ⟨?_, ?_, ?_, h.removals, ?_, ?_, ?_, ?_, ?_⟩
  · intro c nc hnc
    rcases Objects.append_cases hnc with hold | ⟨-, rfl⟩
    · exact h.life c nc hold
    · exact hlife
  · intro name' c hc
    by_cases hn : name' = name
    · subst hn
      have hc : (s.clusters.set name' s.allClusters.length).get name' = some c := hc
      rw [Dict.get_set_self] at hc
      obtain rfl := Option.some.inj hc
      exact ⟨_, List.getElem?_concat_length, rfl⟩
    · have hc : (s.clusters.set name s.allClusters.length).get name' = some c := hc
      rw [Dict.get_set_ne _ hn] at hc
      obtain ⟨nc, hnc, hncname⟩ := h.known name' c hc
      exact ⟨nc, Objects.append_old hnc, hncname⟩
  · intro u y c hy hkind
    obtain ⟨nc, hnc, hncname⟩ := h.named u y c hy hkind
    exact ⟨nc, Objects.append_old hnc, hncname⟩
  · intro c nc hnc hne
    rcases Objects.append_cases hnc with hold | ⟨rfl, rfl⟩
    · exact hother hold (h.registered c nc hold hne) (.inl hne)
    · exact Dict.get_set_self ..
  · intro c nc p hnc hp
    rcases Objects.append_cases hnc with hold | ⟨rfl, rfl⟩
    · obtain ⟨hterm, hreg⟩ := h.token c nc p hold (hback hp)
      exact ⟨hterm, hother hold hreg (.inr ⟨p, hback hp⟩)⟩
    · -- nothing concerned the new cluster before
      cases hback hp with
      | spawned nc hnc => exact absurd hnc hfresh
      | task u y hy halive hkind =>
          obtain ⟨nc, hnc, -⟩ := h.named u y _ hy hkind
          exact absurd hnc hfresh
  · exact fun c p r hp hr => h.oneToken c p r (hback hp) (hback hr)
  · intro u y j hy hj
    refine (h.cancelling u y j hy hj).transport (fun z hz => ⟨z, hz, rfl⟩)
      (fun c nc hc hnc => ?_) fun c p => hback
    have hc : (s.clusters.set name s.allClusters.length).get y.name = some c := hc
    rw [Dict.get_set_ne _ (hvacant.nobody u y j hy hj)] at hc
    obtain ⟨nc', hnc', -⟩ := h.known y.name c hc
    obtain rfl : nc' = nc := Option.some.inj ((Objects.append_old hnc').symm.trans hnc)
    exact ⟨hc, hnc'⟩
  · intro c nc t call hnc hcall hst
    rcases Objects.append_cases hnc with hold | ⟨rfl, rfl⟩
    · exact h.watched c nc t call hold hcall hst
    · -- its only call is the one that starts it
      have hcall : [(⟨q, q.nodeConfig, .starting⟩ : Call)][t]? = some call := hcall
      have ht : t = 0 := by
        obtain ⟨hlt, -⟩ := List.getElem?_eq_some_iff.mp hcall
        simpa using hlt
      exact ⟨k, x, hx, ht ▸ hstage, hname⟩

/-- The removal tasks are known as removals of their name. -/
theorem Registry.setRemovals (h : Registry s) (d : Dict String Nat)
    (hd : ∀ (name : String) (j : Nat), d.get name = some j →
      s.clustersRemoveTasks.get name = some j ∨
        ∃ y c, s.tasks[j]? = some y ∧ y.kind = .removeCluster c ∧ y.name = name) :
    Registry { s with clustersRemoveTasks := d } := by
  have hback : ∀ {c p}, Token { s with clustersRemoveTasks := d } c p → Token s c p :=
    fun hp => hp.back rfl fun k x hx halive hkind => ⟨x, hx, halive, hkind⟩
  refine ⟨h.life, h.known, h.named, ?_, h.registered, ?_, ?_, ?_, h.watched⟩
  · intro name j hj
    rcases hd name j hj with hold | hnew
    · exact h.removals name j hold
    · exact hnew
  · exact fun c nc p hnc hp => h.token c nc p hnc (hback hp)
  · exact fun c p r hp hr => h.oneToken c p r (hback hp) (hback hr)
  · intro k x j hx hj
    exact (h.cancelling k x j hx hj).transport (fun y hy => ⟨y, hy, rfl⟩)
      (fun c nc hc hnc => ⟨hc, hnc⟩) fun c p => hback

end RayService
