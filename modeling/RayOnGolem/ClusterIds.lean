import RayOnGolem.ClusterTerminated

/-!
# Node ids

`request_nodes` numbers the nodes of a cluster with a counter, and `stop()` takes the
counter back to zero when it empties the dictionary of nodes.

Main result: `node_ids_stable` -- in every reachable state the dictionary lists the nodes
in the order of their ids and of their creation, under the ids they were given, and
until a `stop()` ends an id goes on naming the node that it names: whatever is
registered meanwhile gets an id that was not used since the last `stop()` ended.
-/

namespace NodeView

/-- What never changes of a node. -/
def SameNode (v w : NodeView) : Prop :=
  w.nodeId = v.nodeId ∧ w.isHead = v.isHead ∧ w.managerStacks = v.managerStacks

theorem SameNode.refl (v : NodeView) : v.SameNode v := ⟨rfl, rfl, rfl⟩

theorem SameNode.trans {u v w : NodeView} (h : u.SameNode v) (h' : v.SameNode w) :
    u.SameNode w :=
  ⟨h'.1.trans h.1, h'.2.1.trans h.2.1, h'.2.2.trans h.2.2⟩

theorem sameNode_stop (v : NodeView) (callEvents : Bool) : v.SameNode (v.stop callEvents) := by
  unfold stop
  split
  · exact ⟨rfl, rfl, rfl⟩
  · exact .refl v

end NodeView

namespace Cluster

open Runs

variable {digest : NodeConfigData → String} {s s' s'' : Cluster} {a : Act}

/-- The dictionary of nodes names each node by its own id, in order. -/
structure IdsOrdered (s : Cluster) : Prop where
  fresh : IdsFresh s
  named : ∀ (id n : Nat), s.nodes.get id = some n →
    ∃ v, s.allNodes[n]? = some v ∧ v.nodeId = id
  keys : s.nodes.keys.Pairwise (· < ·)
  values : s.nodes.values.Pairwise (· < ·)

/-- From `s` to `s'` ids keep their nodes, and new ids are unused ones for new nodes. -/
structure IdsKept (s s' : Cluster) : Prop where
  counter : s.nodesIdCounter ≤ s'.nodesIdCounter
  kept : ∀ (id n : Nat), s.nodes.get id = some n → s'.nodes.get id = some n
  unused : ∀ (id n : Nat), s'.nodes.get id = some n → s.nodes.get id = none →
    s.nodesIdCounter ≤ id ∧ s.allNodes.length ≤ n
  nodes : ∀ (n : Nat) (v : NodeView), s.allNodes[n]? = some v →
    ∃ w, s'.allNodes[n]? = some w ∧ v.SameNode w

/-- The step with which a `stop()` ends. -/
def endsStop : Act → Bool
  | .stopping _ .paymentStopped => true
  | _ => false

/-! ### Ids that are kept -/

theorem IdsKept.length_le (h : IdsKept s s') : s.allNodes.length ≤ s'.allNodes.length := by
  by_contra hlt
  obtain ⟨w, hw, -⟩ := h.nodes s'.allNodes.length _ (List.getElem?_eq_getElem (by omega))
  simp at hw

theorem IdsKept.refl (s : Cluster) : IdsKept s s :=
  ⟨Nat.le_refl _, fun _ _ h => h, fun _ _ h hnone => by simp [hnone] at h,
    fun _ v h => ⟨v, h, .refl v⟩⟩

theorem IdsKept.trans (h : IdsKept s s') (h' : IdsKept s' s'') : IdsKept s s'' := by
  refine ⟨Nat.le_trans h.counter h'.counter, fun id n hn => h'.kept id n (h.kept id n hn), ?_, ?_⟩
  · intro id n hn hnone
    cases hmid : s'.nodes.get id with
    | none =>
        obtain ⟨hid, hnew⟩ := h'.unused id n hn hmid
        exact ⟨Nat.le_trans h.counter hid, Nat.le_trans h.length_le hnew⟩
    | some m =>
        obtain rfl : m = n := Option.some.inj ((h'.kept id m hmid).symm.trans hn)
        exact h.unused id m hmid hnone
  · intro n v hv
    obtain ⟨w, hw, hvw⟩ := h.nodes n v hv
    obtain ⟨u, hu, hwu⟩ := h'.nodes n w hw
    exact ⟨u, hu, hvw.trans hwu⟩

/-- Nothing about the nodes changes. -/
theorem idsKept_same (hall : s'.allNodes = s.allNodes) (hnodes : s'.nodes = s.nodes)
    (hcounter : s'.nodesIdCounter = s.nodesIdCounter) : IdsKept s s' := by
  refine ⟨hcounter.ge, fun id m hm => hnodes ▸ hm, ?_, fun n v hv => ⟨v, hall ▸ hv, .refl v⟩⟩
  intro id m hm hnone
  rw [hnodes, hnone] at hm
  cases hm

/-- A node changes, and stays the same node. -/
theorem idsKept_setNode {n : Nat} {v w : NodeView} (hv : s.allNodes[n]? = some v)
    (hall : s'.allNodes = s.allNodes.set n w) (hsame : v.SameNode w) (hnodes : s'.nodes = s.nodes)
    (hcounter : s'.nodesIdCounter = s.nodesIdCounter) : IdsKept s s' := by
  refine ⟨hcounter.ge, fun id m hm => hnodes ▸ hm, ?_, ?_⟩
  · intro id m hm hnone
    rw [hnodes, hnone] at hm
    cases hm
  · rw [hall]
    exact fun k u hu => Objects.kept_of_set NodeView.SameNode.refl hv hsame hu

/-- A node is added. -/
theorem IdsFresh.idsKept_addNode (h : IdsFresh s) (hd : Bool) (r : Nat) (p : Option Nat) :
    IdsKept s (s.addNode hd r p) := by
  have hget : s.nodes.get s.nodesIdCounter = none := h _ (Nat.le_refl _)
  refine ⟨Nat.le_succ _, ?_, ?_, fun n v hv => ⟨v, Objects.append_old hv, .refl v⟩⟩
  · intro id n hn
    have hne : id ≠ s.nodesIdCounter := by
      rintro rfl
      simp [hget] at hn
    exact (Dict.get_set_ne s.nodes hne _).trans hn
  · intro id n hn hnone
    by_cases hid : id = s.nodesIdCounter
    · subst hid
      obtain rfl : s.allNodes.length = n := by simpa [Cluster.addNode] using hn
      exact ⟨Nat.le_refl _, Nat.le_refl _⟩
    · have hold : s.nodes.get id = some n := (Dict.get_set_ne s.nodes hid _).symm.trans hn
      simp [hnone] at hold

theorem IdsFresh.idsKept_addNodes (hd : Bool) (r : Nat) (p : Option Nat) (k : Nat)
    (h : IdsFresh s) : IdsKept s (Cluster.addNodes hd r p k s) := by
  induction k generalizing s with
  | zero => exact .refl s
  | succ k ih => exact (h.idsKept_addNode hd r p).trans (ih (h.addNode hd r p))

/-- Until a `stop()` ends, each step keeps the ids. -/
theorem IdsFresh.idsKept_step (h : IdsFresh s) (hs : Step digest s a s')
    (hends : endsStop a = false) : IdsKept s s' := by
  cases hs with
  | finishes t k c r p id =>
      have hadd := h.idsKept_addNodes c.request.isHead r p k
      exact ⟨Nat.le_add_right_of_le hadd.counter, hadd.kept, hadd.unused, hadd.nodes⟩
  | stopsNode i n σ todo busy v hσ hpc hv =>
      exact idsKept_setNode hv rfl (v.sameNode_stop false) rfl rfl
  | nodeReady n v hv => exact idsKept_setNode hv rfl ⟨rfl, rfl, rfl⟩ rfl rfl
  | nodeStartFailed n v hv => exact idsKept_setNode hv rfl ⟨rfl, rfl, rfl⟩ rfl rfl
  | nodeStop n v hv => exact idsKept_setNode hv rfl (v.sameNode_stop true) rfl rfl
  | nodeStopped n v ce hv => exact idsKept_setNode hv rfl ⟨rfl, rfl, rfl⟩ rfl rfl
  | nodeStopRaised n v ce hv => exact idsKept_setNode hv rfl ⟨rfl, rfl, rfl⟩ rfl rfl
  | paymentStopped => cases hends
  | _ => exact idsKept_same rfl rfl rfl

/-! ### Ids in order -/

theorem idsOrdered_initial (h : Initial s) : IdsOrdered s := by
  obtain rfl := h
  exact ⟨fun _ _ => rfl, fun _ _ hn => (by cases hn), .nil, .nil⟩

/-- Nodes that stay the same keep their order. -/
theorem IdsOrdered.frame (h : IdsOrdered s) (hkept : IdsKept s s') (hnodes : s'.nodes = s.nodes)
    (hfresh : IdsFresh s') : IdsOrdered s' := by
  refine ⟨hfresh, ?_, hnodes ▸ h.keys, hnodes ▸ h.values⟩
  intro id n hn
  rw [hnodes] at hn
  obtain ⟨v, hv, rfl⟩ := h.named id n hn
  obtain ⟨w, hw, hsame, -⟩ := hkept.nodes n v hv
  exact ⟨w, hw, hsame⟩

/-- Registered ids are below the counter. -/
theorem IdsFresh.id_lt (h : IdsFresh s) {id : Nat} (hid : id ∈ s.nodes.keys) :
    id < s.nodesIdCounter := by
  by_contra hge
  exact Dict.mem_keys_iff.mp hid (h id (by omega))

/-- Registered nodes exist and stand under their ids. -/
theorem IdsOrdered.registered (h : IdsOrdered s) {n : Nat} (hn : n ∈ s.nodes.values) :
    ∃ v, s.allNodes[n]? = some v ∧ s.nodes.get v.nodeId = some n := by
  obtain ⟨⟨id, m⟩, hmem, rfl⟩ := List.mem_map.mp hn
  have hnodup : s.nodes.keys.Nodup := h.keys.imp fun hlt => Nat.ne_of_lt hlt
  have hget := Dict.get_of_mem_items hnodup hmem
  obtain ⟨v, hv, rfl⟩ := h.named id m hget
  exact ⟨v, hv, hget⟩

theorem IdsOrdered.node_lt (h : IdsOrdered s) {n : Nat} (hn : n ∈ s.nodes.values) :
    n < s.allNodes.length := by
  obtain ⟨v, hv, -⟩ := h.registered hn
  exact (List.getElem?_eq_some_iff.mp hv).1

theorem IdsOrdered.addNode (h : IdsOrdered s) (hd : Bool) (r : Nat) (p : Option Nat) :
    IdsOrdered (s.addNode hd r p) := by
  have hget : s.nodes.get s.nodesIdCounter = none := h.fresh _ (Nat.le_refl _)
  have hitems : (s.addNode hd r p).nodes.items =
      s.nodes.items ++ [(s.nodesIdCounter, s.allNodes.length)] := by
    simp [Cluster.addNode, Dict.set, hget]
  refine ⟨h.fresh.addNode hd r p, ?_, ?_, ?_⟩
  · intro id n hn
    by_cases hid : id = s.nodesIdCounter
    · subst hid
      obtain rfl : s.allNodes.length = n := by simpa [Cluster.addNode] using hn
      exact ⟨⟨s.nodesIdCounter, hd, r, p, .pending, none⟩, by simp [Cluster.addNode], rfl⟩
    · have hold : s.nodes.get id = some n := (Dict.get_set_ne s.nodes hid _).symm.trans hn
      obtain ⟨v, hv, hvid⟩ := h.named id n hold
      exact ⟨v, Objects.append_old hv, hvid⟩
  · rw [Dict.keys, hitems, List.map_append, List.pairwise_append]
    refine ⟨h.keys, by simp, ?_⟩
    intro id hid k hk
    obtain rfl : k = s.nodesIdCounter := by simpa using hk
    exact h.fresh.id_lt hid
  · rw [Dict.values, hitems, List.map_append, List.pairwise_append]
    refine ⟨h.values, by simp, ?_⟩
    intro n hn k hk
    obtain rfl : k = s.allNodes.length := by simpa using hk
    exact h.node_lt hn

theorem IdsOrdered.addNodes (hd : Bool) (r : Nat) (p : Option Nat) (k : Nat)
    (h : IdsOrdered s) : IdsOrdered (Cluster.addNodes hd r p k s) := by
  induction k generalizing s with
  | zero => exact h
  | succ k ih => exact ih (h.addNode hd r p)

theorem IdsOrdered.step (h : IdsOrdered s) (hs : Step digest s a s') : IdsOrdered s' := by
  have hfresh := h.fresh.step hs
  by_cases hends : endsStop a = true
  · cases hs with
    | paymentStopped => exact ⟨hfresh, fun _ _ hn => (by cases hn), .nil, .nil⟩
    | _ => cases hends
  · have hkept := h.fresh.idsKept_step hs (by simpa using hends)
    cases hs with
    | finishes t k c r p id =>
        have hadd := h.addNodes c.request.isHead r p k
        exact ⟨hfresh, hadd.named, hadd.keys, hadd.values⟩
    | paymentStopped => exact absurd rfl hends
    | _ => exact h.frame hkept rfl hfresh

theorem idsOrdered_of_reach (h : Reachable Initial (Cluster.step digest) s) : IdsOrdered s :=
  h.invariant (fun _ => idsOrdered_initial) fun _ _ _ hs _ hstep => hs.step (step_cases hstep)

/-- **Node ids are stable.**  In every reachable state the nodes are listed in the order of
their ids and of their creation, each under its own id, and in every continuation in which
no `stop()` ends an id names the node that it named, and a new id is one that the counter had
not reached, so that it was not used since the last `stop()` ended. -/
theorem node_ids_stable (h : Reachable Initial (step digest) s)
    (hrun : Reach (fun t => t = s) (step digest) (fun _ a => endsStop a = false) s') :
    IdsOrdered s' ∧ IdsKept s s' := by
  refine hrun.invariant (I := fun t => IdsOrdered t ∧ IdsKept s t) ?_ ?_
  · rintro t rfl
    exact ⟨idsOrdered_of_reach h, .refl t⟩
  · rintro t b t' ⟨hordered, hkept⟩ hends hstep
    have hs := step_cases hstep
    exact ⟨hordered.step hs, hkept.trans (hordered.fresh.idsKept_step hs hends)⟩

/-- A first request adds one node. -/
def oneNode : List Act :=
  requestUntilCreate ⟨publicConfig, 1, false⟩ 0 false ++ requestAfterCreate 0 1

/-- While this node is stopped, a second request finds its stack and adds two nodes. -/
def moreNodes : List Act :=
  [.node 0 .stop, .start ⟨publicConfig, 2, false⟩, .call 1 .prepare, .call 1 .lookup,
    .call 1 (.finishRequest 2)]

theorem node_ids_stable_moreNodes :
    ∃ s s', exec (step exampleDigest) oneNode {} = some s ∧
      exec (guarded (step exampleDigest) fun _ a => !endsStop a) moreNodes s = some s' ∧
      s'.nodes.keys = [0, 1, 2] ∧ IdsOrdered s' ∧ IdsKept s s' := by
  have hrun : ((exec (step exampleDigest) oneNode {}).bind
      (exec (guarded (step exampleDigest) fun _ a => !endsStop a) moreNodes)).map
        (fun s => s.nodes.keys) = some [0, 1, 2] := rfl
  obtain ⟨s', hboth, hkeys⟩ := Option.map_eq_some_iff.mp hrun
  obtain ⟨s, hs, hs'⟩ := Option.bind_eq_some_iff.mp hboth
  have hrest : Reach (fun t => t = s) (step exampleDigest) (fun _ a => (!endsStop a) = true) s' :=
    Reach.execGuarded moreNodes (.start rfl) hs'
  exact ⟨s, s', hs, hs', hkeys, node_ids_stable (Reach.exec oneNode (.start rfl) hs)
    (hrest.mono fun _ _ h => by simpa using h)⟩

end Cluster
