import RayOnGolem.NodeProvider

/-!
# What `create_node` reports

The loop of `create_node` only looks at the requested nodes that the polled state
lists.  A node that is not listed, because the cluster stopped and cleared its nodes,
is neither running nor terminated for the three tests; when none is left, the first of
them is vacuous and the request is reported as ready.

`Decides` says which poll the loop ends at with success: every poll before it left a
listed node that did not run yet and none that was terminated.  Main results:

* `createNode_success_iff` -- the loop ends with success exactly at such a poll, and
  returns the requested nodes it lists;
* `create_node_reports_own` -- the report is right if and only if that poll lists every
  requested node;
* `missing_nodes_ready` -- a stopped cluster without nodes is reported as ready.
-/

namespace NodeProvider

variable {count : Nat} {requestedNodeIds : List NodeId} {s : ClusterData} {polls : List Poll}

/-- The ids of the requested nodes that a polled state lists. -/
def listedIds (requestedNodeIds : List NodeId) (s : ClusterData) : List NodeId :=
  (requestedNodes requestedNodeIds s).map (·.nodeId)

/-- **The poll that the loop ends at with success**: every listed node runs, no poll
before it ended the loop, and no poll lists a node that the one before did not (`known`
are the ids of the poll before). -/
inductive Decides (requestedNodeIds : List NodeId) :
    List NodeId → List Poll → ClusterData → Prop
  | here {known : List NodeId} {poll : Poll} {polls : List Poll} {s : ClusterData}
      (hpoll : poll.clusterState = some s) (hknown : listedIds requestedNodeIds s ⊆ known)
      (hrunning : ∀ node ∈ requestedNodes requestedNodeIds s, node.state = .running) :
      Decides requestedNodeIds known (poll :: polls) s
  | later {known : List NodeId} {poll : Poll} {polls : List Poll} {s s' : ClusterData}
      (hpoll : poll.clusterState = some s) (hknown : listedIds requestedNodeIds s ⊆ known)
      (hwaits : ∃ node ∈ requestedNodes requestedNodeIds s, node.state ≠ .running)
      (hlive : ∀ node ∈ requestedNodes requestedNodeIds s, node.state ≠ .terminated)
      (h : Decides requestedNodeIds (listedIds requestedNodeIds s) polls s') :
      Decides requestedNodeIds known (poll :: polls) s'

/-! ### What is monitored -/

theorem values_map_nodeId (s : ClusterData) : s.nodes.values.map (·.nodeId) = s.nodes.keys := by
  rw [Dict.values, Dict.keys, List.map_map]
  apply List.map_congr_left
  intro p hp
  exact s.keyed p hp

theorem nodup_listedIds (requestedNodeIds : List NodeId) (s : ClusterData) :
    (listedIds requestedNodeIds s).Nodup := by
  have hsub : (listedIds requestedNodeIds s).Sublist s.nodes.keys := by
    rw [← values_map_nodeId]
    exact List.filter_sublist.map _
  exact s.nodup.sublist hsub

@[simp] theorem values_monitoredNodes (requestedNodeIds : List NodeId) (s : ClusterData) :
    (monitoredNodes requestedNodeIds s).values = requestedNodes requestedNodeIds s := by
  rw [monitoredNodes, Dict.values,
    Dict.items_collect_of_nodup (nodup_listedIds requestedNodeIds s), List.map_map]
  exact List.map_id _

theorem mem_keys_monitoredNodes {id : NodeId} :
    id ∈ (monitoredNodes requestedNodeIds s).keys ↔ id ∈ listedIds requestedNodeIds s :=
  Dict.mem_keys_collect

theorem mem_listedIds_iff {id : NodeId} :
    id ∈ listedIds requestedNodeIds s ↔ id ∈ requestedNodeIds ∧ id ∈ s.nodes.keys := by
  rw [← values_map_nodeId, listedIds, requestedNodes, List.mem_map, List.mem_map]
  constructor
  · rintro ⟨node, hnode, rfl⟩
    obtain ⟨hmem, hreq⟩ := List.mem_filter.mp hnode
    exact ⟨by simpa using hreq, node, hmem, rfl⟩
  · rintro ⟨hreq, node, hmem, rfl⟩
    exact ⟨node, List.mem_filter.mpr ⟨hmem, by simpa using hreq⟩, rfl⟩

/-- A requested node that the state has is monitored. -/
theorem get_of_mem_listedIds {id : NodeId} (h : id ∈ listedIds requestedNodeIds s) :
    ∃ node ∈ requestedNodes requestedNodeIds s, s.nodes.get id = some node := by
  obtain ⟨node, hnode, rfl⟩ := List.mem_map.mp h
  refine ⟨node, hnode, ?_⟩
  obtain ⟨p, hp, rfl⟩ := List.mem_map.mp (List.mem_filter.mp hnode).1
  apply Dict.get_of_mem_items s.nodup
  rw [s.keyed p hp]
  exact hp

/-- `_print_node_state` raises when a node was not in the last poll. -/
theorem printNodeState_ok {sizes : Dict NodeId Nat} {nodes : List NodeData} :
    (printNodeState sizes nodes).2 = none ↔ ∀ node ∈ nodes, node.nodeId ∈ sizes.keys := by
  induction nodes with
  | nil => simp [printNodeState]
  | cons node nodes ih =>
      rw [List.forall_mem_cons, ← ih, Dict.mem_keys_iff, printNodeState]
      cases hsize : sizes.get node.nodeId with
      | none => simp
      | some n => simp

/-! ### The loop -/

/-- The sizes that the loop keeps for the next poll. -/
theorem mem_keys_sizes {id : NodeId} :
    id ∈ (Dict.collect (·.nodeId) (·.stateLog.length)
        (monitoredNodes requestedNodeIds s).values).keys ↔
      id ∈ listedIds requestedNodeIds s := by
  rw [Dict.mem_keys_collect, values_monitoredNodes]
  rfl

/-- No node came back: `_print_node_state` gets through. -/
theorem printNodeState_known {sizes : Dict NodeId Nat} {known : List NodeId}
    (hsizes : ∀ id, id ∈ sizes.keys ↔ id ∈ known) :
    (printNodeState sizes (requestedNodes requestedNodeIds s)).2 = none ↔
      listedIds requestedNodeIds s ⊆ known := by
  rw [printNodeState_ok]
  constructor
  · intro h id hid
    obtain ⟨node, hnode, rfl⟩ := List.mem_map.mp hid
    exact (hsizes _).mp (h node hnode)
  · intro h node hnode
    exact (hsizes _).mpr (h (List.mem_map_of_mem hnode))

/-- At the deciding poll the loop ends with success. -/
theorem pollNodes_of_decides {known : List NodeId}
    (h : Decides requestedNodeIds known polls s) (sizes : Dict NodeId Nat)
    (hsizes : ∀ id, id ∈ sizes.keys ↔ id ∈ known) (printed : List Line)
    (last : Option ClusterData) :
    (pollNodes count requestedNodeIds sizes printed last polls).last = some s ∧
      (pollNodes count requestedNodeIds sizes printed last polls).ending =
        .success (allReady count) (monitoredNodes requestedNodeIds s) := by
  induction h generalizing sizes printed last with
  | @here known poll polls s hpoll hknown hrunning =>
      have hprint := (printNodeState_known hsizes).mpr hknown
      simp [pollNodes, hpoll, hprint, if_pos hrunning]
  | @later known poll polls s s' hpoll hknown hwaits hlive h ih =>
      have hprint := (printNodeState_known hsizes).mpr hknown
      have hrunning : ¬ ∀ node ∈ requestedNodes requestedNodeIds s, node.state = .running := by
        intro hall
        obtain ⟨node, hnode, hne⟩ := hwaits
        exact hne (hall node hnode)
      have hall : ¬ ∀ node ∈ requestedNodes requestedNodeIds s, node.state = .terminated := by
        intro hall
        obtain ⟨node, hnode, -⟩ := hwaits
        exact hlive node hnode (hall node hnode)
      have hany : ¬ ∃ node ∈ requestedNodes requestedNodeIds s, node.state = .terminated := by
        rintro ⟨node, hnode, hst⟩
        exact hlive node hnode hst
      simp only [pollNodes, hpoll, values_monitoredNodes, hprint, if_neg hrunning, if_neg hall,
        if_neg hany]
      apply ih
      intro id
      rw [← values_monitoredNodes]
      exact mem_keys_sizes

/-- The loop ends with success at no other poll. -/
theorem decides_of_success {known : List NodeId} {sizes : Dict NodeId Nat}
    (hsizes : ∀ id, id ∈ sizes.keys ↔ id ∈ known) {printed : List Line}
    {last : Option ClusterData} {text : String} {nodes : Dict NodeId NodeData}
    (h : (pollNodes count requestedNodeIds sizes printed last polls).ending =
      .success text nodes) :
    ∃ s, Decides requestedNodeIds known polls s := by
  induction polls generalizing known sizes printed last with
  | nil => cases h
  | cons poll polls ih =>
      cases hpoll : poll.clusterState with
      | none => simp [pollNodes, hpoll] at h
      | some s =>
          simp only [pollNodes, hpoll, values_monitoredNodes] at h
          cases hprint : (printNodeState sizes (requestedNodes requestedNodeIds s)).2 with
          | some id => simp [hprint] at h
          | none =>
              have hknown := (printNodeState_known hsizes).mp hprint
              simp only [hprint] at h
              split at h
              · rename_i hrunning
                exact ⟨s, .here hpoll hknown hrunning⟩
              · rename_i hrunning
                split at h
                · cases h
                · split at h
                  · cases h
                  · rename_i hany
                    have hlater : ∃ s', Decides requestedNodeIds
                        (listedIds requestedNodeIds s) polls s' := by
                      apply ih _ h
                      intro id
                      rw [← values_monitoredNodes]
                      exact mem_keys_sizes
                    obtain ⟨s', hdecides⟩ := hlater
                    refine ⟨s', .later hpoll hknown ?_ ?_ hdecides⟩
                    · by_contra hnone
                      apply hrunning
                      intro node hnode
                      by_contra hne
                      exact hnone ⟨node, hnode, hne⟩
                    · intro node hnode hst
                      exact hany ⟨node, hnode, hst⟩

/-- The sizes that `create_node` starts with. -/
theorem mem_keys_start {i : NodeId} :
    i ∈ (Dict.collect id (fun _ => 0) requestedNodeIds).keys ↔ i ∈ requestedNodeIds := by
  rw [Dict.mem_keys_collect, List.map_id]

/-- What `create_node` reports when there is a deciding poll. -/
theorem createNode_of_decides (h : Decides requestedNodeIds requestedNodeIds polls s) :
    (createNode count (some requestedNodeIds) polls).last = some s ∧
      (createNode count (some requestedNodeIds) polls).ending =
        .success (allReady count) (monitoredNodes requestedNodeIds s) :=
  pollNodes_of_decides h _ (fun _ => mem_keys_start) _ none

/-- **`create_node` ends with success exactly at the deciding poll**, and returns the
requested nodes that this poll lists. -/
theorem createNode_success_iff {text : String} {nodes : Dict NodeId NodeData} :
    (createNode count (some requestedNodeIds) polls).ending = .success text nodes ↔
      ∃ s, Decides requestedNodeIds requestedNodeIds polls s ∧
        text = allReady count ∧ nodes = monitoredNodes requestedNodeIds s := by
  constructor
  · intro h
    obtain ⟨s, hdecides⟩ := decides_of_success (fun _ => mem_keys_start) h
    have hsame := h.symm.trans (createNode_of_decides hdecides).2
    cases hsame
    exact ⟨s, hdecides, rfl, rfl⟩
  · rintro ⟨s, hdecides, rfl, rfl⟩
    exact (createNode_of_decides hdecides).2

/-- At the deciding poll every listed node runs. -/
theorem Decides.running {known : List NodeId} (h : Decides requestedNodeIds known polls s) :
    ∀ node ∈ requestedNodes requestedNodeIds s, node.state = .running := by
  induction h with
  | here hpoll hknown hrunning => exact hrunning
  | later hpoll hknown hwaits hlive h ih => exact ih

/-! ### The report -/

/-- When `create_node` reports that all requested nodes are ready, the last polled state
has every requested node, running, and these nodes are what is returned. -/
def ReportsOwnNodes (count : Nat) (requestedNodeIds : List NodeId) (polls : List Poll) : Prop :=
  ∀ text nodes, (createNode count (some requestedNodeIds) polls).ending = .success text nodes →
    ∃ s, (createNode count (some requestedNodeIds) polls).last = some s ∧
      (∀ id ∈ requestedNodeIds, ∃ node, s.nodes.get id = some node ∧ node.state = .running) ∧
      ∀ id, id ∈ nodes.keys ↔ id ∈ requestedNodeIds

/-- **The report is right if and only if the poll that decides it lists every requested
node.** -/
theorem create_node_reports_own (count : Nat) (requestedNodeIds : List NodeId)
    (polls : List Poll) :
    ReportsOwnNodes count requestedNodeIds polls ↔
      ∀ s, Decides requestedNodeIds requestedNodeIds polls s →
        ∀ id ∈ requestedNodeIds, id ∈ s.nodes.keys := by
  constructor
  · intro h s hdecides id hid
    obtain ⟨hlast, hend⟩ : (createNode count (some requestedNodeIds) polls).last = some s ∧
        (createNode count (some requestedNodeIds) polls).ending = _ :=
      createNode_of_decides hdecides
    obtain ⟨s', hlast', hall, -⟩ := h _ _ hend
    obtain rfl : s = s' := Option.some.inj (hlast.symm.trans hlast')
    obtain ⟨node, hget, -⟩ := hall id hid
    rw [Dict.mem_keys_iff, hget]
    exact Option.some_ne_none node
  · intro h text nodes hend
    obtain ⟨s, hdecides, -, rfl⟩ := createNode_success_iff.mp hend
    refine ⟨s, (createNode_of_decides hdecides).1, fun id hid => ?_, fun id => ?_⟩
    · have hlisted := mem_listedIds_iff.mpr ⟨hid, h s hdecides id hid⟩
      obtain ⟨node, hnode, hget⟩ := get_of_mem_listedIds hlisted
      exact ⟨node, hget, hdecides.running node hnode⟩
    · rw [mem_keys_monitoredNodes, mem_listedIds_iff]
      exact ⟨And.left, fun hid => ⟨hid, h s hdecides id hid⟩⟩

/-- The state of a cluster that was stopped: its nodes are cleared. -/
def clearedCluster : ClusterData := RayService.getClusterData [] List.nodup_nil

/-- **Missing nodes are reported as ready**: the cluster stopped before the first poll. -/
theorem missing_nodes_ready :
    ¬ ∀ count requestedNodeIds polls, ReportsOwnNodes count requestedNodeIds polls := by
  intro hall
  have hend : (createNode 1 (some ["node0"]) [⟨"0:00:00", some clearedCluster⟩]).ending =
      .success "All 1 requested nodes ready" {} := rfl
  obtain ⟨s, -, -, hkeys⟩ := hall _ _ _ _ _ hend
  have hmem : "node0" ∈ ({} : Dict NodeId NodeData).keys := (hkeys "node0").mpr (by simp)
  cases hmem

end NodeProvider
