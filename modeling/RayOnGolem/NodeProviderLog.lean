import Mathlib.Data.List.Destutter
import RayOnGolem.NodeProviderCreate

/-!
# The node logs that `create_node` prints

`_print_node_state` prints, for every node, the lines of its log from the size that the
log had at the last poll up to the line before the last one, and then the last line on
its own, with the id of the node.  The last line of a log that did not grow is printed
again at the next poll.

`output` is what a run prints, with the node and the position of every log line;
`Entry.line` forgets them.  Main results:

* `printed_createNode` -- the printed lines are those of `output`;
* `node_log_printed_once` -- when the requested nodes are present in every poll and their
  logs only grow, the positions printed for a node are `0, 1, ..., n - 1`, up to immediate
  repeats.
-/

namespace NodeProvider

variable {count : Nat} {requestedNodeIds : List NodeId} {s : ClusterData} {polls : List Poll}

/-- What one printed line shows. -/
inductive Entry
  | heading (elapsed : String)
  | position (node : NodeData) (i : Nat)
  | noLog (node : NodeData)
  deriving DecidableEq, Repr

/-- The line itself: the last line of a log has the id of its node in front. -/
def Entry.line : Entry → Line
  | .heading elapsed => .group ("Requested nodes status after " ++ elapsed)
  | .position node i =>
      let log := node.stateLog.getD i ""
      if i + 1 < node.stateLog.length then
        .print (String.ofList (List.replicate (node.nodeId.length + 2) ' ') ++ log)
      else .labeledValue node.nodeId log
  | .noLog node => .labeledValue node.nodeId "<none>"

/-- The position of the log of `id` that a line shows, if any. -/
def Entry.positionOf (id : NodeId) : Entry → Option Nat
  | .position node i => if node.nodeId = id then some i else none
  | _ => none

/-- The lines of `printNode`. -/
def nodeEntries (node : NodeData) (lastLogSize : Nat) : List Entry :=
  (List.range' lastLogSize (node.stateLog.length - 1 - lastLogSize)).map (.position node) ++
    [if node.stateLog = [] then .noLog node else .position node (node.stateLog.length - 1)]

/-- The lines of `printNodeState`. -/
def stateEntries (nodesLastLogSize : Dict NodeId Nat) : List NodeData → List Entry
  | [] => []
  | node :: nodes =>
      match nodesLastLogSize.get node.nodeId with
      | none => []
      | some lastLogSize => nodeEntries node lastLogSize ++ stateEntries nodesLastLogSize nodes

/-- A call of `_print_node_state`. -/
structure PrintCall where
  elapsed : String
  nodesLastLogSize : Dict NodeId Nat
  clusterState : ClusterData

/-- The lines it prints. -/
def PrintCall.entries (requestedNodeIds : List NodeId) (c : PrintCall) : List Entry :=
  .heading c.elapsed ::
    stateEntries c.nodesLastLogSize (requestedNodes requestedNodeIds c.clusterState)

/-- None of the three ends: some listed node does not run yet, and none is terminated. -/
def Waits (requestedNodeIds : List NodeId) (s : ClusterData) : Prop :=
  (∃ node ∈ requestedNodes requestedNodeIds s, node.state ≠ .running) ∧
    ∀ node ∈ requestedNodes requestedNodeIds s, node.state ≠ .terminated

instance (requestedNodeIds : List NodeId) (s : ClusterData) :
    Decidable (Waits requestedNodeIds s) :=
  inferInstanceAs (Decidable (_ ∧ _))

/-- The sizes that the loop keeps for the next poll. -/
def logSizes (requestedNodeIds : List NodeId) (s : ClusterData) : Dict NodeId Nat :=
  Dict.collect (·.nodeId) (·.stateLog.length) (requestedNodes requestedNodeIds s)

/-- The calls of `_print_node_state` that the loop makes. -/
def printCalls (requestedNodeIds : List NodeId) (nodesLastLogSize : Dict NodeId Nat) :
    List Poll → List PrintCall
  | [] => []
  | poll :: polls =>
      match poll.clusterState with
      | none => []
      | some clusterState =>
          ⟨poll.elapsed, nodesLastLogSize, clusterState⟩ ::
            if (printNodeState nodesLastLogSize (requestedNodes requestedNodeIds clusterState)).2 =
                none ∧ Waits requestedNodeIds clusterState then
              printCalls requestedNodeIds (logSizes requestedNodeIds clusterState) polls
            else []

/-- The calls that `create_node` makes. -/
def createNodeCalls (requestedNodeIds : List NodeId) (polls : List Poll) : List PrintCall :=
  printCalls requestedNodeIds (Dict.collect id (fun _ => 0) requestedNodeIds) polls

/-- All lines of the polls, with what they show. -/
def output (requestedNodeIds : List NodeId) (polls : List Poll) : List Entry :=
  (createNodeCalls requestedNodeIds polls).flatMap (PrintCall.entries requestedNodeIds)

/-! ### The output is what is printed -/

theorem printNode_eq (node : NodeData) (lastLogSize : Nat) :
    printNode node lastLogSize = (nodeEntries node lastLogSize).map Entry.line := by
  rw [printNode, nodeEntries, List.map_append, List.map_map]
  congr 1
  · apply List.ext_getElem
    · simp
    · intro i hi hi'
      have hlt : lastLogSize + i < node.stateLog.length - 1 := by
        simp at hi
        omega
      have hlen : lastLogSize + i < node.stateLog.length := by omega
      simp [Entry.line, List.getElem?_eq_getElem hlen, show lastLogSize + i + 1 <
        node.stateLog.length by omega]
  · cases hlog : node.stateLog with
    | nil => simp [Entry.line]
    | cons a log => simp [Entry.line, hlog, List.getLast?_eq_getElem?]

theorem printNodeState_eq (sizes : Dict NodeId Nat) (nodes : List NodeData) :
    (printNodeState sizes nodes).1 = (stateEntries sizes nodes).map Entry.line := by
  induction nodes with
  | nil => rfl
  | cons node nodes ih =>
      rw [printNodeState, stateEntries]
      cases hsize : sizes.get node.nodeId with
      | none => rfl
      | some lastLogSize => simp [printNode_eq, ih]

/-- The three tests of the loop let exactly a waiting state pass. -/
theorem waits_iff : Waits requestedNodeIds s ↔
    (¬ ∀ node ∈ requestedNodes requestedNodeIds s, node.state = .running) ∧
      (¬ ∀ node ∈ requestedNodes requestedNodeIds s, node.state = .terminated) ∧
        ¬ ∃ node ∈ requestedNodes requestedNodeIds s, node.state = .terminated := by
  constructor
  · rintro ⟨⟨node, hnode, hne⟩, hlive⟩
    refine ⟨fun hall => hne (hall node hnode), fun hall => hlive node hnode (hall node hnode), ?_⟩
    rintro ⟨node, hnode, hst⟩
    exact hlive node hnode hst
  · rintro ⟨hrunning, -, hnone⟩
    refine ⟨by simpa using hrunning, fun node hnode hst => hnone ⟨node, hnode, hst⟩⟩

/-- What one poll prints. -/
def pollLines (requestedNodeIds : List NodeId) (sizes : Dict NodeId Nat) (elapsed : String)
    (s : ClusterData) : List Line :=
  (PrintCall.entries requestedNodeIds ⟨elapsed, sizes, s⟩).map Entry.line

theorem pollLines_eq (sizes : Dict NodeId Nat) (elapsed : String) (s : ClusterData) :
    pollLines requestedNodeIds sizes elapsed s =
      .group ("Requested nodes status after " ++ elapsed) ::
        (printNodeState sizes (requestedNodes requestedNodeIds s)).1 := by
  rw [printNodeState_eq]
  rfl

/-- The loop goes on after a poll. -/
theorem pollNodes_goesOn {poll : Poll} (hpoll : poll.clusterState = some s)
    {sizes : Dict NodeId Nat}
    (hprint : (printNodeState sizes (requestedNodes requestedNodeIds s)).2 = none)
    (hwaits : Waits requestedNodeIds s) (printed : List Line) (last : Option ClusterData) :
    pollNodes count requestedNodeIds sizes printed last (poll :: polls) =
      pollNodes count requestedNodeIds (logSizes requestedNodeIds s)
        (printed ++ pollLines requestedNodeIds sizes poll.elapsed s) (some s) polls := by
  obtain ⟨hrunning, hall, hany⟩ := waits_iff.mp hwaits
  rw [pollLines_eq, pollNodes]
  simp only [hpoll, values_monitoredNodes, hprint, if_neg hrunning, if_neg hall, if_neg hany]
  rfl

/-- The loop ends with a poll. -/
theorem pollNodes_ends {poll : Poll} (hpoll : poll.clusterState = some s)
    {sizes : Dict NodeId Nat}
    (hends : ¬ ((printNodeState sizes (requestedNodes requestedNodeIds s)).2 = none ∧
      Waits requestedNodeIds s)) (count : Nat) (printed : List Line) (last : Option ClusterData)
    (polls : List Poll) :
    (pollNodes count requestedNodeIds sizes printed last (poll :: polls)).printed =
        printed ++ pollLines requestedNodeIds sizes poll.elapsed s ∧
      (pollNodes count requestedNodeIds sizes printed last (poll :: polls)).last = some s := by
  rw [pollLines_eq, pollNodes]
  simp only [hpoll, values_monitoredNodes]
  cases hprint : (printNodeState sizes (requestedNodes requestedNodeIds s)).2 with
  | some id => exact ⟨rfl, rfl⟩
  | none =>
      have hends := mt waits_iff.mpr fun hwaits => hends ⟨hprint, hwaits⟩
      dsimp only
      split
      · exact ⟨rfl, rfl⟩
      · split
        · exact ⟨rfl, rfl⟩
        · split
          · exact ⟨rfl, rfl⟩
          · exact absurd ⟨‹_›, ‹_›, ‹_›⟩ hends

/-- The printed lines and the last polled state, from the calls of `_print_node_state`. -/
theorem pollNodes_calls (sizes : Dict NodeId Nat) (printed : List Line)
    (last : Option ClusterData) (polls : List Poll) :
    (pollNodes count requestedNodeIds sizes printed last polls).printed = printed ++
        ((printCalls requestedNodeIds sizes polls).flatMap
          (PrintCall.entries requestedNodeIds)).map Entry.line ∧
      (pollNodes count requestedNodeIds sizes printed last polls).last =
        ((printCalls requestedNodeIds sizes polls).getLast?.map PrintCall.clusterState).or
          last := by
  induction polls generalizing sizes printed last with
  | nil => simp [pollNodes, printCalls]
  | cons poll polls ih =>
      rw [printCalls]
      cases hpoll : poll.clusterState with
      | none => simp [pollNodes, hpoll]
      | some s =>
          by_cases hgoesOn : (printNodeState sizes (requestedNodes requestedNodeIds s)).2 = none ∧
            Waits requestedNodeIds s
          · obtain ⟨hprinted, hlast⟩ := ih (logSizes requestedNodeIds s)
              (printed ++ pollLines requestedNodeIds sizes poll.elapsed s) (some s)
            rw [pollNodes_goesOn hpoll hgoesOn.1 hgoesOn.2, hprinted, hlast]
            simp only [if_pos hgoesOn, List.flatMap_cons, List.map_append, List.append_assoc]
            refine ⟨rfl, ?_⟩
            rw [List.getLast?_cons]
            cases (printCalls requestedNodeIds (logSizes requestedNodeIds s) polls).getLast? with
            | none => simp
            | some c => simp
          · obtain ⟨hprinted, hlast⟩ := pollNodes_ends hpoll hgoesOn count printed last polls
            simp [hprinted, hlast, if_neg hgoesOn, pollLines]

/-- **What `create_node` prints** are the lines of `output`, after the line that it
requests the nodes. -/
theorem printed_createNode (count : Nat) (requestedNodeIds : List NodeId) (polls : List Poll) :
    (createNode count (some requestedNodeIds) polls).printed =
      .print ("Requesting " ++ toString count ++ " nodes...") ::
        (output requestedNodeIds polls).map Entry.line :=
  (pollNodes_calls _ _ _ polls).1

/-- The last polled state. -/
theorem last_createNode (count : Nat) (requestedNodeIds : List NodeId) (polls : List Poll) :
    (createNode count (some requestedNodeIds) polls).last =
      (createNodeCalls requestedNodeIds polls).getLast?.map PrintCall.clusterState := by
  rw [createNode, (pollNodes_calls _ _ _ polls).2, Option.or_none]
  rfl

/-! ### The positions of one node -/

/-- The log that a polled state has for a node. -/
def logOf (id : NodeId) (s : ClusterData) : List String :=
  match s.nodes.get id with
  | some node => node.stateLog
  | none => []

/-- The positions of the log of `id` that are printed, in order. -/
def positions (id : NodeId) (entries : List Entry) : List Nat :=
  entries.filterMap (Entry.positionOf id)

theorem positions_append (id : NodeId) (l₁ l₂ : List Entry) :
    positions id (l₁ ++ l₂) = positions id l₁ ++ positions id l₂ :=
  List.filterMap_append

/-- What is printed of one node: the positions from the last size on, the last one on its
own. -/
theorem positions_nodeEntries_self (node : NodeData) (lastLogSize : Nat) :
    positions node.nodeId (nodeEntries node lastLogSize) =
      List.range' lastLogSize (node.stateLog.length - 1 - lastLogSize) ++
        if node.stateLog.length = 0 then [] else [node.stateLog.length - 1] := by
  rw [nodeEntries, positions_append]
  congr 1
  · rw [positions, List.filterMap_map, List.filterMap_eq_map_iff_forall_eq_some.mpr]
    · exact List.map_id _
    · intro i _
      simp [Entry.positionOf]
  · by_cases hlog : node.stateLog = []
    · simp [positions, Entry.positionOf, hlog]
    · simp [positions, Entry.positionOf, hlog]

theorem positions_nodeEntries_ne {id : NodeId} {node : NodeData} (h : node.nodeId ≠ id)
    (lastLogSize : Nat) : positions id (nodeEntries node lastLogSize) = [] := by
  rw [positions, List.filterMap_eq_nil_iff]
  intro e he
  rcases List.mem_append.mp he with he | he
  · obtain ⟨i, -, rfl⟩ := List.mem_map.mp he
    simp [Entry.positionOf, h]
  · obtain rfl := List.mem_singleton.mp he
    split <;> simp [Entry.positionOf, h]

/-- A node that is not among these is not printed. -/
theorem positions_stateEntries_of_not_mem {id : NodeId} {sizes : Dict NodeId Nat}
    {nodes : List NodeData} (h : id ∉ nodes.map (·.nodeId)) :
    positions id (stateEntries sizes nodes) = [] := by
  induction nodes with
  | nil => rfl
  | cons node nodes ih =>
      rw [List.map_cons, List.mem_cons, not_or] at h
      rw [stateEntries]
      cases sizes.get node.nodeId with
      | none => rfl
      | some lastLogSize =>
          rw [positions_append, positions_nodeEntries_ne (Ne.symm h.1), ih h.2]
          rfl

/-- What one call prints of a node whose size is known. -/
theorem positions_stateEntries {sizes : Dict NodeId Nat} {nodes : List NodeData}
    (hnodup : (nodes.map (·.nodeId)).Nodup) (hsizes : ∀ node ∈ nodes, sizes.get node.nodeId ≠ none)
    {node : NodeData} (hnode : node ∈ nodes) {lastLogSize : Nat}
    (hsize : sizes.get node.nodeId = some lastLogSize) :
    positions node.nodeId (stateEntries sizes nodes) =
      positions node.nodeId (nodeEntries node lastLogSize) := by
  induction nodes with
  | nil => cases hnode
  | cons first nodes ih =>
      obtain ⟨hnew, hnodup⟩ := List.nodup_cons.mp hnodup
      obtain ⟨hfirst, hsizes⟩ := List.forall_mem_cons.mp hsizes
      obtain ⟨n, hn⟩ := Option.ne_none_iff_exists'.mp hfirst
      rw [stateEntries, hn]
      simp only [positions_append]
      rcases List.mem_cons.mp hnode with rfl | hnode
      · obtain rfl : n = lastLogSize := Option.some.inj (hn.symm.trans hsize)
        rw [positions_stateEntries_of_not_mem hnew, List.append_nil]
      · have hne : first.nodeId ≠ node.nodeId := by
          intro heq
          exact hnew (List.mem_map.mpr ⟨node, hnode, heq.symm⟩)
        rw [positions_nodeEntries_ne hne, ih hnodup hsizes hnode]
        rfl

/-- Repeats of the last position collapse. -/
theorem destutter_append_repeat (l : List Nat) (a : Nat) (l' : List Nat) :
    (l ++ a :: a :: l').destutter (· ≠ ·) = (l ++ a :: l').destutter (· ≠ ·) := by
  have hrepeat : ∀ (b : Nat) (l : List Nat),
      (l ++ a :: a :: l').destutter' (· ≠ ·) b = (l ++ a :: l').destutter' (· ≠ ·) b := by
    intro b l
    induction l generalizing b with
    | nil =>
        rw [List.nil_append, List.nil_append, List.destutter'_cons, List.destutter'_cons]
        by_cases hba : b = a
        · subst hba
          simp
        · simp [hba]
    | cons c l ih => simp only [List.cons_append, List.destutter'_cons, ih]
  cases l with
  | nil => simp [List.destutter_cons']
  | cons b l => exact hrepeat b l

theorem destutter_range (n : Nat) : (List.range n).destutter (· ≠ ·) = List.range n :=
  List.destutter_of_isChain _ _ (List.nodup_range (n := n)).isChain

/-- One call goes on from the positions that are printed already. -/
theorem range_printed {m n : Nat} (h : m ≤ n) (l : List Nat) :
    (List.range m ++ (List.range' m (n - 1 - m) ++ (if n = 0 then [] else [n - 1]) ++ l)).destutter
        (· ≠ ·) = (List.range n ++ l).destutter (· ≠ ·) := by
  rcases Nat.lt_or_ge m n with hlt | hge
  · obtain ⟨k, rfl⟩ : ∃ k, n = m + k + 1 := ⟨n - m - 1, by omega⟩
    have hjoin : List.range m ++ List.range' m k = List.range (m + k) := by
      rw [List.range_eq_range', List.range_eq_range', ← List.range'_append_1, Nat.zero_add]
    rw [if_neg (by omega), show m + k + 1 - 1 - m = k by omega, Nat.add_sub_cancel,
      List.range_succ, ← hjoin]
    simp only [List.append_assoc]
  · obtain rfl : m = n := Nat.le_antisymm h hge
    cases m with
    | zero => simp
    | succ m =>
        have hrepeat := destutter_append_repeat (List.range m) m l
        simpa [List.range_succ] using hrepeat

/-! ### The whole run -/

/-- A requested node that a polled state lists, with its log. -/
theorem requested_node {id : NodeId} (hid : id ∈ requestedNodeIds)
    (hpresent : id ∈ s.nodes.keys) :
    ∃ node ∈ requestedNodes requestedNodeIds s,
      node.nodeId = id ∧ node.stateLog = logOf id s := by
  obtain ⟨node, hnode, hget⟩ := get_of_mem_listedIds (mem_listedIds_iff.mpr ⟨hid, hpresent⟩)
  obtain ⟨l₁, l₂, heq, -⟩ := List.lookup_eq_some_iff.mp hget
  exact ⟨node, hnode, s.keyed (id, node) (by simp [heq]), by simp [logOf, hget]⟩

theorem get_startSizes {i : NodeId} (hi : i ∈ requestedNodeIds) :
    (Dict.collect id (fun _ => 0) requestedNodeIds).get i = some 0 :=
  Dict.get_setAll (by simpa using hi) fun _ _ _ => rfl

theorem get_logSizes {node : NodeData} (hnode : node ∈ requestedNodes requestedNodeIds s) :
    (logSizes requestedNodeIds s).get node.nodeId = some node.stateLog.length := by
  apply Dict.get_setAll (List.mem_map_of_mem hnode)
  intro other hother heq
  rw [List.inj_on_of_nodup_map (nodup_listedIds requestedNodeIds s) hother hnode heq]

/-- What one call prints of a requested node. -/
theorem positions_call {sizes : Dict NodeId Nat} {elapsed : String} {id : NodeId} {m : Nat}
    (hid : id ∈ requestedNodeIds) (hsize : sizes.get id = some m)
    (hknown : ∀ i ∈ requestedNodeIds, sizes.get i ≠ none)
    (hpresent : id ∈ s.nodes.keys) :
    positions id (PrintCall.entries requestedNodeIds ⟨elapsed, sizes, s⟩) =
      List.range' m ((logOf id s).length - 1 - m) ++
        if (logOf id s).length = 0 then [] else [(logOf id s).length - 1] := by
  obtain ⟨node, hnode, rfl, hlog⟩ := requested_node hid hpresent
  have hstate : positions node.nodeId (stateEntries sizes (requestedNodes requestedNodeIds s)) =
      positions node.nodeId (nodeEntries node m) := by
    apply positions_stateEntries (nodup_listedIds requestedNodeIds s) ?_ hnode hsize
    intro other hother
    exact hknown _ (by simpa using (List.mem_filter.mp hother).2)
  rw [← hlog, ← positions_nodeEntries_self node m, ← hstate]
  rfl

/-- **The run**: after the positions before `m` are printed, the calls print those up to the
last polled log. -/
theorem range_positions {id : NodeId} (hid : id ∈ requestedNodeIds) (polls : List Poll)
    {sizes : Dict NodeId Nat} {m : Nat} (hsize : sizes.get id = some m)
    (hknown : ∀ i ∈ requestedNodeIds, sizes.get i ≠ none)
    (hpresent : ∀ c ∈ printCalls requestedNodeIds sizes polls,
      ∀ i ∈ requestedNodeIds, i ∈ c.clusterState.nodes.keys)
    (hgrows : (printCalls requestedNodeIds sizes polls).IsChain fun c c' =>
      logOf id c.clusterState <+: logOf id c'.clusterState)
    (hfirst : ∀ c ∈ (printCalls requestedNodeIds sizes polls).head?,
      m ≤ (logOf id c.clusterState).length) :
    (List.range m ++ positions id ((printCalls requestedNodeIds sizes polls).flatMap
        (PrintCall.entries requestedNodeIds))).destutter (· ≠ ·) =
      List.range (((printCalls requestedNodeIds sizes polls).getLast?.map fun c =>
        (logOf id c.clusterState).length).getD m) := by
  induction polls generalizing sizes m with
  | nil => simp [printCalls, positions, destutter_range]
  | cons poll polls ih =>
      rw [printCalls] at hpresent hgrows hfirst ⊢
      cases hpoll : poll.clusterState with
      | none => simp [positions, destutter_range]
      | some s =>
          simp only [hpoll] at hpresent hgrows hfirst ⊢
          obtain ⟨hhere, hrest⟩ := List.forall_mem_cons.mp hpresent
          have hle : m ≤ (logOf id s).length := hfirst _ rfl
          rw [List.flatMap_cons, positions_append, positions_call hid hsize hknown (hhere id hid),
            range_printed hle]
          split
          · rename_i hgoesOn
            rw [if_pos hgoesOn] at hgrows hrest
            have hsize' : (logSizes requestedNodeIds s).get id = some (logOf id s).length := by
              obtain ⟨node, hnode, rfl, hlog⟩ := requested_node hid (hhere id hid)
              rw [get_logSizes hnode, hlog]
            have hknown' : ∀ i ∈ requestedNodeIds, (logSizes requestedNodeIds s).get i ≠ none := by
              intro i hi
              obtain ⟨node, hnode, rfl, -⟩ := requested_node hi (hhere i hi)
              simp [get_logSizes hnode]
            obtain ⟨hhead, hgrows⟩ := List.isChain_cons.mp hgrows
            rw [ih hsize' hknown' hrest hgrows fun c hc => (hhead c hc).length_le,
              List.getLast?_cons]
            cases (printCalls requestedNodeIds (logSizes requestedNodeIds s) polls).getLast? with
            | none => rfl
            | some c => rfl
          · simp [positions, destutter_range]

/-- **No line of a node's log is lost or repeated.**  When every requested node is present
in every poll of the run and the log of `id` only grows by appending, what is printed are
the lines of `output`, and the positions that these show of the log of `id` are, up to
immediate repeats, all positions of the log at the last poll, in order. -/
theorem node_log_printed_once (count : Nat) (requestedNodeIds : List NodeId) (polls : List Poll)
    (id : NodeId) (hid : id ∈ requestedNodeIds)
    (hpresent : ∀ c ∈ createNodeCalls requestedNodeIds polls,
      ∀ i ∈ requestedNodeIds, i ∈ c.clusterState.nodes.keys)
    (hgrows : (createNodeCalls requestedNodeIds polls).IsChain fun c c' =>
      logOf id c.clusterState <+: logOf id c'.clusterState)
    (s : ClusterData) (hlast : (createNode count (some requestedNodeIds) polls).last = some s) :
    (createNode count (some requestedNodeIds) polls).printed =
        .print ("Requesting " ++ toString count ++ " nodes...") ::
          (output requestedNodeIds polls).map Entry.line ∧
      (positions id (output requestedNodeIds polls)).destutter (· ≠ ·) =
        List.range (logOf id s).length := by
  refine ⟨printed_createNode count requestedNodeIds polls, ?_⟩
  have hrun := range_positions hid polls (get_startSizes hid)
    (fun i hi => by simp [get_startSizes hi]) hpresent hgrows (fun c _ => Nat.zero_le _)
  rw [List.range_zero, List.nil_append] at hrun
  rw [last_createNode] at hlast
  obtain ⟨c, hc, rfl⟩ := Option.map_eq_some_iff.mp hlast
  rw [output, createNodeCalls, hrun]
  rw [createNodeCalls] at hc
  rw [hc]
  rfl

/-- The state of a cluster with one node. -/
def oneNode (state : NodeState) (stateLog : List String) : ClusterData :=
  RayService.getClusterData [⟨"node0", {}, state, stateLog, none, none⟩] (by simp)

/-- The node starts with an empty log; the log grows, stays, grows by two lines. -/
def growingLog : List Poll :=
  [⟨"0:00:00", some (oneNode .pending [])⟩,
    ⟨"0:00:05", some (oneNode .pending ["Getting agreement..."])⟩,
    ⟨"0:00:10", some (oneNode .pending ["Getting agreement..."])⟩,
    ⟨"0:00:15", some (oneNode .running
      ["Getting agreement...", "Creating activity...", "Node started"])⟩]

/-- Three lines are printed for it, the first one twice in a row. -/
theorem node_log_printed_once_growing :
    (createNode 1 (some ["node0"]) growingLog).printed =
        .print ("Requesting " ++ toString 1 ++ " nodes...") ::
          (output ["node0"] growingLog).map Entry.line ∧
      (positions "node0" (output ["node0"] growingLog)).destutter (· ≠ ·) =
        List.range (logOf "node0" (oneNode .running
          ["Getting agreement...", "Creating activity...", "Node started"])).length :=
  node_log_printed_once 1 ["node0"] growingLog "node0" (by simp) (by decide) (by decide)
    (oneNode .running ["Getting agreement...", "Creating activity...", "Node started"]) rfl

end NodeProvider
