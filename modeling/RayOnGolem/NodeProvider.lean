import RayOnGolem.Models

/-!
# The node provider

What `GolemNodeProvider` does on the requestor's machine: `create_node` asks the
server for nodes and polls the state of the cluster until it can tell how the
request ended, and `get_command_runner` builds the runner through which Ray reaches
a node.

The answers of the server are inputs, one for each call of the client.  The output
that `create_node` prints is a list of `Line`s; the elapsed time in its headings is
an input of each poll.
-/

/-- What the server answers to `get_cluster_state`: `get_cluster_data` builds the
dictionary from the ids of the cluster's nodes. -/
structure ClusterData where
  nodes : Dict NodeId NodeData
  nodup : nodes.keys.Nodup
  keyed : ∀ p ∈ nodes.items, p.2.nodeId = p.1

/-- `get_cluster_data`, for a cluster with these nodes. -/
def RayService.getClusterData (nodes : List NodeData) (h : (nodes.map (·.nodeId)).Nodup) :
    ClusterData where
  nodes := Dict.collect (·.nodeId) id nodes
  nodup := by
    rw [Dict.keys, Dict.items_collect_of_nodup h, List.map_map]
    exact h
  keyed := by
    rw [Dict.items_collect_of_nodup h]
    intro p hp
    obtain ⟨n, -, rfl⟩ := List.mem_map.mp hp
    rfl

namespace NodeProvider

/-- What the provider prints. -/
inductive Line
  | group (title : String)
  | print (text : String)
  | labeledValue (key value : String)
  deriving DecidableEq, Repr

/-- One poll: the time since the request, and the answer unless the client raises. -/
structure Poll where
  elapsed : String
  clusterState : Option ClusterData

/-- How `create_node` ends. -/
inductive Ending
  | success (text : String) (nodes : Dict NodeId NodeData)
  | abort (text : String)
  | warning (text : String) (nodes : Dict NodeId NodeData)
  | clientRaised
  | keyError (nodeId : NodeId)
  | polling
  deriving DecidableEq

/-- A call of `create_node`: what it printed, the last polled state, its end. -/
structure Report where
  printed : List Line
  last : Option ClusterData
  ending : Ending

/-- The log of one node in `_print_node_state`: what was added since the last poll. -/
def printNode (node : NodeData) (lastLogSize : Nat) : List Line :=
  (node.stateLog.dropLast.drop lastLogSize).map (fun log =>
      .print (String.ofList (List.replicate (node.nodeId.length + 2) ' ') ++ log)) ++
    [.labeledValue node.nodeId (node.stateLog.getLast?.getD "<none>")]

/-- `_print_node_state`: the printed lines, and the key that is missing from the
sizes, if any. -/
def printNodeState (nodesLastLogSize : Dict NodeId Nat) :
    List NodeData → List Line × Option NodeId
  | [] => ([], none)
  | node :: nodes =>
      match nodesLastLogSize.get node.nodeId with
      | none => ([], some node.nodeId)
      | some lastLogSize =>
          let rest := printNodeState nodesLastLogSize nodes
          (printNode node lastLogSize ++ rest.1, rest.2)

/-- The nodes of a polled state that were requested. -/
def requestedNodes (requestedNodeIds : List NodeId) (clusterState : ClusterData) :
    List NodeData :=
  clusterState.nodes.values.filter fun node => node.nodeId ∈ requestedNodeIds

/-- `monitored_nodes`. -/
def monitoredNodes (requestedNodeIds : List NodeId) (clusterState : ClusterData) :
    Dict NodeId NodeData :=
  Dict.collect (·.nodeId) id (requestedNodes requestedNodeIds clusterState)

/-- The texts of the three ends. -/
def allReady (count : Nat) : String := "All " ++ toString count ++ " requested nodes ready"
def allFailed : String := "All node requests failed!"
def someFailed : String := "Some node requests failed!"

/-- The loop of `create_node`. -/
def pollNodes (count : Nat) (requestedNodeIds : List NodeId) (nodesLastLogSize : Dict NodeId Nat)
    (printed : List Line) (last : Option ClusterData) : List Poll → Report
  | [] => ⟨printed, last, .polling⟩
  | poll :: polls =>
      match poll.clusterState with
      | none => ⟨printed, last, .clientRaised⟩
      | some clusterState =>
          let monitored := monitoredNodes requestedNodeIds clusterState
          let nodesLogSize := Dict.collect (·.nodeId) (·.stateLog.length) monitored.values
          let state := printNodeState nodesLastLogSize monitored.values
          let printed := printed ++
            .group ("Requested nodes status after " ++ poll.elapsed) :: state.1
          match state.2 with
          | some nodeId => ⟨printed, some clusterState, .keyError nodeId⟩
          | none =>
              if ∀ node ∈ monitored.values, node.state = .running then
                ⟨printed, some clusterState, .success (allReady count) monitored⟩
              else if ∀ node ∈ monitored.values, node.state = .terminated then
                ⟨printed, some clusterState, .abort allFailed⟩
              else if ∃ node ∈ monitored.values, node.state = .terminated then
                ⟨printed, some clusterState, .warning someFailed monitored⟩
              else
                pollNodes count requestedNodeIds nodesLogSize printed (some clusterState) polls

/-- `create_node`; `requestedNodeIds` is the answer to `request_nodes`, unless that
raises. -/
def createNode (count : Nat) (requestedNodeIds : Option (List NodeId)) (polls : List Poll) :
    Report :=
  let printed := [.print ("Requesting " ++ toString count ++ " nodes...")]
  match requestedNodeIds with
  | none => ⟨printed, none, .clientRaised⟩
  | some requestedNodeIds =>
      pollNodes count requestedNodeIds (Dict.collect id (fun _ => 0) requestedNodeIds)
        printed none polls

/-- The `auth_config` of a cluster, which Ray passes for every node. -/
abbrev AuthConfig := Dict String (Option String)

/-- What `get_command_runner` passes on to the runner beside `auth_config`. -/
structure RunnerArgs where
  logPrefix : String
  nodeId : NodeId
  clusterName : String
  useInternalIp : Bool
  deriving DecidableEq, Repr

/-- An `SSHCommandRunner`, with the proxy command of its ssh options. -/
structure SSHCommandRunner extends RunnerArgs where
  sshProxyCommand : Option String
  deriving DecidableEq, Repr

/-- `SSHCommandRunner.__init__`; `baseProxyCommand` is what the constructor of Ray's runner
reads from `auth_config`. -/
def SSHCommandRunner.init (baseProxyCommand : AuthConfig → Option String) (args : RunnerArgs)
    (authConfig : AuthConfig) : SSHCommandRunner :=
  { args with sshProxyCommand := baseProxyCommand authConfig }

/-- `get_command_runner`: `auth_config` after the call, and the runner unless the client
raises.  `reported` is what the server answers for the node at the time of the call. -/
def getCommandRunner (baseProxyCommand : AuthConfig → Option String)
    (isRunningOnGolemNetwork : Bool) (args : RunnerArgs) (authConfig : AuthConfig)
    (reported : Option (Option String)) : AuthConfig × Option SSHCommandRunner :=
  if (authConfig.get "ssh_proxy_command").isNone ∧ ¬ isRunningOnGolemNetwork then
    match reported with
    | none => (authConfig, none)
    | some sshProxyCommand =>
        let authConfig := authConfig.set "ssh_proxy_command" sshProxyCommand
        (authConfig, some (.init baseProxyCommand args authConfig))
  else (authConfig, some (.init baseProxyCommand args authConfig))

end NodeProvider
