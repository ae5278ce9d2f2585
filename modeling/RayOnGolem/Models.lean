import Mathlib.Data.Rat.Defs
import RayOnGolem.Lib.Dict

/-!
# The server's data models

The enumerations and request data that the cluster, the service and the web
server share.  URLs are strings: they are only compared and serialised.  The
free-form `node_descriptor` dictionary is its JSON text.
-/

/-- A `float` of a request.  The finite ones are rationals here, without rounding; Python's
JSON parser accepts `Infinity` and `NaN` too. -/
inductive PyFloat
  | finite (q : ℚ)
  | inf
  | negInf
  | nan
  deriving DecidableEq, Repr

/-- `NodeState`, for nodes and for whole clusters. -/
inductive NodeState
  | pending
  | running
  | terminating
  | terminated
  deriving DecidableEq, Repr

/-- `state not in [NodeState.terminating, NodeState.terminated]`. -/
def NodeState.live : NodeState → Bool
  | .pending | .running => true
  | .terminating | .terminated => false

namespace NodeState

@[simp] theorem live_pending : NodeState.live .pending = true := rfl
@[simp] theorem live_running : NodeState.live .running = true := rfl
@[simp] theorem live_terminating : NodeState.live .terminating = false := rfl
@[simp] theorem live_terminated : NodeState.live .terminated = false := rfl

@[grind =] theorem live_iff {st : NodeState} : st.live = true ↔ st = .pending ∨ st = .running := by
  cases st <;> simp

@[grind =] theorem not_live_iff {st : NodeState} :
    st.live = false ↔ st = .terminating ∨ st = .terminated := by
  cases st <;> simp

end NodeState

/-- `NodeId`. -/
abbrev NodeId := String

/-- `Tags`. -/
abbrev Tags := Dict String String

/-- `NodeData`. -/
structure NodeData where
  nodeId : NodeId
  tags : Tags := {}
  state : NodeState := .pending
  stateLog : List String := []
  internalIp : Option String := none
  sshProxyCommand : Option String := none
  deriving DecidableEq, Repr

/-- `ShutdownState`. -/
inductive ShutdownState
  | notEnabled
  | clusterNotEmpty
  | forcedShutdown
  | willShutdown
  deriving DecidableEq, Repr

/-- `PerCpuExpectedUsageData`. -/
structure PerCpuExpectedUsageData where
  cpuLoad : PyFloat
  durationHours : PyFloat
  maxCost : Option PyFloat := none
  deriving DecidableEq, Repr

/-- `PaymentIntervalHours`, after its validator replaced a missing `optimal`. -/
structure PaymentIntervalHours where
  minimal : PyFloat := .finite 12
  optimal : PyFloat := minimal
  deriving DecidableEq, Repr

/-- `BudgetControlData`. -/
structure BudgetControlData where
  perCpuExpectedUsage : Option PerCpuExpectedUsageData := none
  maxStartPrice : Option PyFloat := none
  maxCpuPerHourPrice : Option PyFloat := none
  maxEnvPerHourPrice : Option PyFloat := none
  paymentIntervalHours : PaymentIntervalHours := {}
  deriving DecidableEq, Repr

/-- `DemandConfigData`. -/
structure DemandConfigData where
  nodeDescriptor : Option String := none
  imageHash : Option String := none
  imageTag : Option String := none
  capabilities : List String := ["vpn", "inet"]
  outboundUrls : List String := []
  minMemGib : PyFloat := .finite 0
  minCpuThreads : Int := 0
  minStorageGib : PyFloat := .finite 0
  maxCpuThreads : Option Int := none
  runtime : String := "vm"
  deriving DecidableEq, Repr

/-- What `get_payloads_from_demand_config` leaves of a demand it prepared
payloads for: outbound URLs need a manifest, and the capability for it. -/
def DemandConfigData.withManifestSupport (d : DemandConfigData) : DemandConfigData :=
  if d.outboundUrls ≠ [] ∧ "manifest-support" ∉ d.capabilities then
    { d with capabilities := d.capabilities ++ ["manifest-support"] }
  else d

/-- `NodeConfigData`. -/
structure NodeConfigData where
  subnetTag : String
  prioritySubnetTag : Option String := none
  demand : DemandConfigData := {}
  budgetControl : Option BudgetControlData := some {}
  deriving DecidableEq, Repr

namespace NodeConfigData

/-- `get_hash`, for `digest c` the hex digest of the JSON text of `c`. -/
def getHash (digest : NodeConfigData → String) (c : NodeConfigData) (subnetTag : String) :
    String :=
  digest c ++ "-" ++ subnetTag

/-- The configuration after its demand was prepared. -/
def prepared (c : NodeConfigData) : NodeConfigData :=
  { c with demand := c.demand.withManifestSupport }

/-- `if node_config.priority_subnet_tag`: the tag, when it is not empty. -/
def priority (c : NodeConfigData) : Option String :=
  match c.prioritySubnetTag with
  | some tag => if tag = "" then none else some tag
  | none => none

end NodeConfigData
