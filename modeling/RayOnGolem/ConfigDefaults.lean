import RayOnGolem.Lib.PyMerge
import RayOnGolem.Models

/-!
# Config defaults

`_apply_config_defaults` of the node provider, on the objects that Python works on: the
config is changed in place, its node types get new dictionaries that share with what they
are merged from, and `PROVIDER_DEFAULTS` and `HEAD_NODE_DEFAULTS` are objects that all calls
in a process use.

`dpath.merge` and the md5 digest are parameters.  No result means that Python raises.
-/

namespace ConfigDefaults

open PyHeap

/-- What is not a dictionary or a list, and the keys of dictionaries. -/
inductive Scalar
  | none
  | bool (b : Bool)
  | int (n : Int)
  | float (x : PyFloat)
  | str (s : String)
  deriving DecidableEq, Repr

instance : Coe String Scalar := ⟨.str⟩

abbrev Value := PyHeap.Value Scalar
abbrev Heap := PyHeap.Heap Scalar Scalar

/-- The float that a truth value or an integer is equal to. -/
def Scalar.number : Scalar → Scalar
  | .bool b => .float (.finite b.toNat)
  | .int n => .float (.finite n)
  | s => s

/-- `==` of two scalars. -/
def Scalar.equals (s t : Scalar) : Bool := s ≠ .float .nan && s.number = t.number

/-- `==` of a key and a value. -/
def equalsKey (k : Scalar) : Value → Bool
  | .atom s => k.equals s
  | .ref _ => false

/-- A text as a value. -/
abbrev text (s : String) : Value := .atom (.str s)

/-- The keys that `dpath.merge` reads: it passes over a null or a float without a word. -/
def readsKey : Scalar → Bool
  | .none | .float _ => false
  | .bool _ | .int _ | .str _ => true

/-- The keys on which `dpath.merge` is relied on not to raise: the texts that are not empty. -/
def acceptsKey : Scalar → Bool
  | .str s => s ≠ ""
  | .none | .bool _ | .int _ | .float _ => false

theorem readsKey_of_acceptsKey (k : Scalar) (hk : acceptsKey k = true) : readsKey k = true := by
  cases k with
  | str s => rfl
  | none | bool | int | float => cases hk

/-! ### The defaults of the module -/

def PAYMENT_NETWORK_HOLESKY : String := "holesky"
def PAYMENT_DRIVER_ERC20 : String := "erc20"
def TMP_PATH : String := "/tmp/ray_on_golem"

/-- The objects that the module makes when it is loaded. -/
def moduleHeap : Heap :=
  [.dict ⟨[
      ("webserver_port", .atom (.int 4578)),
      ("webserver_datadir", .atom .none),
      ("ray_gcs_expose_port", .atom (.int 6379)),
      ("enable_registry_stats", .atom (.bool true)),
      ("payment_network", text PAYMENT_NETWORK_HOLESKY),
      ("payment_driver", text PAYMENT_DRIVER_ERC20),
      ("node_config", .ref 1),
      ("total_budget", .atom (.float (.finite 5)))]⟩,
    .dict ⟨[("subnet_tag", text "public")]⟩,
    .dict ⟨[("node_config", .ref 3)]⟩,
    .dict ⟨[("priority_subnet_tag", text "ray-on-golem-heads")]⟩]

def PROVIDER_DEFAULTS : Value := .ref 0

def HEAD_NODE_DEFAULTS : Value := .ref 2

/-! ### Applying them -/

section Apply

variable (merge : Heap → Value → Value → Option Heap) (md5 : String → String)

/-- `get_default_ssh_key_name`. -/
def getDefaultSshKeyName (clusterName : String) : String :=
  "ray_on_golem_rsa_" ++ ((md5 clusterName).take 10).toString

/-- The provider parameters over their defaults. -/
def mergeParameters (h : Heap) (config : Value) : Option (Heap × Value) := do
  let (h, providerParameters) := deepcopy h PROVIDER_DEFAULTS
  let provider ← getItem h config "provider"
  let parameters ← getItem h provider "parameters"
  let h ← merge h providerParameters parameters
  let provider ← getItem h config "provider"
  let h ← setItem h provider "parameters" providerParameters
  return (h, providerParameters)

/-- The result for a node type and its `node_config`, before anything is merged. -/
def startResult (config : Value) (h : Heap) (nodeTypeName : Scalar) :
    Option (Heap × Value × Value) := do
  let (h, result) := alloc h (.dict {})
  let headNodeType ← getDefault h config "head_node_type" (text "ray.head.default")
  let (h, result) :=
    if equalsKey nodeTypeName headNodeType then deepcopy h HEAD_NODE_DEFAULTS else (h, result)
  let (h, empty) := alloc h (.dict {})
  let (h, nodeConfig) ← setdefault h result "node_config" empty
  return (h, result, nodeConfig)

/-- The body of the loop over the node types. -/
def resolveNodeType (config : Value) (h : Heap) (nodeTypeName : Scalar) (nodeType : Value) :
    Option Heap := do
  let (h, result, nodeConfig) ← startResult config h nodeTypeName
  let provider ← getItem h config "provider"
  let parameters ← getItem h provider "parameters"
  let providerNodeConfig ← getItem h parameters "node_config"
  let (h, copied) := deepcopy h providerNodeConfig
  let h ← merge h nodeConfig copied
  let nodeConfig ← getItem h result "node_config"
  let ownNodeConfig ← getItem h nodeType "node_config"
  let h ← merge h nodeConfig ownNodeConfig
  update h nodeType result

/-- The loop over the node types; a dictionary may not change its size meanwhile. -/
def resolveNodeTypes (config nodeTypes : Value) (size : Nat) : Heap → List Scalar → Option Heap
  | h, [] => some h
  | h, nodeTypeName :: names => do
      let nodeType ← getItem h nodeTypes nodeTypeName
      let h ← resolveNodeType merge config h nodeTypeName nodeType
      if (← keys h nodeTypes).length = size then
        resolveNodeTypes config nodeTypes size h names
      else none

/-- A private key for `auth`, unless it has one. -/
def defaultSshPrivateKey (config auth : Value) (h : Heap) : Option Heap := do
  if ← contains h auth "ssh_private_key" then
    some h
  else
    match ← getItem h config "cluster_name" with
    | .atom (.str clusterName) =>
        setItem h auth (.str "ssh_private_key")
          (text (TMP_PATH ++ "/" ++ getDefaultSshKeyName md5 clusterName))
    | _ => none

/-- The ssh details of the cluster and, for the client, of the provider. -/
def applySshDefaults (config providerParameters : Value) (h : Heap) : Option Heap := do
  let (h, empty) := alloc h (.dict {})
  let (h, auth) ← setdefault h config "auth" empty
  let (h, _) ← setdefault h auth "ssh_user" (text "root")
  let h ← defaultSshPrivateKey md5 config auth h
  let sshPrivateKey ← getItem h auth "ssh_private_key"
  let h ← setItem h providerParameters "ssh_private_key" sshPrivateKey
  let sshUser ← getItem h auth "ssh_user"
  setItem h providerParameters "ssh_user" sshUser

/-- `_apply_config_defaults`. -/
def applyConfigDefaults (h : Heap) (config : Value) : Option Heap := do
  let (h, providerParameters) ← mergeParameters merge h config
  let (h, empty) := alloc h (.dict {})
  let nodeTypes ← getDefault h config "available_node_types" empty
  let names ← keys h nodeTypes
  let h ← resolveNodeTypes merge config nodeTypes names.length h names
  applySshDefaults md5 config providerParameters h

end Apply

end ConfigDefaults
