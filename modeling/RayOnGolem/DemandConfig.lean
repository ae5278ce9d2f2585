import Mathlib.Data.Rat.Floor
import RayOnGolem.Models

/-!
# Payloads from a demand configuration

`DemandConfigHelper.get_payloads_from_demand_config` looks the image up in the registry and
makes the payloads of a demand.  Whatever goes wrong on the way is an exception; the server
answers a `RayOnGolemServerError` with its message and status 400, and nothing else.

The answers of the registry are inputs.  An object of `golem-core` is the record of what its
constructor is given, and `golem` says whether the constructor raises.
-/

/-- `RayOnGolemServerError` and its subclasses. -/
inductive ServerErrorClass
  | rayOnGolemServerError
  | clusterNotFound
  | nodeNotFound
  | registryRequestError
  deriving DecidableEq, Repr

/-- The class attribute `message`. -/
def ServerErrorClass.message : ServerErrorClass → Option String
  | .rayOnGolemServerError => none
  | .clusterNotFound => some "Cluster with given name not found"
  | .nodeNotFound => some "Node with given id not found"
  | .registryRequestError => some "Golem Registry request failed"

/-- The exceptions that the preparation of a node can end with. -/
inductive PyException
  | serverError (cls : ServerErrorClass) (message : Option String)
  | typeError
  | attributeError
  | keyError (key : String)
  | valueError
  | overflowError
  | contentTypeError
  | other
  deriving DecidableEq, Repr

/-- What `raise cls(additional_message)` raises: `self.message += ...` is evaluated by the
constructor. -/
def ServerErrorClass.raised (cls : ServerErrorClass) (additionalMessage : String) : PyException :=
  if additionalMessage = "" then .serverError cls cls.message
  else
    match cls.message with
    | some message => .serverError cls (some (message ++ "\n" ++ additionalMessage))
    | none => .typeError

/-- A `timedelta`, in microseconds. -/
abbrev Timedelta := Int

namespace Timedelta

def second : Timedelta := 1000000
def minute : Timedelta := 60 * second
def hour : Timedelta := 60 * minute
def day : Timedelta := 24 * hour

/-- The nearest integer, an even one for a half. -/
def roundHalfEven (q : ℚ) : Int :=
  if q - q.floor < 1 / 2 then q.floor
  else if 1 / 2 < q - q.floor then q.floor + 1
  else if q.floor % 2 = 0 then q.floor else q.floor + 1

theorem roundHalfEven_intCast (n : Int) : roundHalfEven n = n := by
  simp [roundHalfEven]

/-- `timedelta` only holds days of at most nine digits. -/
def Fits (t : Timedelta) : Prop := -999999999 * day ≤ t ∧ t < 1000000000 * day

instance (t : Timedelta) : Decidable (Fits t) := inferInstanceAs (Decidable (_ ∧ _))

/-- `timedelta(hours=x)`. -/
def ofHours : PyFloat → Except PyException Timedelta
  | .finite q =>
      let t := roundHalfEven (q * hour)
      if Fits t then .ok t else .error .overflowError
  | .inf => .error .overflowError
  | .negInf => .error .overflowError
  | .nan => .error .valueError

/-- `int(t.total_seconds())`. -/
def wholeSeconds (t : Timedelta) : Int := t.tdiv second

end Timedelta

/-- What the two payloads of a virtual machine have in common. -/
structure VmParams where
  capabilities : List String
  minMemGib : PyFloat
  minCpuThreads : Int
  minStorageGib : PyFloat
  runtime : String
  deriving DecidableEq, Repr

/-- What `get_manifest` fills in; the rest of the manifest is constant. -/
structure Manifest where
  urls : List String
  hash : String
  protocols : List String
  outboundUrls : List String
  deriving DecidableEq, Repr

/-- The payloads of a demand. -/
inductive Payload
  | maxCpuThreads (maxCpuThreads : Option Int)
  | nodeDescriptor (nodeDescriptor : String)
  | repositoryVm (params : VmParams) (imageUrl imageHash : String)
  | manifestVm (params : VmParams) (manifest : Manifest)
  | paymentInfo (debitNotesAcceptTimeout debitNotesInterval paymentTimeout : Int)
  deriving DecidableEq, Repr

/-- The cost functions of `golem-core`. -/
inductive Pricing
  | linearPerCpuAverageCost (averageCpuLoad : PyFloat) (averageDuration : Timedelta)
  | linearCoeffsCost (coeff : String)
  deriving DecidableEq, Repr

/-- Scorers, and the weights of those that have one. -/
inductive ProposalScorer
  | mapScore (pricing : Pricing) (normalize normalizeFlip : Bool)
  | reputation (paymentNetwork : String)
  | random
  deriving DecidableEq, Repr

inductive Negotiator
  | paymentPlatform
  | midAgreementPayments (minDebitNoteInterval optimalDebitNoteInterval minPaymentTimeout
      optimalPaymentTimeout : Timedelta)
  deriving DecidableEq, Repr

inductive ProposalManagerPlugin
  | providerBlacklist (paymentNetwork : String)
  | rejectIfCostsExceeds (limit : PyFloat) (pricing : Pricing)
  | scoringBuffer (minSize maxSize : Nat) (fillAtStart : Bool)
      (proposalScorers : List (Option ℚ × ProposalScorer)) (scoringDebounce : Timedelta)
  | negotiating (proposalNegotiators : List Negotiator) (proposalResponseTimeout : Timedelta)
  | buffer (minSize maxSize fillConcurrencySize : Nat)
  deriving DecidableEq, Repr

inductive Manager
  | refreshingDemand (payloads : List Payload) (demandLifetime : Timedelta) (subnetTag : String)
  | defaultProposal (plugins : List ProposalManagerPlugin)
  | defaultAgreement
  deriving DecidableEq, Repr

/-- An object of `golem-core`, to be constructed. -/
inductive GolemObject
  | payload (p : Payload)
  | pricing (p : Pricing)
  | scorer (s : ProposalScorer)
  | negotiator (n : Negotiator)
  | plugin (p : ProposalManagerPlugin)
  | manager (m : Manager)

/-- A constructor call. -/
def new {α : Type} (golem : GolemObject → Except PyException Unit) (object : α → GolemObject)
    (a : α) : Except PyException α := do
  golem (object a)
  return a

/-- The constructors of `golem-core` raise nothing. -/
def ConstructorsReturn (golem : GolemObject → Except PyException Unit) : Prop :=
  ∀ object, golem object = .ok ()

theorem new_eq {α : Type} {golem : GolemObject → Except PyException Unit}
    (h : ConstructorsReturn golem) (object : α → GolemObject) (a : α) :
    new golem object a = .ok a := by
  rw [new, h]
  rfl

/-- A request to the registry. -/
structure RegistryQuery where
  key : String
  value : String
  count : String
  deriving DecidableEq, Repr

/-- Its answer; `data` is what `response.json()` returns, unless that raises. -/
structure RegistryAnswer where
  status : Nat
  data : Option (Dict String String)

/-- An answer with status 200 has the fields that the code reads. -/
def RegistryAnswer.Expected (a : RegistryAnswer) : Prop :=
  a.status = 200 → ∃ data url hash,
    a.data = some data ∧ data.get "http" = some url ∧ data.get "sha3" = some hash

/-- `await response.json()`. -/
def RegistryAnswer.json (a : RegistryAnswer) : Except PyException (Dict String String) :=
  match a.data with
  | some data => .ok data
  | none => .error .contentTypeError

/-- `d[key]`. -/
def Dict.getItem (d : Dict String String) (key : String) : Except PyException String :=
  match d.get key with
  | some v => .ok v
  | none => .error (.keyError key)

namespace DemandConfigHelper

/-- `str(self._registry_stats).lower()`. -/
def count (registryStats : Bool) : String := if registryStats then "true" else "false"

/-- The end of both lookups, for an answer whose status is not 200. -/
def lookupFailed (status : Nat) (notFound : String) : PyException :=
  if status = 404 then ServerErrorClass.registryRequestError.raised notFound
  else
    ServerErrorClass.registryRequestError.raised "Can't access Golem Registry for image lookup!"

/-- `_get_image_url_from_hash`. -/
def getImageUrlFromHash (registryStats : Bool) (registry : RegistryQuery → RegistryAnswer)
    (imageHash : String) : Except PyException String := do
  let response := registry ⟨"hash", imageHash, count registryStats⟩
  let responseData ← response.json
  if response.status = 200 then
    responseData.getItem "http"
  else
    throw (lookupFailed response.status ("Image hash `" ++ imageHash ++ "` does not exist"))

/-- `_get_image_url_and_hash_from_tag`. -/
def getImageUrlAndHashFromTag (registryStats : Bool) (registry : RegistryQuery → RegistryAnswer)
    (imageTag : String) : Except PyException (String × String) := do
  let response := registry ⟨"tag", imageTag, count registryStats⟩
  let responseData ← response.json
  if response.status = 200 then
    return (← responseData.getItem "http", ← responseData.getItem "sha3")
  else
    throw (lookupFailed response.status ("Image tag `" ++ imageTag ++ "` does not exist"))

/-- `_get_image_url_and_hash`. -/
def getImageUrlAndHash (registryStats : Bool) (registry : RegistryQuery → RegistryAnswer)
    (demandConfig : DemandConfigData) : Except PyException (String × String) :=
  match demandConfig.imageTag, demandConfig.imageHash with
  | some _, some _ =>
      throw (ServerErrorClass.rayOnGolemServerError.raised
        "Either the `image_tag` or `image_hash` is allowed, not both.")
  | none, none =>
      throw (ServerErrorClass.rayOnGolemServerError.raised
        "Either the `image_tag` or `image_hash` is required.")
  | none, some imageHash => do
      let imageUrl ← getImageUrlFromHash registryStats registry imageHash
      return (imageUrl, imageHash)
  | some imageTag, none => getImageUrlAndHashFromTag registryStats registry imageTag

/-- What `demand_config.dict(exclude=...)` leaves. -/
def vmParams (demandConfig : DemandConfigData) : VmParams :=
  ⟨demandConfig.capabilities, demandConfig.minMemGib, demandConfig.minCpuThreads,
    demandConfig.minStorageGib, demandConfig.runtime⟩

/-- `url.scheme`. -/
def scheme (url : String) : String := ((url.splitOn "://").head?).getD ""

/-- `get_manifest`; the order of the protocols is that of a Python set. -/
def getManifest (imageUrl imageHash : String) (outboundUrls : List String) : Manifest :=
  ⟨[imageUrl], "sha3:" ++ imageHash, (outboundUrls.map scheme).dedup, outboundUrls⟩

/-- `get_payloads_from_demand_config`: the payloads, and the demand as it leaves it. -/
def getPayloadsFromDemandConfig (golem : GolemObject → Except PyException Unit)
    (registryStats : Bool) (registry : RegistryQuery → RegistryAnswer)
    (demandConfig : DemandConfigData) :
    Except PyException (List Payload × DemandConfigData) := do
  let (imageUrl, imageHash) ← getImageUrlAndHash registryStats registry demandConfig
  let maxCpuThreads ← new golem .payload (Payload.maxCpuThreads demandConfig.maxCpuThreads)
  let nodeDescriptor ← demandConfig.nodeDescriptor.toList.mapM fun nodeDescriptor =>
    new golem .payload (Payload.nodeDescriptor nodeDescriptor)
  let payloads := maxCpuThreads :: nodeDescriptor
  if demandConfig.outboundUrls = [] then
    let payload ← new golem .payload
      (Payload.repositoryVm (vmParams demandConfig) imageUrl imageHash)
    return (payloads ++ [payload], demandConfig)
  else
    let demandConfig := demandConfig.withManifestSupport
    let payload ← new golem .payload
      (Payload.manifestVm (vmParams demandConfig)
        (getManifest imageUrl imageHash demandConfig.outboundUrls))
    return (payloads ++ [payload], demandConfig)

end DemandConfigHelper
