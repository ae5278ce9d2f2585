import RayOnGolem.DemandConfig

/-!
# Creating a manager stack

`ManagerStack.create` prepares everything that a node configuration asks for: the payloads
of its demand, the plugins and scorers of its budget control and the managers of the stack.
What goes wrong should reach the requestor as a `RayOnGolemServerError` with a message.

The base class of these errors has no message of its own, so that raising it with an
additional one fails with a `TypeError`; a budget control that is `null` is dereferenced, hours
beyond a `timedelta` overflow, and the registry's answer is parsed before its status is
looked at.  Main results:

* `lookup_outcome` -- how the image lookup ends, for every configuration and answer;
* `bad_config_reported` -- exactly when the creation succeeds or raises a server error with
  a message;
* `missing_image_not_reported` -- a configuration without an image.
-/

namespace StackConfig

open DemandConfigHelper

/-- The extra plugins, by the text of their names and the value in it. -/
abbrev ExtraPlugins := Dict (String × PyFloat) ProposalManagerPlugin

/-- The extra scorers. -/
abbrev ExtraScorers := Dict String ProposalScorer

/-- `node_config.budget_control.attr`, where the budget control may be `None`. -/
def getAttr {α : Type} (budgetControl : Option BudgetControlData)
    (get : BudgetControlData → α) : Except PyException α :=
  match budgetControl with
  | some b => .ok (get b)
  | none => .error .attributeError

/-- `x / 3600`. -/
def perSecond : PyFloat → PyFloat
  | .finite q => .finite (q / 3600)
  | .inf => .inf
  | .negInf => .negInf
  | .nan => .nan

/-- `RejectIfCostsExceeds(limit, pricing)` under the given name. -/
def rejectIfCostsExceeds (golem : GolemObject → Except PyException Unit)
    (plugins : ExtraPlugins) (name : String) (value limit : PyFloat) (pricing : Pricing) :
    Except PyException ExtraPlugins := do
  let plugin ← new golem .plugin (ProposalManagerPlugin.rejectIfCostsExceeds limit pricing)
  return plugins.set (name, value) plugin

/-- `apply_budget_control_expected_usage`. -/
def applyBudgetControlExpectedUsage (golem : GolemObject → Except PyException Unit)
    (extraProposalPlugins : ExtraPlugins) (extraProposalScorers : ExtraScorers)
    (budgetControl : Option BudgetControlData) :
    Except PyException (ExtraPlugins × ExtraScorers) := do
  match ← getAttr budgetControl BudgetControlData.perCpuExpectedUsage with
  | none => return (extraProposalPlugins, extraProposalScorers)
  | some perCpuExpectedUsage =>
      let averageDuration ← Timedelta.ofHours perCpuExpectedUsage.durationHours
      let pricing ← new golem .pricing
        (Pricing.linearPerCpuAverageCost perCpuExpectedUsage.cpuLoad averageDuration)
      let scorer ← new golem .scorer (ProposalScorer.mapScore pricing true true)
      let scorers := extraProposalScorers.set "Sort by linear per cpu average cost" scorer
      match perCpuExpectedUsage.maxCost with
      | none => return (extraProposalPlugins, scorers)
      | some maxCost =>
          let plugins ← rejectIfCostsExceeds golem extraProposalPlugins
            "Reject if per cpu expected cost exceeds `max_cost` = " maxCost maxCost pricing
          return (plugins, scorers)

/-- One limit of `apply_budget_control_hard_limits`. -/
def applyHardLimit (golem : GolemObject → Except PyException Unit) (plugins : ExtraPlugins)
    (name coeff : String) (limit : PyFloat → PyFloat) (price : Option PyFloat) :
    Except PyException ExtraPlugins :=
  match price with
  | none => return plugins
  | some price => do
      let pricing ← new golem .pricing (Pricing.linearCoeffsCost coeff)
      rejectIfCostsExceeds golem plugins name price (limit price) pricing

/-- `apply_budget_control_hard_limits`. -/
def applyBudgetControlHardLimits (golem : GolemObject → Except PyException Unit)
    (extraProposalPlugins : ExtraPlugins) (budgetControl : Option BudgetControlData) :
    Except PyException ExtraPlugins := do
  let maxStartPrice ← getAttr budgetControl BudgetControlData.maxStartPrice
  let plugins ← applyHardLimit golem {} "Reject if start price exceeds `max_start_price` = "
    "price_initial" id maxStartPrice
  let maxCpuPerHourPrice ← getAttr budgetControl BudgetControlData.maxCpuPerHourPrice
  let plugins ← applyHardLimit golem plugins
    "Reject if cpu hour price exceeds `max_cpu_hour_price` = " "price_cpu_sec" perSecond
    maxCpuPerHourPrice
  let maxEnvPerHourPrice ← getAttr budgetControl BudgetControlData.maxEnvPerHourPrice
  let plugins ← applyHardLimit golem plugins
    "Reject if env per hour price exceeds `max_env_per_hour_price` = " "price_duration_sec"
    perSecond maxEnvPerHourPrice
  return extraProposalPlugins.update plugins

/-- The module constants. -/
def defaultLongRunningDemandLifetime : Timedelta := 365 * Timedelta.day
def defaultDebitNoteInterval : Timedelta := 3 * Timedelta.minute
def defaultDebitNotesAcceptTimeout : Timedelta := 4 * Timedelta.minute
def defaultProposalResponseTimeout : Timedelta := 30 * Timedelta.second

/-- The managers of the stack, from what the configuration gives. -/
def managers (golem : GolemObject → Except PyException Unit) (payloads : List Payload)
    (plugins : ExtraPlugins) (scorers : ExtraScorers) (negotiators : List Negotiator)
    (subnetTag paymentNetwork : String) : Except PyException (List Manager) := do
  let demandManager ← new golem .manager
    (Manager.refreshingDemand payloads defaultLongRunningDemandLifetime subnetTag)
  let randomScore ← new golem .scorer ProposalScorer.random
  let scoringBuffer ← new golem .plugin
    (ProposalManagerPlugin.scoringBuffer 50 1000 true
      (scorers.values.map (fun scorer => (none, scorer)) ++
        [(none, .reputation paymentNetwork), (some (1 / 10), randomScore)])
      (10 * Timedelta.second))
  let negotiating ← new golem .plugin
    (ProposalManagerPlugin.negotiating negotiators defaultProposalResponseTimeout)
  let buffer ← new golem .plugin (ProposalManagerPlugin.buffer 0 4 4)
  let proposalManager ← new golem .manager
    (Manager.defaultProposal
      (.providerBlacklist paymentNetwork :: plugins.values ++ [scoringBuffer, negotiating, buffer]))
  let agreementManager ← new golem .manager Manager.defaultAgreement
  return [demandManager, proposalManager, agreementManager]

/-- `ManagerStack.create`: the managers of the stack, and the configuration as it leaves it. -/
def create (golem : GolemObject → Except PyException Unit) (registryStats : Bool)
    (registry : RegistryQuery → RegistryAnswer) (nodeConfig : NodeConfigData)
    (subnetTag paymentNetwork : String) : Except PyException (List Manager × NodeConfigData) := do
  let (payloads, demand) ←
    getPayloadsFromDemandConfig golem registryStats registry nodeConfig.demand
  let (plugins, scorers) ← applyBudgetControlExpectedUsage golem {} {} nodeConfig.budgetControl
  let plugins ← applyBudgetControlHardLimits golem plugins nodeConfig.budgetControl
  let platformNegotiator ← new golem .negotiator Negotiator.paymentPlatform
  let paymentIntervalHours ← getAttr nodeConfig.budgetControl
    BudgetControlData.paymentIntervalHours
  let minimalPaymentTimeout ← Timedelta.ofHours paymentIntervalHours.minimal
  let optimalPaymentTimeout ← Timedelta.ofHours paymentIntervalHours.optimal
  let payment ← new golem .payload
    (Payload.paymentInfo (Timedelta.wholeSeconds defaultDebitNotesAcceptTimeout)
      (Timedelta.wholeSeconds defaultDebitNoteInterval)
      (Timedelta.wholeSeconds minimalPaymentTimeout))
  let paymentsNegotiator ← new golem .negotiator
    (Negotiator.midAgreementPayments defaultDebitNoteInterval defaultDebitNoteInterval
      minimalPaymentTimeout optimalPaymentTimeout)
  let managers ← managers golem (payloads ++ [payment]) plugins scorers
    [platformNegotiator, paymentsNegotiator] subnetTag paymentNetwork
  return (managers, { nodeConfig with demand := demand })

/-! ### What is reported -/

/-- A server error with a message that is not empty: the error middleware answers it with
status 400. -/
def IsReported : PyException → Prop
  | .serverError _ (some message) => message ≠ ""
  | _ => False

/-- A result, or an exception that is reported. -/
def Reported {α : Type} : Except PyException α → Prop
  | .ok _ => True
  | .error e => IsReported e

/-- An exception that is not reported. -/
def Escapes {α : Type} (x : Except PyException α) : Prop := ∃ e, x = .error e ∧ ¬ IsReported e

variable {α β : Type} {golem : GolemObject → Except PyException Unit} {registryStats : Bool}
  {registry : RegistryQuery → RegistryAnswer} {e : PyException}

theorem bind_of_ok {x : Except PyException α} {a : α} (h : x = .ok a)
    (f : α → Except PyException β) : x >>= f = f a := by
  rw [h]
  rfl

theorem bind_of_error {x : Except PyException α} (h : x = .error e)
    (f : α → Except PyException β) : x >>= f = .error e := by
  rw [h]
  rfl

theorem Escapes.bind {x : Except PyException α} (h : Escapes x)
    (f : α → Except PyException β) : Escapes (x >>= f) := by
  obtain ⟨e, he, hnot⟩ := h
  exact ⟨e, bind_of_error he f, hnot⟩

theorem Escapes.not_reported {x : Except PyException α} (h : Escapes x) : ¬ Reported x := by
  obtain ⟨e, rfl, hnot⟩ := h
  exact hnot

/-! ### The image -/

/-- The request that a demand with exactly one of the two fields leads to. -/
def imageQuery (registryStats : Bool) (demandConfig : DemandConfigData) : Option RegistryQuery :=
  match demandConfig.imageTag, demandConfig.imageHash with
  | none, some imageHash => some ⟨"hash", imageHash, count registryStats⟩
  | some imageTag, none => some ⟨"tag", imageTag, count registryStats⟩
  | _, _ => none

/-- **An additional message makes a `TypeError` of the base class.** -/
theorem raised_base {text : String} (h : text ≠ "") :
    ServerErrorClass.rayOnGolemServerError.raised text = .typeError := by
  rw [ServerErrorClass.raised, if_neg h]
  rfl

/-- Every failed lookup is reported. -/
theorem isReported_lookupFailed (status : Nat) (notFound : String) :
    IsReported (lookupFailed status notFound) := by
  have hreported : ∀ text, IsReported (ServerErrorClass.registryRequestError.raised text) := by
    intro text
    unfold ServerErrorClass.raised
    split
    · simp [ServerErrorClass.message, IsReported]
    · intro hempty
      have hlength := congrArg String.length hempty
      simp at hlength
  unfold lookupFailed
  split <;> exact hreported _

/-- How a lookup ends, by the answer it got. -/
structure LookupOutcome (a : RegistryAnswer) (x : Except PyException α) : Prop where
  unreadable : a.data = none → Escapes x
  refused : a.data ≠ none → a.status ≠ 200 → ∃ e, IsReported e ∧ x = .error e
  found : a.status = 200 → ∃ r, x = .ok r

/-- Both lookups: the answer is parsed before its status is looked at. -/
theorem lookupOutcome_of {a : RegistryAnswer} (hexpected : a.Expected)
    {read : Dict String String → Except PyException α}
    (hread : ∀ data url hash, data.get "http" = some url → data.get "sha3" = some hash →
      ∃ r, read data = .ok r) (notFound : String) :
    LookupOutcome a (a.json >>= fun data =>
      if a.status = 200 then read data else throw (lookupFailed a.status notFound)) where
  unreadable hdata := by
    have hjson : Escapes a.json := ⟨.contentTypeError, by rw [RegistryAnswer.json, hdata], id⟩
    exact hjson.bind _
  refused hdata hstatus := by
    obtain ⟨data, hdata⟩ := Option.ne_none_iff_exists'.mp hdata
    refine ⟨_, isReported_lookupFailed a.status notFound, ?_⟩
    rw [RegistryAnswer.json, hdata, bind_of_ok rfl, if_neg hstatus]
    rfl
  found hstatus := by
    obtain ⟨data, url, hash, hdata, hurl, hhash⟩ := hexpected hstatus
    obtain ⟨r, hr⟩ := hread data url hash hurl hhash
    refine ⟨r, ?_⟩
    rw [RegistryAnswer.json, hdata, bind_of_ok rfl, if_pos hstatus, hr]

theorem LookupOutcome.map {a : RegistryAnswer} {x : Except PyException α}
    (h : LookupOutcome a x) (f : α → β) :
    LookupOutcome a (x >>= fun r => return f r) where
  unreadable hdata := (h.unreadable hdata).bind _
  refused hdata hstatus := by
    obtain ⟨e, he, hx⟩ := h.refused hdata hstatus
    exact ⟨e, he, bind_of_error hx _⟩
  found hstatus := by
    obtain ⟨r, hr⟩ := h.found hstatus
    exact ⟨f r, bind_of_ok hr _⟩

theorem getItem_of_get {d : Dict String String} {key v : String} (h : d.get key = some v) :
    d.getItem key = .ok v := by
  rw [Dict.getItem, h]

/-- A demand with both fields, or with none. -/
theorem lookup_of_no_query {demandConfig : DemandConfigData}
    (h : imageQuery registryStats demandConfig = none) :
    Escapes (getImageUrlAndHash registryStats registry demandConfig) := by
  have hbase : ∀ {text : String}, text ≠ "" →
      Escapes (throw (ServerErrorClass.rayOnGolemServerError.raised text) :
        Except PyException (String × String)) := by
    intro text htext
    exact ⟨.typeError, by rw [raised_base htext]; rfl, id⟩
  unfold imageQuery at h
  unfold getImageUrlAndHash
  cases htag : demandConfig.imageTag with
  | none =>
      cases hhash : demandConfig.imageHash with
      | none => exact hbase (by simp)
      | some imageHash => simp [htag, hhash] at h
  | some imageTag =>
      cases hhash : demandConfig.imageHash with
      | none => simp [htag, hhash] at h
      | some imageHash => exact hbase (by simp)

/-- **How the image lookup ends** for a demand with exactly one of the two fields. -/
theorem lookup_outcome {demandConfig : DemandConfigData} {q : RegistryQuery}
    (hexpected : (registry q).Expected) (h : imageQuery registryStats demandConfig = some q) :
    LookupOutcome (registry q) (getImageUrlAndHash registryStats registry demandConfig) := by
  unfold imageQuery at h
  unfold getImageUrlAndHash
  cases htag : demandConfig.imageTag with
  | none =>
      cases hhash : demandConfig.imageHash with
      | none => simp [htag, hhash] at h
      | some imageHash =>
          obtain rfl : ⟨"hash", imageHash, count registryStats⟩ = q := by
            simpa [htag, hhash] using h
          refine LookupOutcome.map (lookupOutcome_of hexpected ?_ _) _
          intro data url hash hurl hhash
          exact ⟨url, getItem_of_get hurl⟩
  | some imageTag =>
      cases hhash : demandConfig.imageHash with
      | none =>
          obtain rfl : ⟨"tag", imageTag, count registryStats⟩ = q := by
            simpa [htag, hhash] using h
          refine lookupOutcome_of hexpected ?_ _
          intro data url hash hurl hhash
          refine ⟨(url, hash), ?_⟩
          rw [getItem_of_get hurl, getItem_of_get hhash]
          rfl
      | some imageHash => simp [htag, hhash] at h

/-! ### The payloads -/

/-- Once the image is found, the payloads are made. -/
theorem payloads_of_image (hgolem : ConstructorsReturn golem) {demandConfig : DemandConfigData}
    {image : String × String}
    (h : getImageUrlAndHash registryStats registry demandConfig = .ok image) :
    ∃ payloads, getPayloadsFromDemandConfig golem registryStats registry demandConfig =
      .ok payloads := by
  have hdescriptor : ∃ l, (demandConfig.nodeDescriptor.toList.mapM fun nodeDescriptor =>
      new golem .payload (Payload.nodeDescriptor nodeDescriptor)) = .ok l := by
    cases demandConfig.nodeDescriptor with
    | none => exact ⟨[], rfl⟩
    | some nodeDescriptor =>
        refine ⟨[.nodeDescriptor nodeDescriptor], ?_⟩
        simp [new_eq hgolem]
  obtain ⟨l, hl⟩ := hdescriptor
  obtain ⟨imageUrl, imageHash⟩ := image
  rw [getPayloadsFromDemandConfig, bind_of_ok h]
  dsimp only
  rw [bind_of_ok (new_eq hgolem _ _), bind_of_ok hl]
  split
  · exact ⟨_, by rw [bind_of_ok (new_eq hgolem _ _)]; rfl⟩
  · exact ⟨_, by rw [bind_of_ok (new_eq hgolem _ _)]; rfl⟩

/-! ### The budget control -/

/-- The hours fit in a `timedelta`. -/
def FitsTimedelta (hours : PyFloat) : Prop :=
  ∃ q, hours = .finite q ∧ Timedelta.Fits (Timedelta.roundHalfEven (q * Timedelta.hour))

theorem ofHours_of_fits {hours : PyFloat} (h : FitsTimedelta hours) :
    ∃ t, Timedelta.ofHours hours = .ok t := by
  obtain ⟨q, rfl, hfits⟩ := h
  exact ⟨_, by rw [Timedelta.ofHours, if_pos hfits]⟩

theorem ofHours_of_not_fits {hours : PyFloat} (h : ¬ FitsTimedelta hours) :
    Escapes (Timedelta.ofHours hours) := by
  cases hours with
  | finite q =>
      have hfits : ¬ Timedelta.Fits (Timedelta.roundHalfEven (q * Timedelta.hour)) :=
        fun hfits => h ⟨q, rfl, hfits⟩
      exact ⟨.overflowError, by rw [Timedelta.ofHours, if_neg hfits], id⟩
  | inf => exact ⟨.overflowError, rfl, id⟩
  | negInf => exact ⟨.overflowError, rfl, id⟩
  | nan => exact ⟨.valueError, rfl, id⟩

/-- A budget control whose hours fit. -/
structure HoursFit (b : BudgetControlData) : Prop where
  usage : ∀ u, b.perCpuExpectedUsage = some u → FitsTimedelta u.durationHours
  minimal : FitsTimedelta b.paymentIntervalHours.minimal
  optimal : FitsTimedelta b.paymentIntervalHours.optimal

theorem getAttr_some (b : BudgetControlData) (get : BudgetControlData → α) :
    getAttr (some b) get = .ok (get b) := rfl

theorem rejectIfCostsExceeds_ok (hgolem : ConstructorsReturn golem) (plugins : ExtraPlugins)
    (name : String) (value limit : PyFloat) (pricing : Pricing) :
    ∃ r, rejectIfCostsExceeds golem plugins name value limit pricing = .ok r :=
  ⟨_, by rw [rejectIfCostsExceeds, bind_of_ok (new_eq hgolem _ _)]; rfl⟩

theorem applyHardLimit_ok (hgolem : ConstructorsReturn golem) (plugins : ExtraPlugins)
    (name coeff : String) (limit : PyFloat → PyFloat) (price : Option PyFloat) :
    ∃ r, applyHardLimit golem plugins name coeff limit price = .ok r := by
  cases price with
  | none => exact ⟨plugins, rfl⟩
  | some price =>
      obtain ⟨r, hr⟩ := rejectIfCostsExceeds_ok hgolem plugins name price (limit price)
        (.linearCoeffsCost coeff)
      exact ⟨r, by rw [applyHardLimit, bind_of_ok (new_eq hgolem _ _), hr]⟩

/-- The limits of a budget control always apply. -/
theorem hardLimits_ok (hgolem : ConstructorsReturn golem) (plugins : ExtraPlugins)
    (b : BudgetControlData) :
    ∃ r, applyBudgetControlHardLimits golem plugins (some b) = .ok r := by
  obtain ⟨r₁, h₁⟩ := applyHardLimit_ok hgolem {}
    "Reject if start price exceeds `max_start_price` = "
    "price_initial" id b.maxStartPrice
  obtain ⟨r₂, h₂⟩ := applyHardLimit_ok hgolem r₁
    "Reject if cpu hour price exceeds `max_cpu_hour_price` = " "price_cpu_sec" perSecond
    b.maxCpuPerHourPrice
  obtain ⟨r₃, h₃⟩ := applyHardLimit_ok hgolem r₂
    "Reject if env per hour price exceeds `max_env_per_hour_price` = " "price_duration_sec"
    perSecond b.maxEnvPerHourPrice
  exact ⟨_, by
    rw [applyBudgetControlHardLimits, bind_of_ok (getAttr_some b _), bind_of_ok h₁,
      bind_of_ok (getAttr_some b _), bind_of_ok h₂, bind_of_ok (getAttr_some b _), bind_of_ok h₃]
    rfl⟩

/-- The expected usage of a budget control. -/
theorem expectedUsage_outcome (hgolem : ConstructorsReturn golem) (plugins : ExtraPlugins)
    (scorers : ExtraScorers) (b : BudgetControlData) :
    ((∀ u, b.perCpuExpectedUsage = some u → FitsTimedelta u.durationHours) →
      ∃ r, applyBudgetControlExpectedUsage golem plugins scorers (some b) = .ok r) ∧
    ((¬ ∀ u, b.perCpuExpectedUsage = some u → FitsTimedelta u.durationHours) →
      Escapes (applyBudgetControlExpectedUsage golem plugins scorers (some b))) := by
  unfold applyBudgetControlExpectedUsage
  rw [bind_of_ok (getAttr_some b _)]
  cases hu : b.perCpuExpectedUsage with
  | none => exact ⟨fun _ => ⟨_, rfl⟩, fun h => absurd (by simp) h⟩
  | some u =>
      simp only [Option.some.injEq, forall_eq']
      refine ⟨fun hfits => ?_, fun hfits => (ofHours_of_not_fits hfits).bind _⟩
      obtain ⟨t, ht⟩ := ofHours_of_fits hfits
      rw [bind_of_ok ht, bind_of_ok (new_eq hgolem _ _), bind_of_ok (new_eq hgolem _ _)]
      cases u.maxCost with
      | none => exact ⟨_, rfl⟩
      | some maxCost =>
          obtain ⟨r, hr⟩ := rejectIfCostsExceeds_ok hgolem plugins
            "Reject if per cpu expected cost exceeds `max_cost` = " maxCost maxCost
            (.linearPerCpuAverageCost u.cpuLoad t)
          exact ⟨_, by dsimp only; rw [bind_of_ok hr]; rfl⟩

/-! ### The whole creation -/

theorem managers_ok (hgolem : ConstructorsReturn golem) (payloads : List Payload)
    (plugins : ExtraPlugins) (scorers : ExtraScorers) (negotiators : List Negotiator)
    (subnetTag paymentNetwork : String) :
    ∃ r, managers golem payloads plugins scorers negotiators subnetTag paymentNetwork = .ok r :=
  ⟨_, by
    rw [managers]
    iterate 7 rw [bind_of_ok (new_eq hgolem _ _)]
    rfl⟩

/-- **The condition**: exactly one of the two image fields is given, the registry answers with
JSON, and, when it knows the image, there is a budget control whose hours fit. -/
def Prepares (registryStats : Bool) (registry : RegistryQuery → RegistryAnswer)
    (nodeConfig : NodeConfigData) : Prop :=
  ∃ q, imageQuery registryStats nodeConfig.demand = some q ∧ (registry q).data ≠ none ∧
    ((registry q).status = 200 → ∃ b, nodeConfig.budgetControl = some b ∧ HoursFit b)

/-- What follows the payloads. -/
theorem create_of_payloads (hgolem : ConstructorsReturn golem) {nodeConfig : NodeConfigData}
    {payloads : List Payload × DemandConfigData}
    (h : getPayloadsFromDemandConfig golem registryStats registry nodeConfig.demand =
      .ok payloads) (subnetTag paymentNetwork : String) :
    ((∃ b, nodeConfig.budgetControl = some b ∧ HoursFit b) →
      ∃ r, create golem registryStats registry nodeConfig subnetTag paymentNetwork = .ok r) ∧
    ((¬ ∃ b, nodeConfig.budgetControl = some b ∧ HoursFit b) →
      Escapes (create golem registryStats registry nodeConfig subnetTag paymentNetwork)) := by
  obtain ⟨payloads, demand⟩ := payloads
  rw [create, bind_of_ok h]
  dsimp only
  cases hb : nodeConfig.budgetControl with
  | none =>
      refine ⟨fun ⟨_, heq, _⟩ => (by cases heq), fun _ => Escapes.bind ?_ _⟩
      exact Escapes.bind ⟨.attributeError, rfl, id⟩ _
  | some b =>
      obtain ⟨husageOk, husageEscapes⟩ := expectedUsage_outcome hgolem {} {} b
      by_cases husage : ∀ u, b.perCpuExpectedUsage = some u → FitsTimedelta u.durationHours
      · obtain ⟨⟨plugins, scorers⟩, hr⟩ := husageOk husage
        obtain ⟨limits, hlimits⟩ := hardLimits_ok hgolem plugins b
        rw [bind_of_ok hr]
        dsimp only
        rw [bind_of_ok hlimits, bind_of_ok (new_eq hgolem _ _), bind_of_ok (getAttr_some b _)]
        by_cases hminimal : FitsTimedelta b.paymentIntervalHours.minimal
        · obtain ⟨minimal, hm⟩ := ofHours_of_fits hminimal
          rw [bind_of_ok hm]
          by_cases hoptimal : FitsTimedelta b.paymentIntervalHours.optimal
          · obtain ⟨optimal, ho⟩ := ofHours_of_fits hoptimal
            rw [bind_of_ok ho, bind_of_ok (new_eq hgolem _ _), bind_of_ok (new_eq hgolem _ _)]
            refine ⟨fun _ => ?_, fun hnot => absurd ⟨b, rfl, husage, hminimal, hoptimal⟩ hnot⟩
            obtain ⟨ms, hms⟩ := managers_ok hgolem _ limits scorers _ subnetTag paymentNetwork
            exact ⟨_, by rw [bind_of_ok hms]; rfl⟩
          · refine ⟨fun ⟨_, heq, hfit⟩ => ?_, fun _ => (ofHours_of_not_fits hoptimal).bind _⟩
            cases heq
            exact absurd hfit.optimal hoptimal
        · refine ⟨fun ⟨_, heq, hfit⟩ => ?_, fun _ => (ofHours_of_not_fits hminimal).bind _⟩
          cases heq
          exact absurd hfit.minimal hminimal
      · refine ⟨fun ⟨_, heq, hfit⟩ => ?_, fun _ => (husageEscapes husage).bind _⟩
        cases heq
        exact absurd hfit.usage husage

/-- **A bad node configuration is reported exactly under the condition**: for every
configuration and every answer of the registry that has the expected fields when its status
is 200, the creation succeeds or raises a server error with a message if and only if
`Prepares` holds. -/
theorem bad_config_reported (golem : GolemObject → Except PyException Unit)
    (hgolem : ConstructorsReturn golem) (registryStats : Bool)
    (registry : RegistryQuery → RegistryAnswer) (hexpected : ∀ q, (registry q).Expected)
    (nodeConfig : NodeConfigData) (subnetTag paymentNetwork : String) :
    Reported (create golem registryStats registry nodeConfig subnetTag paymentNetwork) ↔
      Prepares registryStats registry nodeConfig := by
  have hescapes : Escapes (getImageUrlAndHash registryStats registry nodeConfig.demand) →
      ¬ Reported (create golem registryStats registry nodeConfig subnetTag paymentNetwork) :=
    fun h => ((h.bind _).bind _).not_reported
  cases hq : imageQuery registryStats nodeConfig.demand with
  | none =>
      refine ⟨fun h => absurd h (hescapes (lookup_of_no_query hq)), ?_⟩
      rintro ⟨q, heq, -⟩
      rw [hq] at heq
      cases heq
  | some q =>
      have houtcome := lookup_outcome (hexpected q) hq
      have hiff : Prepares registryStats registry nodeConfig ↔ (registry q).data ≠ none ∧
          ((registry q).status = 200 → ∃ b, nodeConfig.budgetControl = some b ∧ HoursFit b) := by
        constructor
        · rintro ⟨q', heq, h⟩
          rw [hq] at heq
          cases heq
          exact h
        · exact fun h => ⟨q, hq, h⟩
      rw [hiff]
      by_cases hdata : (registry q).data = none
      · exact ⟨fun h => absurd h (hescapes (houtcome.unreadable hdata)),
          fun h => absurd hdata h.1⟩
      · by_cases hstatus : (registry q).status = 200
        · obtain ⟨image, himage⟩ := houtcome.found hstatus
          obtain ⟨payloads, hpayloads⟩ := payloads_of_image hgolem himage
          obtain ⟨hok, hnot⟩ := create_of_payloads hgolem hpayloads subnetTag paymentNetwork
          constructor
          · intro h
            refine ⟨hdata, fun _ => ?_⟩
            by_contra hbudget
            exact (hnot hbudget).not_reported h
          · rintro ⟨-, hbudget⟩
            obtain ⟨r, hr⟩ := hok (hbudget hstatus)
            rw [hr]
            trivial
        · obtain ⟨e, he, hlookup⟩ := houtcome.refused hdata hstatus
          refine ⟨fun _ => ⟨hdata, fun h => absurd h hstatus⟩, fun _ => ?_⟩
          rw [create, getPayloadsFromDemandConfig, bind_of_error hlookup, bind_of_error rfl]
          exact he

/-- A registry that knows every image. -/
def knowsImages (_ : RegistryQuery) : RegistryAnswer :=
  ⟨200, some ⟨[("http", "http://registry.golem.network/download"), ("sha3", "b4e5c1")]⟩⟩

theorem expected_knowsImages (q : RegistryQuery) : (knowsImages q).Expected :=
  fun _ => ⟨_, "http://registry.golem.network/download", "b4e5c1", rfl, rfl, rfl⟩

/-- A configuration with an image tag and the default budget control. -/
def taggedConfig : NodeConfigData :=
  { subnetTag := "public", demand := { imageTag := some "golem/ray-on-golem:latest" } }

theorem bad_config_reported_tagged :
    Reported (create (fun _ => .ok ()) true knowsImages taggedConfig "public" "holesky") := by
  refine (bad_config_reported _ (fun _ => rfl) true knowsImages expected_knowsImages taggedConfig
    "public" "holesky").mpr ⟨_, rfl, Option.some_ne_none _, fun _ => ⟨_, rfl, ?_⟩⟩
  have hfits : FitsTimedelta (.finite 12) := by
    have hround : Timedelta.roundHalfEven (12 * Timedelta.hour) = 12 * Timedelta.hour := by
      exact_mod_cast Timedelta.roundHalfEven_intCast (12 * Timedelta.hour)
    exact ⟨12, rfl, by rw [hround]; decide⟩
  exact ⟨fun u hu => (by cases hu), hfits, hfits⟩

/-- **Configurations that are accepted and not reported**: without an image; with a budget
control that is `null`; with a payment interval of `Infinity` hours.  Last, an answer of the
registry that is not JSON. -/
theorem missing_image_not_reported :
    create (fun _ => .ok ()) true knowsImages { subnetTag := "public" } "public" "holesky" =
        .error .typeError ∧
      create (fun _ => .ok ()) true knowsImages { taggedConfig with budgetControl := none }
          "public" "holesky" = .error .attributeError ∧
      create (fun _ => .ok ()) true knowsImages
          { taggedConfig with
            budgetControl := some { paymentIntervalHours := { minimal := .inf } } }
          "public" "holesky" = .error .overflowError ∧
      create (fun _ => .ok ()) true (fun _ => ⟨502, none⟩) taggedConfig "public" "holesky" =
        .error .contentTypeError ∧
      ¬ ∀ registry, (∀ q, (registry q).Expected) → ∀ nodeConfig,
        Reported (create (fun _ => .ok ()) true registry nodeConfig "public" "holesky") := by
  have hmissing : create (fun _ => .ok ()) true knowsImages { subnetTag := "public" } "public"
      "holesky" = .error .typeError := rfl
  refine ⟨hmissing, rfl, rfl, rfl, fun hall => ?_⟩
  have hreported := hall knowsImages expected_knowsImages { subnetTag := "public" }
  rw [hmissing] at hreported
  exact hreported

end StackConfig
