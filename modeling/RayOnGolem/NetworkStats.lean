import RayOnGolem.Lib.Conveyor
import RayOnGolem.Lib.GuardedRun
import RayOnGolem.Lib.Masking
import RayOnGolem.ManagerStackCreate

/-!
# Network statistics

`NetworkStatsService` gathers its numbers in the plugins of a proposal manager: counters stand
between the plugins that turn proposals away, and a negotiating plugin counts by error what it
could not negotiate.  The proposals are in many tasks at once, since the buffers of the
manager fill themselves; a step of the model is what happens to one of them.

The plugins are a `Conveyor`, where each plugin of `golem-core` may hand on or drop what it
holds at any time.  Main results:

* `stats_add_up` -- the printed numbers add up, in every run and for every configuration;
* `errors_masked` -- an API error is counted by what its body has outside of brackets.
-/

namespace NetworkStats

open Runs StackConfig DemandConfigHelper Conveyor

/-- What the plugins of this repository look at in a proposal. -/
structure Proposal where
  issuerId : String
  initial : Bool
  deriving DecidableEq, Repr

/-! ### Errors of negotiations -/

/-- What `_negotiate_proposal` may raise. -/
inductive NegotiationError
  | proposalRejected (reason : String)
  | apiException (status : Nat) (body : String)
  | timeoutError
  | other (text : String)
  deriving DecidableEq, Repr

/-- The letters that stand for what was in brackets. -/
def stars : List Char := ['*', '*', '*']

/-- `re.sub(r"\[.*?\]", "[***]", str(e.body))`. -/
def errorMsg (body : String) : String :=
  String.ofList (Masking.sub '[' ']' '\n' stars body.toList)

/-- The key of an error in `fails`. -/
def NegotiationError.key : NegotiationError → String
  | .proposalRejected reason => reason
  | .apiException status body =>
      "Failed to send proposal response! " ++ toString status ++ ": " ++ errorMsg body
  | .timeoutError => "Failed to send proposal response! Request timed out"
  | .other text => text

theorem proper_stars : Masking.Proper '[' ']' '\n' stars := by
  constructor <;> decide

theorem bracket_notMem_status (status : Nat) : '[' ∉ (toString status).toList := by
  intro h
  have hdigits : (toString status).toList = Nat.toDigits 10 status := by
    simp [toString, Nat.repr]
  rw [hdigits] at h
  have hdigit := Nat.isDigit_of_mem_toDigits (by decide) (by decide) h
  revert hdigit
  decide

/-- What stands in front of the masked body opens no bracket. -/
theorem key_apiException (status : Nat) (body : String) :
    ∃ front : List Char, '[' ∉ front ∧
      (NegotiationError.apiException status body).key.toList = front ++ (errorMsg body).toList := by
  let text := "Failed to send proposal response! "
  refine ⟨(text ++ toString status ++ ": ").toList, ?_, ?_⟩
  · have htext : '[' ∉ text.toList := by decide
    have hcolon : '[' ∉ (": " : String).toList := by decide
    rw [String.toList_append, String.toList_append, List.mem_append, List.mem_append]
    rintro ((h | h) | h)
    · exact htext h
    · exact bracket_notMem_status status h
    · exact hcolon h
  · exact String.toList_append

theorem errorMsg_congr {body : String} {before inside inside' after : List Char}
    (hbody : body.toList = before ++ '[' :: (inside ++ ']' :: after))
    (hclosed : ']' ∉ inside) (hline : '\n' ∉ inside) (hclosed' : ']' ∉ inside')
    (hline' : '\n' ∉ inside') :
    errorMsg body = errorMsg (String.ofList (before ++ '[' :: (inside' ++ ']' :: after))) := by
  rw [errorMsg, hbody, Masking.sub_replace proper_stars hclosed hline hclosed' hline', errorMsg,
    String.toList_ofList]

/-- **API errors are counted by what their bodies have outside of brackets.**  The text that is
counted has nothing but stars in brackets that are closed on the same line, the masked body is
not masked any further, and bodies that differ in such brackets only are counted together. -/
theorem errors_masked (status : Nat) (body : String) :
    Masking.Hidden '[' ']' '\n' stars (NegotiationError.apiException status body).key.toList ∧
    errorMsg (errorMsg body) = errorMsg body ∧
    ∀ before inside inside' after, body.toList = before ++ '[' :: (inside ++ ']' :: after) →
      ']' ∉ inside → '\n' ∉ inside → ']' ∉ inside' → '\n' ∉ inside' →
      (NegotiationError.apiException status body).key =
        (NegotiationError.apiException status
          (String.ofList (before ++ '[' :: (inside' ++ ']' :: after)))).key := by
  refine ⟨?_, ?_, fun before inside inside' after hbody hclosed hline hclosed' hline' => ?_⟩
  · have hbody : Masking.Hidden '[' ']' '\n' stars (errorMsg body).toList := by
      rw [errorMsg, String.toList_ofList]
      exact Masking.hidden_sub proper_stars body.toList
    obtain ⟨front, hfront, hkey⟩ := key_apiException status body
    rw [hkey]
    exact hbody.append hfront
  · simp only [errorMsg, String.toList_ofList, Masking.sub_sub proper_stars]
  · have hmasked := errorMsg_congr hbody hclosed hline hclosed' hline'
    exact congrArg
      (fun text => "Failed to send proposal response! " ++ toString status ++ ": " ++ text) hmasked

example : Masking.sub '[' ']' '\n' stars ['a', '[', 'b', '[', 'c', ']', ']', '['] =
    ['a', '[', '*', '*', '*', ']', ']', '['] := rfl

/-! ### The plugins -/

/-- The tags of the counters: `passed` is for the plugin of that name. -/
inductive Tag
  | initial
  | notBlacklisted
  | passed (pluginTag : String × PyFloat)
  | negotiationInitialized
  | negotiatedSuccessfully
  deriving DecidableEq, Repr

/-- The plugins between the counters. -/
inductive Plugin
  | providerBlacklist (paymentNetwork : String)
  | golem (plugin : ProposalManagerPlugin)
  | statsNegotiating (proposalNegotiators : List Negotiator)
  deriving DecidableEq, Repr

def Plugin.isNegotiating : Plugin → Bool
  | .statsNegotiating _ => true
  | _ => false

abbrev Line := List (Station Tag Plugin Proposal)

/-- `create_counter_plugin`. -/
def createCounterPlugin (tag : Tag) : Station Tag Plugin Proposal := .counter tag 0

/-- A plugin before it is asked for proposals. -/
def Plugin.fresh (plugin : Plugin) : Station Tag Plugin Proposal := .keeper plugin [] 0 0

/-- `DEFAULT_DEMAND_LIFETIME`. -/
def defaultDemandLifetime : Timedelta := 8 * Timedelta.hour

/-- The list `plugins` of `_create_stack`. -/
def plugins (extraProposalPlugins : ExtraPlugins) (paymentNetwork : String)
    (scoringBuffer : ProposalManagerPlugin) (proposalNegotiators : List Negotiator)
    (buffer : ProposalManagerPlugin) : Line :=
  [createCounterPlugin .initial, (Plugin.providerBlacklist paymentNetwork).fresh,
    createCounterPlugin .notBlacklisted] ++
  extraProposalPlugins.items.flatMap
    (fun x => [(Plugin.golem x.2).fresh, createCounterPlugin (.passed x.1)]) ++
  [(Plugin.golem scoringBuffer).fresh, createCounterPlugin .negotiationInitialized,
    (Plugin.statsNegotiating proposalNegotiators).fresh,
    createCounterPlugin .negotiatedSuccessfully, (Plugin.golem buffer).fresh]

/-- `_create_stack`, from the payloads on. -/
def createStack (golem : GolemObject → Except PyException Unit) (registryStats : Bool)
    (registry : RegistryQuery → RegistryAnswer) (nodeConfig : NodeConfigData)
    (paymentNetwork : String) : Except PyException Line := do
  let (payloads, _) ← getPayloadsFromDemandConfig golem registryStats registry nodeConfig.demand
  let (extraProposalPlugins, extraProposalScorers) ←
    applyBudgetControlExpectedUsage golem {} {} nodeConfig.budgetControl
  let extraProposalPlugins ←
    applyBudgetControlHardLimits golem extraProposalPlugins nodeConfig.budgetControl
  let _ ← new golem .manager
    (Manager.refreshingDemand payloads defaultDemandLifetime nodeConfig.subnetTag)
  let scoringBuffer ← new golem .plugin
    (ProposalManagerPlugin.scoringBuffer 500 1000 true
      (extraProposalScorers.values.map fun scorer => (none, scorer)) (10 * Timedelta.second))
  let negotiator ← new golem .negotiator Negotiator.paymentPlatform
  let buffer ← new golem .plugin (ProposalManagerPlugin.buffer 800 1000 16)
  return plugins extraProposalPlugins paymentNetwork scoringBuffer [negotiator] buffer

/-! ### A run -/

/-- The service while it runs.  `offered` counts the proposals of the demand manager, and
`aborted` the negotiations that were cancelled or ended by an exception outside of the `try`:
no plugin counts them. -/
structure Stats where
  line : Line
  fails : Dict String Nat := {}
  drafts : List Proposal := []
  rejected : List Proposal := []
  consuming : Bool := true
  offered : Nat := 0
  aborted : Nat := 0

/-- `self.fails[key] += 1` of a `defaultdict(int)`. -/
def countFail (fails : Dict String Nat) (key : String) : Dict String Nat :=
  fails.set key ((fails.get key).getD 0 + 1)

/-- The line after a step; what leaves it is a draft for `_consume_draft_proposals`. -/
def Stats.goOn (s : Stats) (x : Line × Option Proposal) : Option Stats :=
  match x.2 with
  | none => some { s with line := x.1 }
  | some draft =>
      if s.consuming then some { s with line := x.1, drafts := s.drafts ++ [draft] } else none

/-- What can happen to the proposal at `j` of the plugin at `i`, and to the run. -/
inductive Act
  | offered (proposal : Proposal)
  | checked (i j : Nat) (blacklisted : Bool)
  | negotiated (i j : Nat) (draft : Proposal)
  | failed (i j : Nat) (e : NegotiationError)
  | handedOn (i j : Nat)
  | dropped (i j : Nat)
  | aborted (i j : Nat)
  | timeout
  deriving DecidableEq, Repr

/-- One step. -/
def step (s : Stats) : Act → Option Stats
  | .offered proposal => { s with offered := s.offered + 1 }.goOn (put proposal s.line)
  | .checked i j blacklisted =>
      match itemAt i j s.line with
      | some (.providerBlacklist _, proposal) =>
          if blacklisted then
            (lose j i s.line).map fun line =>
              { s with
                line := line
                rejected := if proposal.initial then s.rejected else s.rejected ++ [proposal] }
          else (handOn j proposal i s.line).bind s.goOn
      | _ => none
  | .negotiated i j draft =>
      match itemAt i j s.line with
      | some (.statsNegotiating _, _) => (handOn j draft i s.line).bind s.goOn
      | _ => none
  | .failed i j e =>
      match itemAt i j s.line with
      | some (.statsNegotiating _, _) =>
          (lose j i s.line).map fun line =>
            { s with
              line := line
              fails := countFail s.fails e.key }
      | _ => none
  | .handedOn i j =>
      match itemAt i j s.line with
      | some (.golem _, proposal) => (handOn j proposal i s.line).bind s.goOn
      | _ => none
  | .dropped i j =>
      match itemAt i j s.line with
      | some (.golem _, _) => (lose j i s.line).map fun line => { s with line := line }
      | _ => none
  | .aborted i j =>
      match itemAt i j s.line with
      | some (plugin, _) =>
          (lose j i s.line).map fun line =>
            { s with
              line := line
              aborted := if plugin.isNegotiating then s.aborted + 1 else s.aborted }
      | none => none
  | .timeout =>
      if s.consuming then
        some { s with consuming := false, rejected := s.rejected ++ s.drafts }
      else none

/-- The service when the stack is there. -/
def Started (line : Line) (s : Stats) : Prop := s = { line := line }

/-! ### What is printed -/

/-- `_counters.items()`: each tag with the count of the counter created last for it. -/
def Stats.proposalsCount (s : Stats) : List (Tag × Nat) :=
  (Dict.collect Prod.fst Prod.snd (counts s.line)).items

/-- The errors, the most frequent ones first. -/
def Stats.negotiationErrors (s : Stats) : List (String × Nat) :=
  s.fails.items.mergeSort fun x y => y.2 ≤ x.2

/-- What is printed for a tag. -/
def Stats.count (s : Stats) (tag : Tag) : Nat := (s.proposalsCount.lookup tag).getD 0

/-- The negotiations under way. -/
def Stats.inNegotiation (s : Stats) : Nat := heldBy Plugin.isNegotiating s.line

/-! ### What a step keeps -/

section Tally

variable {κ : Type} [DecidableEq κ]

theorem sum_replace {l : List (κ × Nat)} {k : κ} {m : Nat} (hl : (l.map Prod.fst).Nodup)
    (hk : l.lookup k = some m) (n : Nat) :
    ((l.map fun p => if p.1 = k then (k, n) else p).map Prod.snd).sum + m =
      (l.map Prod.snd).sum + n := by
  induction l with
  | nil => cases hk
  | cons p l ih =>
      obtain ⟨a, b⟩ := p
      obtain ⟨hnew, hl⟩ := List.nodup_cons.mp hl
      simp only [List.map_cons, List.sum_cons]
      by_cases ha : a = k
      · subst ha
        obtain rfl : b = m := by simpa using hk
        rw [if_pos rfl, Dict.replace_of_not_mem hnew]
        omega
      · rw [Dict.lookup_cons_ne ha] at hk
        rw [if_neg ha]
        have hrest := ih hl hk
        omega

/-- The sum of the values after an assignment. -/
theorem sum_values_set {d : Dict κ Nat} (hd : d.keys.Nodup) (k : κ) (n : Nat) :
    (d.set k n).values.sum + (d.get k).getD 0 = d.values.sum + n := by
  cases hk : d.get k with
  | none =>
      rw [Dict.values_set_of_get_none hk, List.sum_append, List.sum_singleton]
      rfl
  | some m =>
      have hset : d.set k n = ⟨d.items.map fun p => if p.1 = k then (k, n) else p⟩ := by
        rw [Dict.set, hk]
        rfl
      rw [hset]
      exact sum_replace hd hk n

end Tally

variable {line line' line₀ : Line} {s s' : Stats} {i j : Nat} {a : Act} {plugin : Plugin}
  {proposal : Proposal}

theorem countFail_sum {fails : Dict String Nat} (h : fails.keys.Nodup) (key : String) :
    (countFail fails key).values.sum = fails.values.sum + 1 := by
  have hset := sum_values_set h key ((fails.get key).getD 0 + 1)
  rw [countFail]
  omega

theorem goOn_eq_some {x : Line × Option Proposal} (h : s.goOn x = some s') :
    s' = { s with line := x.1, drafts := s.drafts ++ x.2.toList } ∧
      (s.consuming = false → x.2 = none) := by
  obtain ⟨line, left⟩ := x
  cases left with
  | none =>
      obtain rfl := Option.some.inj h
      exact ⟨by simp, fun _ => rfl⟩
  | some draft =>
      obtain ⟨hconsuming, heq⟩ := Option.ite_none_right_eq_some.mp h
      obtain rfl := Option.some.inj heq
      exact ⟨rfl, fun hc => absurd hconsuming (by simp [hc])⟩

/-- What holds in each state of a run. -/
structure Sound (line₀ : Line) (s : Stats) : Prop where
  balanced : Balanced s.offered s.line s.drafts.length
  labels : s.line.map Station.label = line₀.map Station.label
  keys : s.fails.keys.Nodup
  failed : lostBy Plugin.isNegotiating s.line = s.fails.values.sum + s.aborted
  rejected : s.consuming = false → ∀ draft ∈ s.drafts, draft ∈ s.rejected

/-- A proposal goes on. -/
theorem Sound.handOn (h : Sound line₀ s) {x : Line × Option Proposal}
    (hx : Conveyor.handOn j proposal i s.line = some x) (hs : s.goOn x = some s') :
    Sound line₀ s' := by
  obtain ⟨line, left⟩ := x
  obtain ⟨rfl, hleft⟩ := goOn_eq_some hs
  refine ⟨?_, (labels_handOn hx).trans h.labels, h.keys, (lostBy_handOn _ hx).trans h.failed,
    fun hconsuming draft hdraft => ?_⟩
  · rw [List.length_append]
    exact balanced_handOn h.balanced hx
  · obtain rfl := hleft hconsuming
    apply h.rejected hconsuming
    simpa using hdraft

/-- A proposal is lost, and counted if it was negotiated. -/
theorem Sound.lose (h : Sound line₀ s) (hitem : itemAt i j s.line = some (plugin, proposal))
    (hline : Conveyor.lose j i s.line = some line) {fails : Dict String Nat} {aborted : Nat}
    {rejected : List Proposal} (hkeys : fails.keys.Nodup)
    (hcounted : fails.values.sum + aborted =
      s.fails.values.sum + s.aborted + if plugin.isNegotiating then 1 else 0)
    (hrejected : ∀ x ∈ s.rejected, x ∈ rejected) :
    Sound line₀ { s with
      line := line
      fails := fails
      aborted := aborted
      rejected := rejected } := by
  refine ⟨balanced_lose h.balanced hline, (labels_lose hline).trans h.labels, hkeys, ?_,
    fun hconsuming draft hdraft => hrejected draft (h.rejected hconsuming draft hdraft)⟩
  rw [lostBy_lose _ hitem hline, h.failed]
  exact hcounted.symm

/-- **Every step** keeps the books. -/
theorem Sound.step (h : Sound line₀ s) (hs : step s a = some s') : Sound line₀ s' := by
  cases a with
  | offered proposal =>
      obtain ⟨rfl, hleft⟩ := goOn_eq_some hs
      refine ⟨?_, (labels_put proposal s.line).trans h.labels, h.keys,
        (lostBy_put _ proposal s.line).trans h.failed, fun hconsuming draft hdraft => ?_⟩
      · rw [List.length_append]
        exact balanced_put proposal h.balanced
      · rw [hleft hconsuming] at hdraft
        apply h.rejected hconsuming
        simpa using hdraft
  | checked i j blacklisted =>
      rw [NetworkStats.step] at hs
      split at hs
      · rename_i hitem
        split at hs
        · obtain ⟨line, hline, rfl⟩ := Option.map_eq_some_iff.mp hs
          apply h.lose hitem hline h.keys rfl
          intro x hx
          split
          · exact hx
          · exact List.mem_append_left _ hx
        · obtain ⟨x, hx, hgo⟩ := Option.bind_eq_some_iff.mp hs
          exact h.handOn hx hgo
      · cases hs
  | negotiated i j draft =>
      rw [NetworkStats.step] at hs
      split at hs
      · obtain ⟨x, hx, hgo⟩ := Option.bind_eq_some_iff.mp hs
        exact h.handOn hx hgo
      · cases hs
  | failed i j e =>
      rw [NetworkStats.step] at hs
      split at hs
      · rename_i hitem
        obtain ⟨line, hline, rfl⟩ := Option.map_eq_some_iff.mp hs
        have hkeys : (countFail s.fails e.key).keys.Nodup := Dict.nodup_keys_set h.keys _ _
        apply h.lose hitem hline hkeys
        · rw [countFail_sum h.keys, Nat.add_right_comm]
          rfl
        · exact fun x hx => hx
      · cases hs
  | handedOn i j =>
      rw [NetworkStats.step] at hs
      split at hs
      · obtain ⟨x, hx, hgo⟩ := Option.bind_eq_some_iff.mp hs
        exact h.handOn hx hgo
      · cases hs
  | dropped i j =>
      rw [NetworkStats.step] at hs
      split at hs
      · rename_i hitem
        obtain ⟨line, hline, rfl⟩ := Option.map_eq_some_iff.mp hs
        exact h.lose hitem hline h.keys rfl fun x hx => hx
      · cases hs
  | aborted i j =>
      rw [NetworkStats.step] at hs
      split at hs
      · rename_i plugin proposal hitem
        obtain ⟨line, hline, rfl⟩ := Option.map_eq_some_iff.mp hs
        apply h.lose hitem hline h.keys
        · split <;> omega
        · exact fun x hx => hx
      · cases hs
  | timeout =>
      obtain ⟨-, heq⟩ := Option.ite_none_right_eq_some.mp hs
      obtain rfl := Option.some.inj heq
      exact ⟨h.balanced, h.labels, h.keys, h.failed, fun _ draft hdraft =>
        List.mem_append_right _ hdraft⟩

/-! ### The stack -/

section Create

variable {α β : Type} {golem : GolemObject → Except PyException Unit} {registryStats : Bool}
  {registry : RegistryQuery → RegistryAnswer} {nodeConfig : NodeConfigData}
  {budgetControl : Option BudgetControlData} {paymentNetwork : String}
  {extra extra' : ExtraPlugins} {scorers : ExtraScorers}

/-- What a computation that returned went through. -/
theorem exists_of_bind {x : Except PyException α} {f : α → Except PyException β} {b : β}
    (h : x >>= f = .ok b) : ∃ a, x = .ok a ∧ f a = .ok b := by
  cases x with
  | error e => cases h
  | ok a => exact ⟨a, rfl, h⟩

/-- A plugin is added under its name. -/
theorem nodup_rejectIfCostsExceeds (hextra : extra.keys.Nodup) {name : String}
    {value limit : PyFloat} {pricing : Pricing}
    (h : rejectIfCostsExceeds golem extra name value limit pricing = .ok extra') :
    extra'.keys.Nodup := by
  obtain ⟨plugin, -, hset⟩ := exists_of_bind h
  obtain rfl := Except.ok.inj hset
  exact Dict.nodup_keys_set hextra _ _

theorem nodup_expectedUsage (hextra : extra.keys.Nodup) {x : ExtraPlugins × ExtraScorers}
    (h : applyBudgetControlExpectedUsage golem extra scorers budgetControl = .ok x) :
    x.1.keys.Nodup := by
  obtain ⟨usage, -, h⟩ := exists_of_bind h
  cases usage with
  | none =>
      obtain rfl := Except.ok.inj h
      exact hextra
  | some usage =>
      obtain ⟨averageDuration, -, h⟩ := exists_of_bind h
      obtain ⟨pricing, -, h⟩ := exists_of_bind h
      obtain ⟨scorer, -, h⟩ := exists_of_bind h
      dsimp only at h
      split at h
      · obtain rfl := Except.ok.inj h
        exact hextra
      · obtain ⟨extra', hextra', h⟩ := exists_of_bind h
        obtain rfl := Except.ok.inj h
        exact nodup_rejectIfCostsExceeds hextra hextra'

theorem nodup_hardLimits (hextra : extra.keys.Nodup)
    (h : applyBudgetControlHardLimits golem extra budgetControl = .ok extra') :
    extra'.keys.Nodup := by
  obtain ⟨_, -, h⟩ := exists_of_bind h
  obtain ⟨_, -, h⟩ := exists_of_bind h
  obtain ⟨_, -, h⟩ := exists_of_bind h
  obtain ⟨_, -, h⟩ := exists_of_bind h
  obtain ⟨_, -, h⟩ := exists_of_bind h
  obtain ⟨limits, -, h⟩ := exists_of_bind h
  obtain rfl := Except.ok.inj h
  exact Dict.nodup_keys_setAll hextra _

/-- A stack that was created has the plugins of some budget control. -/
theorem createStack_eq_ok
    (h : createStack golem registryStats registry nodeConfig paymentNetwork = .ok line) :
    ∃ extra : ExtraPlugins, ∃ scoringBuffer negotiators buffer, extra.keys.Nodup ∧
      line = plugins extra paymentNetwork scoringBuffer negotiators buffer := by
  obtain ⟨payloads, -, h⟩ := exists_of_bind h
  obtain ⟨⟨extra, scorers⟩, hextra, h⟩ := exists_of_bind h
  obtain ⟨extra', hextra', h⟩ := exists_of_bind h
  obtain ⟨demandManager, -, h⟩ := exists_of_bind h
  obtain ⟨scoringBuffer, -, h⟩ := exists_of_bind h
  obtain ⟨negotiator, -, h⟩ := exists_of_bind h
  obtain ⟨buffer, -, h⟩ := exists_of_bind h
  obtain rfl := Except.ok.inj h
  have hnil : ({} : ExtraPlugins).keys.Nodup := List.nodup_nil
  exact ⟨extra', scoringBuffer, [negotiator], buffer,
    nodup_hardLimits (nodup_expectedUsage hnil hextra) hextra', rfl⟩

end Create

theorem fresh_plugins (extra : ExtraPlugins) (paymentNetwork : String)
    (scoringBuffer : ProposalManagerPlugin) (negotiators : List Negotiator)
    (buffer : ProposalManagerPlugin) :
    ∀ x ∈ plugins extra paymentNetwork scoringBuffer negotiators buffer, x.Fresh := by
  intro x hx
  have hcases : (∃ tag, x = createCounterPlugin tag) ∨ ∃ plugin : Plugin, x = plugin.fresh := by
    simp only [plugins, List.mem_append, List.mem_cons, List.mem_flatMap, List.not_mem_nil] at hx
    grind
  rcases hcases with ⟨tag, rfl⟩ | ⟨plugin, rfl⟩
  · rfl
  · exact ⟨rfl, rfl, rfl⟩

/-- The invariant of the runs. -/
theorem sound_of_reach {extra : ExtraPlugins} {paymentNetwork : String}
    {scoringBuffer buffer : ProposalManagerPlugin} {negotiators : List Negotiator}
    (h : Reachable
      (Started (plugins extra paymentNetwork scoringBuffer negotiators buffer)) step s) :
    Sound (plugins extra paymentNetwork scoringBuffer negotiators buffer) s := by
  have hfresh := fresh_plugins extra paymentNetwork scoringBuffer negotiators buffer
  refine h.invariant (fun s hs => ?_) fun s a s' hsound _ hs => hsound.step hs
  obtain rfl : s = _ := hs
  exact ⟨balanced_of_fresh hfresh, rfl, List.nodup_nil, lostBy_of_fresh _ hfresh, nofun⟩

/-! ### The numbers -/

/-- The labels of the plugins in front of the negotiation. -/
def frontLabels (extra : ExtraPlugins) (paymentNetwork : String)
    (scoringBuffer : ProposalManagerPlugin) : List (Tag ⊕ Plugin) :=
  .inl .initial :: .inr (.providerBlacklist paymentNetwork) :: .inl .notBlacklisted ::
    (extra.items.flatMap fun x => [.inr (.golem x.2), .inl (.passed x.1)]) ++
      [.inr (.golem scoringBuffer)]

theorem labels_plugins (extra : ExtraPlugins) (paymentNetwork : String)
    (scoringBuffer : ProposalManagerPlugin) (negotiators : List Negotiator)
    (buffer : ProposalManagerPlugin) :
    (plugins extra paymentNetwork scoringBuffer negotiators buffer).map Station.label =
      frontLabels extra paymentNetwork scoringBuffer ++
        [.inl .negotiationInitialized, .inr (.statsNegotiating negotiators),
          .inl .negotiatedSuccessfully, .inr (.golem buffer)] := by
  simp [plugins, frontLabels, List.map_flatMap, Plugin.fresh, createCounterPlugin, Station.label]

/-- The tags of the counters. -/
theorem tags_plugins (extra : ExtraPlugins) (paymentNetwork : String)
    (scoringBuffer : ProposalManagerPlugin) :
    (frontLabels extra paymentNetwork scoringBuffer).filterMap Sum.getLeft? =
      .initial :: .notBlacklisted :: extra.keys.map Tag.passed := by
  have hpassed : ∀ items : List ((String × PyFloat) × ProposalManagerPlugin),
      (items.flatMap fun x => [(.inr (.golem x.2) : Tag ⊕ Plugin), .inl (.passed x.1)]).filterMap
        Sum.getLeft? = items.map fun x => Tag.passed x.1 := by
    intro items
    induction items with
    | nil => rfl
    | cons x items ih =>
        rw [List.flatMap_cons, List.filterMap_append, ih]
        rfl
  have hfront : (frontLabels extra paymentNetwork scoringBuffer).filterMap Sum.getLeft? =
      .initial :: .notBlacklisted ::
        ((extra.items.flatMap fun x =>
          [(.inr (.golem x.2) : Tag ⊕ Plugin), .inl (.passed x.1)]).filterMap Sum.getLeft? ++
            []) := by
    rw [frontLabels, List.filterMap_append]
    rfl
  rw [hfront, hpassed, List.append_nil, Dict.keys, List.map_map]
  rfl

section Numbers

variable {extra : ExtraPlugins} {paymentNetwork : String}
  {scoringBuffer buffer : ProposalManagerPlugin} {negotiators : List Negotiator}

/-- The line while the service runs. -/
theorem Sound.parts
    (h : Sound (plugins extra paymentNetwork scoringBuffer negotiators buffer) s) :
    ∃ front initialized held handedOn lost negotiated held' handedOn' lost',
      s.line = front ++ .counter .negotiationInitialized initialized ::
        ([.keeper (.statsNegotiating negotiators) held handedOn lost] ++
          .counter .negotiatedSuccessfully negotiated ::
            [.keeper (.golem buffer) held' handedOn' lost']) ∧
      front.map Station.label = frontLabels extra paymentNetwork scoringBuffer := by
  have hlabels := h.labels
  rw [labels_plugins] at hlabels
  obtain ⟨front, tail, hline, hfront, htail⟩ := List.map_eq_append_iff.mp hlabels
  obtain ⟨s₁, tail₁, rfl, h₁, htail₁⟩ := List.map_eq_cons_iff.mp htail
  obtain ⟨s₂, tail₂, rfl, h₂, htail₂⟩ := List.map_eq_cons_iff.mp htail₁
  obtain ⟨s₃, tail₃, rfl, h₃, htail₃⟩ := List.map_eq_cons_iff.mp htail₂
  obtain ⟨s₄, tail₄, rfl, h₄, htail₄⟩ := List.map_eq_cons_iff.mp htail₃
  obtain rfl := List.map_eq_nil_iff.mp htail₄
  obtain ⟨initialized, rfl⟩ := Station.eq_counter h₁
  obtain ⟨held, handedOn, lost, rfl⟩ := Station.eq_keeper h₂
  obtain ⟨negotiated, rfl⟩ := Station.eq_counter h₃
  obtain ⟨held', handedOn', lost', rfl⟩ := Station.eq_keeper h₄
  exact ⟨front, initialized, held, handedOn, lost, negotiated, held', handedOn', lost', hline,
    hfront⟩

/-- Each counter has a tag of its own, so all of them are printed. -/
theorem Sound.proposalsCount (hextra : extra.keys.Nodup)
    (h : Sound (plugins extra paymentNetwork scoringBuffer negotiators buffer) s) :
    s.proposalsCount = counts s.line ∧ ((counts s.line).map Prod.fst).Nodup := by
  have htags : ((counts s.line).map Prod.fst).Nodup := by
    have hlast : [Sum.inl Tag.negotiationInitialized, .inr (Plugin.statsNegotiating negotiators),
        .inl .negotiatedSuccessfully, .inr (.golem buffer)].filterMap Sum.getLeft? =
        [Tag.negotiationInitialized, .negotiatedSuccessfully] := rfl
    rw [tags_counts, h.labels, labels_plugins, List.filterMap_append, tags_plugins, hlast]
    have hpassed : (extra.keys.map Tag.passed).Nodup :=
      List.Pairwise.map _ (fun x y hne heq => hne (Tag.passed.inj heq)) hextra
    simp only [List.cons_append, List.nodup_cons, List.nodup_append, List.mem_cons,
      List.mem_append, List.mem_map]
    refine ⟨by simp, by simp, hpassed, by simp, ?_⟩
    rintro _ ⟨name, -, rfl⟩ tag htag
    rcases htag with rfl | rfl | htag
    · exact nofun
    · exact nofun
    · exact absurd htag List.not_mem_nil
  refine ⟨?_, htags⟩
  rw [Stats.proposalsCount, Dict.items_collect_of_nodup htags]
  exact List.map_id' _

theorem Sound.count (hextra : extra.keys.Nodup)
    (h : Sound (plugins extra paymentNetwork scoringBuffer negotiators buffer) s) {tag : Tag}
    {n : Nat} (hmem : (tag, n) ∈ counts s.line) : s.count tag = n := by
  obtain ⟨hitems, htags⟩ := h.proposalsCount hextra
  have hget := Dict.get_of_mem_items (d := ⟨counts s.line⟩) htags hmem
  rw [Stats.count, hitems]
  exact congrArg (Option.getD · 0) hget

theorem sum_negotiationErrors (s : Stats) :
    (s.negotiationErrors.map Prod.snd).sum = s.fails.values.sum :=
  ((List.mergeSort_perm s.fails.items _).map Prod.snd).sum_nat

theorem Sound.count_initial (hextra : extra.keys.Nodup)
    (h : Sound (plugins extra paymentNetwork scoringBuffer negotiators buffer) s) :
    s.count .initial = s.offered := by
  obtain ⟨first, rest, hline, hfirst, -⟩ := List.map_eq_cons_iff.mp h.labels
  obtain ⟨count, rfl⟩ := Station.eq_counter hfirst
  have hbalanced := h.balanced
  rw [hline] at hbalanced
  rw [← hbalanced.1]
  apply h.count hextra
  rw [hline]
  exact List.mem_cons_self

/-- What becomes of the negotiations. -/
theorem Sound.negotiations (hextra : extra.keys.Nodup)
    (h : Sound (plugins extra paymentNetwork scoringBuffer negotiators buffer) s) :
    s.count .negotiationInitialized = s.inNegotiation + s.aborted +
        (s.negotiationErrors.map Prod.snd).sum + s.count .negotiatedSuccessfully ∧
      s.drafts.length ≤ s.count .negotiatedSuccessfully := by
  obtain ⟨front, initialized, held, handedOn, lost, negotiated, held', handedOn', lost', hline,
    hfront⟩ := h.parts
  have hbalanced := h.balanced
  have hinitialized : (.negotiationInitialized, initialized) ∈ counts s.line := by
    rw [hline]
    exact mem_counts front _ _ _
  have hnegotiated : (.negotiatedSuccessfully, negotiated) ∈ counts s.line := by
    rw [hline, ← List.cons_append, ← List.append_assoc]
    exact mem_counts _ _ _ _
  obtain ⟨hheldFront, hlostFront⟩ : heldBy Plugin.isNegotiating front = 0 ∧
      lostBy Plugin.isNegotiating front = 0 := by
    apply heldBy_lostBy_eq_zero
    rw [hfront]
    intro plugin hplugin
    simp only [frontLabels, List.mem_append, List.mem_cons, List.mem_flatMap] at hplugin
    grind [Plugin.isNegotiating]
  have hheld : s.inNegotiation = held.length := by
    rw [Stats.inNegotiation, hline, heldBy_append, hheldFront]
    simp [heldBy, Station.heldIf, Plugin.isNegotiating]
  have hlost : lost = s.fails.values.sum + s.aborted := by
    rw [← h.failed, hline, lostBy_append, hlostFront]
    simp [lostBy, Station.lostIf, Plugin.isNegotiating]
  rw [h.count hextra hinitialized, h.count hextra hnegotiated, sum_negotiationErrors, hheld]
  rw [hline] at hbalanced
  constructor
  · rw [hbalanced.between, hlost]
    simp only [List.map_cons, List.map_nil, List.sum_cons, List.sum_nil, Station.stays]
    omega
  · rw [← List.cons_append, ← List.append_assoc] at hbalanced
    rw [hbalanced.onward]
    exact Nat.le_add_left _ _

end Numbers

/-- **The numbers add up.**  For every configuration whose stack was created and in every state
of a run: no count that is printed is greater than one printed before it, the first one is the
number of proposals that the demand manager gave, and the difference of two is what the plugins
between hold or lost.  Negotiations that began are under way, were aborted, are counted as
errors or are counted as successful; the errors are printed by number.  The drafts are among the
successful ones, and all of them are rejected at the end. -/
theorem stats_add_up {golem : GolemObject → Except PyException Unit} {registryStats : Bool}
    {registry : RegistryQuery → RegistryAnswer} {nodeConfig : NodeConfigData}
    {paymentNetwork : String}
    (hcreate : createStack golem registryStats registry nodeConfig paymentNetwork = .ok line)
    (h : Reachable (Started line) step s) :
    (s.proposalsCount.map Prod.snd).Pairwise (fun m n => n ≤ m) ∧
    s.count .initial = s.offered ∧
    (∀ before tag m mid tag' n after,
      s.line = before ++ .counter tag m :: (mid ++ .counter tag' n :: after) →
      (tag, m) ∈ s.proposalsCount ∧ (tag', n) ∈ s.proposalsCount ∧
        m = (mid.map Station.stays).sum + n) ∧
    s.count .negotiationInitialized = s.inNegotiation + s.aborted +
      (s.negotiationErrors.map Prod.snd).sum + s.count .negotiatedSuccessfully ∧
    s.negotiationErrors.Pairwise (fun x y => y.2 ≤ x.2) ∧
    s.drafts.length ≤ s.count .negotiatedSuccessfully ∧
    (s.consuming = false → ∀ draft ∈ s.drafts, draft ∈ s.rejected) := by
  obtain ⟨extra, scoringBuffer, negotiators, buffer, hextra, rfl⟩ := createStack_eq_ok hcreate
  have hsound := sound_of_reach h
  have hbalanced := hsound.balanced
  obtain ⟨hitems, -⟩ := hsound.proposalsCount hextra
  refine ⟨?_, hsound.count_initial hextra, fun before tag m mid tag' n after hline => ?_,
    (hsound.negotiations hextra).1, ?_, (hsound.negotiations hextra).2, hsound.rejected⟩
  · rw [hitems]
    exact List.pairwise_map.mpr hbalanced.pairwise_counts
  · rw [hitems]
    rw [hline] at hbalanced ⊢
    refine ⟨mem_counts before tag m _, ?_, hbalanced.between⟩
    rw [← List.cons_append, ← List.append_assoc]
    exact mem_counts _ tag' n after
  · have hsorted : s.negotiationErrors.Pairwise fun x y => decide (y.2 ≤ x.2) = true := by
      apply List.pairwise_mergeSort
      · intro x y z hxy hyz
        simp only [decide_eq_true_eq] at hxy hyz ⊢
        omega
      · intro x y
        simp only [Bool.or_eq_true, decide_eq_true_eq]
        omega
    exact hsorted.imp of_decide_eq_true

/-- A configuration with a limit for the start price. -/
def limitedConfig : NodeConfigData :=
  { taggedConfig with budgetControl := some { maxStartPrice := some (.finite 1) } }

/-- Its line. -/
def limitedLine : Line :=
  plugins
    ⟨[(("Reject if start price exceeds `max_start_price` = ", .finite 1),
      .rejectIfCostsExceeds (.finite 1) (.linearCoeffsCost "price_initial"))]⟩
    "holesky" (.scoringBuffer 500 1000 true [] (10 * Timedelta.second)) [.paymentPlatform]
    (.buffer 800 1000 16)

/-- Two proposals: one provider is blacklisted, the negotiation with the other one fails. -/
def twoProposals : List Act :=
  [.offered ⟨"0x01", true⟩, .offered ⟨"0x02", true⟩, .checked 1 1 false, .handedOn 3 0,
    .checked 1 0 true, .handedOn 5 0, .failed 7 0 (.proposalRejected "busy"), .timeout]

theorem stats_add_up_twoProposals :
    ∃ s, exec step twoProposals { line := limitedLine } = some s ∧
      s.count .negotiationInitialized = s.inNegotiation + s.aborted +
        (s.negotiationErrors.map Prod.snd).sum + s.count .negotiatedSuccessfully := by
  have hcreate : createStack (fun _ => .ok ()) true knowsImages limitedConfig "holesky" =
      .ok limitedLine := rfl
  have hruns : (exec step twoProposals { line := limitedLine }).isSome = true := by decide
  obtain ⟨s, hrun⟩ := Option.isSome_iff_exists.mp hruns
  exact ⟨s, hrun, (stats_add_up hcreate (Reach.exec twoProposals (.start rfl) hrun)).2.2.2.1⟩

end NetworkStats
