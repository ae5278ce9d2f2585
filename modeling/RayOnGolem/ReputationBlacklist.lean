import Mathlib.Data.List.Nodup
import Mathlib.Data.Int.Order.Basic
import Mathlib.Order.Lattice
import RayOnGolem.Lib.GuardedRun
import RayOnGolem.Reputation

/-!
# The blacklist plugin

`ProviderBlacklistPlugin.get_proposal` passes on the first proposal from upstream whose
provider is not blacklisted, and rejects those it skips unless they are initial.  The model
is one step for each await of its loop: the next proposal arrives, its data are known, the
query of the blacklist is answered, the rejection is done.  Time and table of every query
are free, any await may raise and end the call, and calls follow one another without end.

Proposals are known by their position in the stream.  The state records the checks, so that
what was returned and rejected can be compared with them.  Main results:

* `checkBlacklisted_iff`, `checkBlacklisted_tabulates` -- what the query answers;
* `blacklist_exact_filter` -- the plugin is an exact filter of the stream.
-/

/-- The columns of a `NodeReputation` record that the blacklist query reads, with the names
of its node and network. -/
structure BlacklistRow (T : Type*) where
  nodeId : String
  networkName : String
  blacklistedUntil : T
  deriving DecidableEq, Repr

section

variable {T : Type*} [LinearOrder T]

/-- `NodeReputation.get_blacklisted` at the time `now`. -/
def getBlacklisted (rows : List (BlacklistRow T)) (now : T) (blacklisted : Bool) :
    List (BlacklistRow T) :=
  if blacklisted then rows.filter fun r => r.blacklistedUntil > now
  else rows.filter fun r => r.blacklistedUntil ≤ now

/-- `NodeReputation.check_blacklisted` at the time `now`. -/
def checkBlacklisted (rows : List (BlacklistRow T)) (now : T) (nodeId networkName : String) :
    Bool :=
  (getBlacklisted rows now true).any fun r => r.nodeId = nodeId && r.networkName = networkName

/-- A provider is blacklisted by a record for it and the network that lasts longer. -/
theorem checkBlacklisted_iff {rows : List (BlacklistRow T)} {now : T}
    {nodeId networkName : String} :
    checkBlacklisted rows now nodeId networkName = true ↔
      ∃ r ∈ rows, r.nodeId = nodeId ∧ r.networkName = networkName ∧ now < r.blacklistedUntil := by
  simp only [checkBlacklisted, getBlacklisted, if_true, List.any_eq_true, List.mem_filter,
    Bool.and_eq_true, decide_eq_true_eq]
  constructor
  · rintro ⟨r, ⟨hr, hlasts⟩, hnode, hnetwork⟩
    exact ⟨r, hr, hnode, hnetwork, hlasts⟩
  · rintro ⟨r, hr, hnode, hnetwork, hlasts⟩
    exact ⟨r, ⟨hr, hlasts⟩, hnode, hnetwork⟩

end

/-- The rows list the records of the reputation tables. -/
def Tabulates {S : Type*} (rows : List (BlacklistRow Int)) (db : Reputation.Db S) : Prop :=
  ∀ row : BlacklistRow Int, row ∈ rows ↔
    ∃ r, db.reputations ⟨row.nodeId, row.networkName⟩ = some r ∧
      r.blacklistedUntil = row.blacklistedUntil

/-- **The query answers with the record of the tables**; a provider without one is as one
that is blacklisted never. -/
theorem checkBlacklisted_tabulates {S : Type*} {rows : List (BlacklistRow Int)}
    {db : Reputation.Db S} (h : Tabulates rows db) {now : Int} (hnow : 0 ≤ now)
    (nodeId networkName : String) :
    checkBlacklisted rows now nodeId networkName = true ↔
      now < (db.row ⟨nodeId, networkName⟩).blacklistedUntil := by
  rw [checkBlacklisted_iff]
  constructor
  · rintro ⟨row, hrow, rfl, rfl, hlasts⟩
    obtain ⟨r, hr, heq⟩ := (h row).mp hrow
    simpa [Reputation.Db.row, hr, heq] using hlasts
  · intro hlasts
    cases hr : db.reputations ⟨nodeId, networkName⟩ with
    | none =>
        rw [Reputation.Db.row, hr] at hlasts
        exact absurd hlasts (not_lt.mpr hnow)
    | some r =>
        rw [Reputation.Db.row, hr] at hlasts
        exact ⟨⟨nodeId, networkName, r.blacklistedUntil⟩, (h _).mpr ⟨r, hr, rfl⟩, rfl, rfl, hlasts⟩

/-- What the plugin reads of a `Proposal`. -/
structure Proposal where
  issuerId : String
  initial : Bool
  deriving DecidableEq, Repr

namespace BlacklistPlugin

open Runs

/-- Where `get_proposal` stands: at which await, with which proposal of the stream. -/
inductive Pc
  | idle
  | upstream
  | proposalData (i : Nat)
  | checking (i : Nat)
  | rejecting (i : Nat)
  deriving DecidableEq, Repr

/-- The proposal that was taken and is not checked yet. -/
def Pc.unchecked : Pc → List Nat
  | .proposalData i | .checking i => [i]
  | .idle | .upstream | .rejecting _ => []

/-- A query of the blacklist: for which proposal, when, and what the table held. -/
structure Check (T : Type*) where
  index : Nat
  now : T
  rows : List (BlacklistRow T)
  deriving DecidableEq, Repr

/-- The plugin: how many proposals it took, those it returned and those it called `reject`
on, the checks, and the proposals it took in vain because the call raised. -/
structure State (T : Type*) where
  pc : Pc := .idle
  next : Nat := 0
  returned : List Nat := []
  rejected : List Nat := []
  checks : List (Check T) := []
  lost : List Nat := []
  deriving DecidableEq, Repr

/-- What can happen: `get_proposal` is called, or what it awaits ends. -/
inductive Act (T : Type*)
  | call
  | upstream
  | proposalData
  | checked (now : T) (rows : List (BlacklistRow T))
  | rejected
  | raised
  deriving DecidableEq, Repr

variable {T : Type*} [LinearOrder T] (stream : Nat → Proposal) (paymentNetwork : String)

/-- The provider was blacklisted when it was checked. -/
def Check.blacklisted (c : Check T) : Bool :=
  checkBlacklisted c.rows c.now (stream c.index).issuerId paymentNetwork

/-- One step of the plugin. -/
def step (s : State T) : Act T → Option (State T)
  | .call => if s.pc = .idle then some { s with pc := .upstream } else none
  | .upstream =>
      if s.pc = .upstream then some { s with pc := .proposalData s.next, next := s.next + 1 }
      else none
  | .proposalData =>
      match s.pc with
      | .proposalData i => some { s with pc := .checking i }
      | _ => none
  | .checked now rows =>
      match s.pc with
      | .checking i =>
          let s := { s with checks := s.checks ++ [(⟨i, now, rows⟩ : Check T)] }
          if ¬ checkBlacklisted rows now (stream i).issuerId paymentNetwork then
            some { s with pc := .idle, returned := s.returned ++ [i] }
          else if ¬ (stream i).initial then
            some { s with pc := .rejecting i, rejected := s.rejected ++ [i] }
          else some { s with pc := .upstream }
      | _ => none
  | .rejected =>
      match s.pc with
      | .rejecting _ => some { s with pc := .upstream }
      | _ => none
  | .raised =>
      if s.pc = .idle then none
      else some { s with pc := .idle, lost := s.lost ++ s.pc.unchecked }

/-- A plugin that was never called. -/
def Initial (s : State T) : Prop := s = {}

variable {stream} {paymentNetwork} {s s' : State T} {a : Act T}

/-- The effects of the steps. -/
inductive Step (stream : Nat → Proposal) (paymentNetwork : String) (s : State T) :
    Act T → State T → Prop
  | call (hpc : s.pc = .idle) : Step stream paymentNetwork s .call { s with pc := .upstream }
  | takes (hpc : s.pc = .upstream) :
      Step stream paymentNetwork s .upstream
        { s with pc := .proposalData s.next, next := s.next + 1 }
  | asks (i : Nat) (hpc : s.pc = .proposalData i) :
      Step stream paymentNetwork s .proposalData { s with pc := .checking i }
  | returns (c : Check T) (hpc : s.pc = .checking c.index)
      (hc : c.blacklisted stream paymentNetwork = false) :
      Step stream paymentNetwork s (.checked c.now c.rows)
        { s with pc := .idle, checks := s.checks ++ [c], returned := s.returned ++ [c.index] }
  | rejects (c : Check T) (hpc : s.pc = .checking c.index)
      (hc : c.blacklisted stream paymentNetwork = true)
      (hinitial : (stream c.index).initial = false) :
      Step stream paymentNetwork s (.checked c.now c.rows)
        { s with
          pc := .rejecting c.index
          checks := s.checks ++ [c]
          rejected := s.rejected ++ [c.index] }
  | skips (c : Check T) (hpc : s.pc = .checking c.index)
      (hc : c.blacklisted stream paymentNetwork = true)
      (hinitial : (stream c.index).initial = true) :
      Step stream paymentNetwork s (.checked c.now c.rows)
        { s with pc := .upstream, checks := s.checks ++ [c] }
  | goesOn (i : Nat) (hpc : s.pc = .rejecting i) :
      Step stream paymentNetwork s .rejected { s with pc := .upstream }
  | raised (hpc : s.pc ≠ .idle) :
      Step stream paymentNetwork s .raised
        { s with pc := .idle, lost := s.lost ++ s.pc.unchecked }

theorem step_cases (hs : step stream paymentNetwork s a = some s') :
    Step stream paymentNetwork s a s' := by
  cases a with
  | call =>
      obtain ⟨hpc, hs⟩ := Option.ite_none_right_eq_some.mp hs
      cases hs
      exact .call hpc
  | upstream =>
      obtain ⟨hpc, hs⟩ := Option.ite_none_right_eq_some.mp hs
      cases hs
      exact .takes hpc
  | proposalData =>
      simp only [step] at hs
      split at hs
      · rename_i i hpc
        cases hs
        exact .asks i hpc
      · cases hs
  | checked now rows =>
      simp only [step] at hs
      split at hs
      · rename_i i hpc
        split at hs
        · rename_i hblacklisted
          cases hs
          exact .returns ⟨i, now, rows⟩ hpc (by simpa [Check.blacklisted] using hblacklisted)
        · rename_i hblacklisted
          have hc : (⟨i, now, rows⟩ : Check T).blacklisted stream paymentNetwork = true := by
            simpa [Check.blacklisted] using hblacklisted
          split at hs
          · rename_i hinitial
            cases hs
            exact .rejects ⟨i, now, rows⟩ hpc hc (by simpa using hinitial)
          · rename_i hinitial
            cases hs
            exact .skips ⟨i, now, rows⟩ hpc hc (by simpa using hinitial)
      · cases hs
  | rejected =>
      simp only [step] at hs
      split at hs
      · rename_i i hpc
        cases hs
        exact .goesOn i hpc
      · cases hs
  | raised =>
      obtain ⟨hpc, hs⟩ := Option.ite_none_left_eq_some.mp hs
      cases hs
      exact .raised hpc

/-- The proposals of the checks with a given outcome, in order. -/
def State.checkedAs (s : State T) (p : Check T → Bool) : List Nat :=
  (s.checks.filter p).map Check.index

/-- What was returned and rejected is what the checks say, and every proposal is taken once. -/
structure Exact (stream : Nat → Proposal) (paymentNetwork : String) (s : State T) : Prop where
  returned : s.returned = s.checkedAs fun c => !c.blacklisted stream paymentNetwork
  rejected : s.rejected =
    s.checkedAs fun c => c.blacklisted stream paymentNetwork && !(stream c.index).initial
  ordered : (s.checks.map Check.index ++ s.pc.unchecked).Sublist (List.range s.next)
  taken : (s.checks.map Check.index ++ s.pc.unchecked ++ s.lost).Perm (List.range s.next)

/-- A step that neither takes nor checks a proposal. -/
theorem Exact.keep (h : Exact stream paymentNetwork s) {pc : Pc}
    (hpc : pc.unchecked = s.pc.unchecked) : Exact stream paymentNetwork { s with pc := pc } :=
  ⟨h.returned, h.rejected, by simpa [hpc] using h.ordered, by simpa [hpc] using h.taken⟩

/-- The proposal that was about to be checked is checked. -/
theorem Exact.checked (h : Exact stream paymentNetwork s) {c : Check T} {pc : Pc}
    {returned rejected : List Nat} (hpc : s.pc = .checking c.index) (hover : pc.unchecked = [])
    (hreturned : returned =
      State.checkedAs { s with checks := s.checks ++ [c] }
        fun d => !d.blacklisted stream paymentNetwork)
    (hrejected : rejected =
      State.checkedAs { s with checks := s.checks ++ [c] }
        fun d => d.blacklisted stream paymentNetwork && !(stream d.index).initial) :
    Exact stream paymentNetwork
      { s with
        pc := pc
        checks := s.checks ++ [c]
        returned := returned
        rejected := rejected } := by
  have hordered := h.ordered
  have htaken := h.taken
  rw [hpc, Pc.unchecked] at hordered htaken
  refine ⟨hreturned, hrejected, ?_, ?_⟩
  · simpa [hover] using hordered
  · simpa [hover] using htaken

theorem Exact.step (h : Exact stream paymentNetwork s)
    (hs : Step stream paymentNetwork s a s') : Exact stream paymentNetwork s' := by
  have ⟨hreturned, hrejected, hordered, htaken⟩ := h
  cases hs with
  | call hpc => exact h.keep (by rw [hpc]; rfl)
  | takes hpc =>
      simp only [hpc, Pc.unchecked, List.append_nil] at hordered htaken
      refine ⟨hreturned, hrejected, ?_, ?_⟩
      · simp only [Pc.unchecked, List.range_succ]
        exact hordered.append (List.Sublist.refl _)
      · simp only [Pc.unchecked, List.range_succ]
        rw [List.append_assoc]
        refine (List.Perm.append_left _ List.perm_append_comm).trans ?_
        rw [← List.append_assoc]
        exact htaken.append_right _
  | asks i hpc => exact h.keep (by rw [hpc]; rfl)
  | returns c hpc hc =>
      refine h.checked hpc rfl ?_ ?_
      · simp [hreturned, State.checkedAs, hc]
      · simp [hrejected, State.checkedAs, hc]
  | rejects c hpc hc hinitial =>
      refine h.checked hpc rfl ?_ ?_
      · simp [hreturned, State.checkedAs, hc]
      · simp [hrejected, State.checkedAs, hc, hinitial]
  | skips c hpc hc hinitial =>
      refine h.checked hpc rfl ?_ ?_
      · simp [hreturned, State.checkedAs, hc]
      · simp [hrejected, State.checkedAs, hc, hinitial]
  | goesOn i hpc => exact h.keep (by rw [hpc]; rfl)
  | raised hpc =>
      refine ⟨hreturned, hrejected, ?_, ?_⟩
      · simp only [Pc.unchecked, List.append_nil]
        exact (List.sublist_append_left _ _).trans hordered
      · simp only [Pc.unchecked, List.append_nil]
        refine List.Perm.trans ?_ htaken
        rw [List.append_assoc]
        exact List.Perm.append_left _ List.perm_append_comm

theorem exact_initial (h : Initial s) : Exact stream paymentNetwork s := by
  subst h
  exact ⟨rfl, rfl, List.Sublist.refl _, List.Perm.refl _⟩

theorem exact_of_reach (h : Reachable Initial (step stream paymentNetwork) s) :
    Exact stream paymentNetwork s :=
  Reach.invariant (I := Exact stream paymentNetwork) (fun _ => exact_initial)
    (fun _ _ _ hi _ hstep => hi.step (step_cases hstep)) h

/-- No proposal is checked twice. -/
theorem Exact.nodup (h : Exact stream paymentNetwork s) : (s.checks.map Check.index).Nodup :=
  ((List.sublist_append_left _ _).trans h.ordered).nodup List.nodup_range

/-- A check is known by its proposal. -/
theorem Exact.check_inj (h : Exact stream paymentNetwork s) {c d : Check T} (hc : c ∈ s.checks)
    (hd : d ∈ s.checks) (heq : c.index = d.index) : c = d :=
  List.inj_on_of_nodup_map h.nodup hc hd heq

/-- A check looks for a row of its provider and of the plugin's network that lasts longer. -/
theorem Check.blacklisted_iff {c : Check T} :
    c.blacklisted stream paymentNetwork = true ↔
      ∃ r ∈ c.rows, r.nodeId = (stream c.index).issuerId ∧ r.networkName = paymentNetwork ∧
        c.now < r.blacklistedUntil :=
  checkBlacklisted_iff

/-- **The blacklist plugin is an exact filter.**  Over any stream, with any tables and times
of the queries and after any calls: a check finds its provider blacklisted when the table has
a row for it and the plugin's network whose `blacklisted_until` is greater than the time of
the query; what was returned are the proposals, in the order of the stream, whose provider
was not blacklisted when it was checked; rejected were, once each, the checked proposals that
were blacklisted and not initial, none of which was returned; and every proposal that was
taken is checked, about to be checked, or lost in a call that raised, so that without such
calls the checks go through the stream one by one. -/
theorem blacklist_exact_filter (h : Reachable Initial (step stream paymentNetwork) s) :
    (∀ c ∈ s.checks, c.blacklisted stream paymentNetwork = true ↔
        ∃ r ∈ c.rows, r.nodeId = (stream c.index).issuerId ∧ r.networkName = paymentNetwork ∧
          c.now < r.blacklistedUntil) ∧
      s.returned = (s.checkedAs fun c => !c.blacklisted stream paymentNetwork) ∧
      s.rejected =
        (s.checkedAs fun c => c.blacklisted stream paymentNetwork && !(stream c.index).initial) ∧
      s.rejected.Nodup ∧
      (∀ i ∈ s.rejected, (stream i).initial = false ∧ i ∉ s.returned) ∧
      (s.checks.map Check.index).Sublist (List.range s.next) ∧
      (s.checks.map Check.index ++ s.pc.unchecked ++ s.lost).Perm (List.range s.next) ∧
      (s.lost = [] → s.checks.map Check.index ++ s.pc.unchecked = List.range s.next) := by
  have hexact := exact_of_reach h
  refine ⟨fun _ _ => Check.blacklisted_iff, hexact.returned, hexact.rejected, ?_, ?_, ?_,
    hexact.taken, ?_⟩
  · rw [hexact.rejected]
    exact (List.filter_sublist.map Check.index).nodup hexact.nodup
  · intro i hi
    rw [hexact.rejected] at hi
    obtain ⟨c, hc, rfl⟩ := List.mem_map.mp hi
    obtain ⟨hc, hout⟩ := List.mem_filter.mp hc
    obtain ⟨hblacklisted, hinitial⟩ := Bool.and_eq_true_iff.mp hout
    refine ⟨by simpa using hinitial, fun hreturned => ?_⟩
    rw [hexact.returned] at hreturned
    obtain ⟨d, hd, heq⟩ := List.mem_map.mp hreturned
    obtain ⟨hd, hpassed⟩ := List.mem_filter.mp hd
    obtain rfl := hexact.check_inj hd hc heq
    simp [hblacklisted] at hpassed
  · exact (List.sublist_append_left _ _).trans hexact.ordered
  · intro hlost
    apply hexact.ordered.eq_of_length
    simpa [hlost] using hexact.taken.length_eq

/-- Two proposals of a provider, the first one initial, one of another provider, and then the
first provider again. -/
def exampleStream (i : Nat) : Proposal := if i = 2 then ⟨"0xb", false⟩ else ⟨"0xa", i = 0⟩

/-- Both providers are blacklisted until the time 10, each on a network of its own. -/
def exampleRows : List (BlacklistRow Int) := [⟨"0xa", "polygon", 10⟩, ⟨"0xb", "holesky", 10⟩]

/-- The second provider passes on this network, and the first one when its time is over. -/
def twoCalls : List (Act Int) :=
  [.call, .upstream, .proposalData, .checked 1 exampleRows, .upstream, .proposalData,
    .checked 2 exampleRows, .rejected, .upstream, .proposalData, .checked 3 exampleRows,
    .call, .upstream, .proposalData, .checked 10 exampleRows]

theorem blacklist_exact_filter_twoCalls :
    ∃ s, exec (step exampleStream "polygon") twoCalls {} = some s ∧
      s.returned = [2, 3] ∧ s.rejected = [1] ∧
      (∀ c ∈ s.checks, c.blacklisted exampleStream "polygon" = true ↔
        ∃ r ∈ c.rows, r.nodeId = (exampleStream c.index).issuerId ∧
          r.networkName = "polygon" ∧ c.now < r.blacklistedUntil) ∧
      s.returned = (s.checkedAs fun c => !c.blacklisted exampleStream "polygon") ∧
      s.rejected = (s.checkedAs fun c =>
        c.blacklisted exampleStream "polygon" && !(exampleStream c.index).initial) ∧
      s.rejected.Nodup ∧
      (∀ i ∈ s.rejected, (exampleStream i).initial = false ∧ i ∉ s.returned) ∧
      (s.checks.map Check.index).Sublist (List.range s.next) ∧
      (s.checks.map Check.index ++ s.pc.unchecked ++ s.lost).Perm (List.range s.next) ∧
      (s.lost = [] → s.checks.map Check.index ++ s.pc.unchecked = List.range s.next) := by
  have hinit : Reachable Initial (step exampleStream "polygon") ({} : State Int) := .start rfl
  exact ⟨_, rfl, rfl, rfl, blacklist_exact_filter (Reach.exec twoCalls hinit rfl)⟩

end BlacklistPlugin
