import Mathlib.Data.Set.Function
import RayOnGolem.ClusterTerminated
import RayOnGolem.Lib.LockPositions

/-!
# Which requests share a stack

`_get_or_create_manager_stack` shares stacks by a key that it computes from the
configuration object of the request.  Creating a stack prepares the demand of
that object and may add a capability to it, so that a request which creates its
priority stack looks for its main stack under another key than an equal request
which finds it.

Main results:

* `stacks_shared_by_demand` -- as long as no request has a priority subnet and a
  demand that preparing it changes (`keepsConfig`), two stacks are the same
  exactly when they were created or handed out for equal configurations and
  equal subnet tags;
* `equal_demand_not_shared` -- two equal requests that do not share.
-/

namespace Cluster

open Runs

variable {digest : NodeConfigData → String} {s s' : Cluster} {a : Act}

/-- Preparing the demand leaves the configuration as it is: there are no outbound
URLs, or the capability they need is listed already. -/
def keepsConfig (c : NodeConfigData) : Bool :=
  c.demand.outboundUrls.isEmpty || c.demand.capabilities.contains "manifest-support"

/-- **The condition** on the arguments of a request: it has no priority subnet, or
preparing its demand leaves its configuration as it is. -/
def keyedByRequest (c : NodeConfigData) : Bool := c.priority.isNone || keepsConfig c

/-- The steps of a running cluster whose requests all meet the condition; the end
of a `Cluster.stop` forgets all stacks. -/
def sharesByRequest (_ : Cluster) : Act → Bool
  | .start q => keyedByRequest q.nodeConfig
  | .enter q => keyedByRequest q.nodeConfig
  | .stopping _ .paymentStopped => false
  | _ => true

/-- Every stack that was created or handed out. -/
def record (s : Cluster) : List Handed := s.handed ++ s.created

/-- The claimed property. -/
def SharedByDemand (s : Cluster) : Prop :=
  ∀ x ∈ s.record, ∀ y ∈ s.record,
    (x.nodeConfig = y.nodeConfig ∧ x.subnetTag = y.subnetTag) ↔ x.stack = y.stack

theorem prepared_eq {c : NodeConfigData} (h : keepsConfig c = true) : c.prepared = c := by
  have hdemand : c.demand.withManifestSupport = c.demand := by
    simp only [keepsConfig, Bool.or_eq_true, List.isEmpty_iff, List.contains_iff_mem] at h
    apply if_neg
    rintro ⟨hurls, hmem⟩
    exact h.elim hurls hmem
  rw [NodeConfigData.prepared, hdemand]

/-! ### Where a call stands at the locks -/

open LockTable (Position Follows)

/-- A call is at the lock of its stage's hash, past it, or outside. -/
def Call.position (c : Call) : Position String :=
  match c.stage with
  | .locking _ h => .at h
  | .creating _ h => .inside h
  | .startingStack _ h _ => .inside h
  | _ => .outside

/-- The lock table follows the stages of the calls. -/
abbrev LocksFollow (s : Cluster) : Prop := Follows Call.position s.managerStacksLocks s.calls

variable {L : LockTable String} {t : Nat}

theorem locksFollow_initial (h : Initial s) : LocksFollow s := by
  subst h
  exact LockTable.follows_empty _

/-- A call that was handed a stack leaves its lock, and may ask for the next one. -/
theorem LocksFollow.onward (h : LocksFollow s) {c : Call} {goal : Goal} {r : Nat} {stage : Stage}
    (hc : s.calls[t]? = some c) (hon : Onward digest c r goal stage)
    (hL : OnwardLocks s.managerStacksLocks t stage L) :
    Follows Call.position L (s.calls.set t (Call.at c stage)) := by
  cases hL with
  | seek hexit => exact Follows.exitEnter h hc hexit rfl
  | ready hexit => exact Follows.exit h hc hexit rfl

theorem LocksFollow.step (h : LocksFollow s) (hok : sharesByRequest s a = true)
    (hs : Step digest s a s') : LocksFollow s' := by
  cases hs with
  | startPasses q => exact Follows.append h rfl
  | startSkips q => exact Follows.append h rfl
  | enters q => exact Follows.append h rfl
  | startDone t c hc hstage => exact Follows.stay h hc (by simp [Call.position, Call.at, hstage])
  | startRaised t c hc hstage => exact Follows.stay h hc (by simp [Call.position, Call.at, hstage])
  | leaves t c hc hstage => exact Follows.stay h hc (by simp [Call.position, Call.at, hstage])
  | prepares t c goal hash hc hstage =>
      exact Follows.enter h hc (by simp [Call.position, hstage]) rfl
  | wakes t c goal hash L hc hstage hL =>
      exact Follows.resume h hc (by rw [Call.position, hstage]) hL
  | cancels t c goal hash => exact Follows.cancel h t
  | unwinds t c goal hash L hc hstage hL => exact Follows.unwind h hc hL rfl
  | finds t c goal hash k sem r stage L hc hstage hheld hr hon hL => exact h.onward hc hon hL
  | misses t c goal hash k sem hc hstage hheld =>
      exact Follows.goInside h hc (by rw [Call.position, hstage]) hheld rfl
  | creates t c goal hash hc hstage =>
      exact Follows.stay h hc (by simp [Call.position, hstage])
  | createRaised t c goal hash L hc hstage hL => exact Follows.exit h hc hL rfl
  | handsOut t c goal hash r m m' stage L hc hstage hm hm' hlast hon hL => exact h.onward hc hon hL
  | managerStartRaised t c goal hash r m m' L hc hstage hm hm' hL => exact Follows.exit h hc hL rfl
  | finishes t k c r p id hc hstage =>
      exact Follows.stay h hc (by simp [Call.position, Call.at, hstage])
  | paymentStopped i σ => cases hok
  | _ => exact h

/-! ### Keys -/

/-- The key that the parsed configuration and the subnet tag have. -/
def Handed.key (digest : NodeConfigData → String) (x : Handed) : String :=
  x.nodeConfig.getHash digest x.subnetTag

/-- The hash a call is after is the key of its request. -/
def Wanted (digest : NodeConfigData → String) (c : Call) (goal : Goal) (h : String) : Prop :=
  (goal = .priority → c.request.nodeConfig.priority.isSome = true) ∧
    h = c.request.nodeConfig.getHash digest (Goal.subnetTag c.request.nodeConfig goal)

/-- What holds of a call, given the dictionary of stacks: as long as it will
compute another key, its configuration is the one of its request. -/
def Keyed (digest : NodeConfigData → String) (d : Dict String Nat) (c : Call) : Prop :=
  match c.stage with
  | .starting => c.nodeConfig = c.request.nodeConfig
  | .started => c.nodeConfig = c.request.nodeConfig
  | .locking goal h => c.nodeConfig = c.request.nodeConfig ∧ Wanted digest c goal h
  | .creating goal h =>
      c.nodeConfig = c.request.nodeConfig ∧ Wanted digest c goal h ∧ d.get h = none
  | .startingStack goal h r =>
      (goal = .priority → c.nodeConfig = c.request.nodeConfig) ∧ Wanted digest c goal h ∧
        d.get h = some r
  | .ready _ _ => True
  | .over => True

/-- The invariant. -/
structure SharingInv (digest : NodeConfigData → String) (s : Cluster) : Prop where
  locks : LocksFollow s
  requests : ∀ (t : Nat) (c : Call), s.calls[t]? = some c →
    keyedByRequest c.request.nodeConfig = true
  calls : ∀ (t : Nat) (c : Call), s.calls[t]? = some c → Keyed digest s.managerStacks c
  keyed : ∀ x ∈ s.record, s.managerStacks.get (Handed.key digest x) = some x.stack
  injective : ∀ (h h' : String) (r : Nat), s.managerStacks.get h = some r →
    s.managerStacks.get h' = some r → h = h'
  known : ∀ (h : String) (r : Nat), s.managerStacks.get h = some r → r < s.allStacks.length

theorem sharingInv_initial (h : Initial s) : SharingInv digest s := by
  refine ⟨locksFollow_initial h, ?_, ?_, ?_, ?_, ?_⟩ <;> subst h
  · intro t c hc
    simp at hc
  · intro t c hc
    simp at hc
  · intro x hx
    cases hx
  · intro h h' r hr
    cases hr
  · intro h r hr
    cases hr

/-- The general step: one call changes, no stack is created, and those handed out
are found under the key of their request. -/
theorem SharingInv.setCall (h : SharingInv digest s) {c c' : Call} (hc : s.calls[t]? = some c)
    (hlocks : LocksFollow s') (hcalls : s'.calls = s.calls.set t c')
    (hrequest : c'.request = c.request) (hkeyed : Keyed digest s.managerStacks c')
    (hstacks : s'.managerStacks = s.managerStacks)
    (hrecord : ∀ x ∈ s'.record,
      x ∈ s.record ∨ s.managerStacks.get (Handed.key digest x) = some x.stack)
    (hall : s.allStacks.length ≤ s'.allStacks.length) : SharingInv digest s' := by
  refine ⟨hlocks, ?_, ?_, ?_, ?_, ?_⟩
  · intro u d hd
    rw [hcalls] at hd
    rcases Objects.set_cases hd with ⟨rfl, rfl, -⟩ | ⟨-, hold⟩
    · rw [hrequest]
      exact h.requests u c hc
    · exact h.requests u d hold
  · intro u d hd
    rw [hcalls] at hd
    rw [hstacks]
    rcases Objects.set_cases hd with ⟨rfl, rfl, -⟩ | ⟨-, hold⟩
    · exact hkeyed
    · exact h.calls u d hold
  · intro x hx
    rw [hstacks]
    exact (hrecord x hx).elim (h.keyed x) id
  · rw [hstacks]
    exact h.injective
  · rw [hstacks]
    exact fun k r hr => Nat.lt_of_lt_of_le (h.known k r hr) hall

/-- Nothing about calls, stacks and the record changes. -/
theorem SharingInv.frame (h : SharingInv digest s) (hlocks : LocksFollow s')
    (hcalls : s'.calls = s.calls) (hstacks : s'.managerStacks = s.managerStacks)
    (hrecord : s'.record = s.record) (hall : s.allStacks.length ≤ s'.allStacks.length) :
    SharingInv digest s' := by
  refine ⟨hlocks, hcalls ▸ h.requests, ?_, ?_, ?_, ?_⟩
  · rw [hcalls, hstacks]
    exact h.calls
  · rw [hrecord, hstacks]
    exact h.keyed
  · rw [hstacks]
    exact h.injective
  · rw [hstacks]
    exact fun k r hr => Nat.lt_of_lt_of_le (h.known k r hr) hall

/-- A request arrives. -/
theorem SharingInv.addCall (h : SharingInv digest s) {c : Call} (hlocks : LocksFollow s')
    (hcalls : s'.calls = s.calls ++ [c])
    (hrequest : keyedByRequest c.request.nodeConfig = true)
    (hkeyed : Keyed digest s.managerStacks c)
    (hstacks : s'.managerStacks = s.managerStacks) (hrecord : s'.record = s.record)
    (hall : s'.allStacks = s.allStacks) : SharingInv digest s' := by
  refine ⟨hlocks, ?_, ?_, ?_, ?_, ?_⟩
  · intro u d hd
    rw [hcalls] at hd
    rcases Objects.append_cases hd with hold | ⟨-, rfl⟩
    · exact h.requests u d hold
    · exact hrequest
  · intro u d hd
    rw [hcalls] at hd
    rw [hstacks]
    rcases Objects.append_cases hd with hold | ⟨-, rfl⟩
    · exact h.calls u d hold
    · exact hkeyed
  · rw [hrecord, hstacks]
    exact h.keyed
  · rw [hstacks]
    exact h.injective
  · rw [hstacks, hall]
    exact h.known

/-- A stack is handed out under the key of the request. -/
theorem SharingInv.hand (h : SharingInv digest s) {c : Call} {goal : Goal} {hash : String}
    {r : Nat} {stage : Stage} (hc : s.calls[t]? = some c) (hlocks : LocksFollow s')
    (hconfig : goal = .priority → c.nodeConfig = c.request.nodeConfig)
    (hwanted : Wanted digest c goal hash) (hr : s.managerStacks.get hash = some r)
    (hon : Onward digest c r goal stage) (hcalls : s'.calls = s.calls.set t (Call.at c stage))
    (hstacks : s'.managerStacks = s.managerStacks)
    (hhanded : s'.handed = Call.handed c goal r :: s.handed) (hcreated : s'.created = s.created)
    (hall : s.allStacks.length ≤ s'.allStacks.length) : SharingInv digest s' := by
  have hkeyed : Keyed digest s.managerStacks (Call.at c stage) := by
    cases hon with
    | @seek next hh =>
        have hsame := hconfig rfl
        have hnext : Wanted digest c (.main (some r)) next := by
          refine ⟨nofun, ?_⟩
          rw [hh, hsame]
          rfl
        exact ⟨hsame, hnext⟩
    | ready => trivial
  refine h.setCall hc hlocks hcalls rfl hkeyed hstacks (fun x hx => ?_) hall
  have hx' : x = Call.handed c goal r ∨ x ∈ s.record := by
    simpa [record, hhanded, hcreated, or_assoc] using hx
  rcases hx' with rfl | hold
  · have hkey : Handed.key digest (Call.handed c goal r) = hash := hwanted.2.symm
    rw [hkey]
    exact .inr hr
  · exact .inl hold

/-- A stack is created and registered under the key of the request, which was
free: no other call is past the lock of that key. -/
theorem SharingInv.create (h : SharingInv digest s) {c : Call} {goal : Goal} {hash : String}
    (hc : s.calls[t]? = some c) (hstage : c.stage = .creating goal hash) (hlocks : LocksFollow s')
    (hcalls : s'.calls = s.calls.set t { c with
      nodeConfig := c.nodeConfig.prepared
      stage := .startingStack goal hash s.allStacks.length })
    (hstacks : s'.managerStacks = s.managerStacks.set hash s.allStacks.length)
    (hhanded : s'.handed = s.handed)
    (hcreated : s'.created = Call.handed c goal s.allStacks.length :: s.created)
    (hall : s'.allStacks.length = s.allStacks.length + 1) : SharingInv digest s' := by
  have hcall := h.calls t c hc
  simp only [Keyed, hstage] at hcall
  obtain ⟨hsame, hwanted, hfree⟩ := hcall
  have hold : ∀ {k : String} {r : Nat}, s.managerStacks.get k = some r →
      s'.managerStacks.get k = some r := by
    intro k r hk
    have hne : k ≠ hash := by
      rintro rfl
      rw [hfree] at hk
      cases hk
    rw [hstacks, Dict.get_set_ne _ hne]
    exact hk
  have hcases : ∀ {k : String} {r : Nat}, s'.managerStacks.get k = some r →
      (k = hash ∧ r = s.allStacks.length) ∨ s.managerStacks.get k = some r := by
    intro k r hk
    rw [hstacks] at hk
    by_cases hkh : k = hash
    · subst hkh
      rw [Dict.get_set_self] at hk
      exact .inl ⟨rfl, (Option.some.inj hk).symm⟩
    · rw [Dict.get_set_ne _ hkh] at hk
      exact .inr hk
  refine ⟨hlocks, ?_, ?_, ?_, ?_, ?_⟩
  · intro u d hd
    rw [hcalls] at hd
    rcases Objects.set_cases hd with ⟨rfl, rfl, -⟩ | ⟨-, hd⟩
    · exact h.requests u c hc
    · exact h.requests u d hd
  · intro u d hd
    rw [hcalls] at hd
    rcases Objects.set_cases hd with ⟨rfl, rfl, -⟩ | ⟨hne, hu⟩
    · refine ⟨?_, hwanted, by rw [hstacks]; exact Dict.get_set_self ..⟩
      rintro rfl
      -- a call with a priority subnet keeps its configuration
      have hkeeps : keepsConfig c.request.nodeConfig = true := by
        have hsome := hwanted.1 rfl
        have hrequest := h.requests u c hc
        rw [keyedByRequest, Bool.or_eq_true] at hrequest
        refine hrequest.resolve_left fun hnone => ?_
        rw [Option.isNone_iff_eq_none.mp hnone] at hsome
        cases hsome
      show c.nodeConfig.prepared = c.request.nodeConfig
      rw [hsame, prepared_eq hkeeps]
    · have hother := h.calls u d hu
      unfold Keyed at hother ⊢
      split at hother
      case h_4 goal' hash' hst =>
          refine ⟨hother.1, hother.2.1, ?_⟩
          have hne' : hash' ≠ hash := by
            rintro rfl
            exact hne (h.locks.mutex hu hc (by rw [Call.position, hst])
              (by rw [Call.position, hstage]))
          rw [hstacks, Dict.get_set_ne _ hne']
          exact hother.2.2
      case h_5 goal' hash' r hst => exact ⟨hother.1, hother.2.1, hold hother.2.2⟩
      all_goals exact hother
  · intro x hx
    have hx' : x = Call.handed c goal s.allStacks.length ∨ x ∈ s.record := by
      simpa [record, hhanded, hcreated, or_left_comm] using hx
    rcases hx' with rfl | hx'
    · have hkey : Handed.key digest (Call.handed c goal s.allStacks.length) = hash :=
        hwanted.2.symm
      rw [hkey, hstacks]
      exact Dict.get_set_self ..
    · exact hold (h.keyed x hx')
  · intro k k' r hk hk'
    rcases hcases hk with ⟨rfl, rfl⟩ | hk
    · rcases hcases hk' with ⟨rfl, -⟩ | hk'
      · rfl
      · exact absurd (h.known k' _ hk') (Nat.lt_irrefl _)
    · rcases hcases hk' with ⟨rfl, rfl⟩ | hk'
      · exact absurd (h.known k _ hk) (Nat.lt_irrefl _)
      · exact h.injective k k' r hk hk'
  · intro k r hk
    rw [hall]
    rcases hcases hk with ⟨-, rfl⟩ | hk
    · exact Nat.lt_succ_self _
    · exact Nat.lt_succ_of_lt (h.known k r hk)

/-- One guarded step keeps the invariant. -/
theorem SharingInv.step (h : SharingInv digest s) (hok : sharesByRequest s a = true)
    (hs : Step digest s a s') : SharingInv digest s' := by
  have hlocks := h.locks.step hok hs
  cases hs with
  | startPasses q => exact h.addCall hlocks rfl hok rfl rfl rfl rfl
  | startSkips q => exact h.addCall hlocks rfl hok rfl rfl rfl rfl
  | enters q => exact h.addCall hlocks rfl hok rfl rfl rfl rfl
  | startDone t c hc hstage =>
      have hcall := h.calls t c hc
      rw [Keyed, hstage] at hcall
      exact h.setCall hc hlocks rfl rfl hcall rfl (fun _ => .inl) (Nat.le_refl _)
  | startRaised t c hc =>
      exact h.setCall hc hlocks rfl rfl trivial rfl (fun _ => .inl) (Nat.le_refl _)
  | leaves t c hc => exact h.setCall hc hlocks rfl rfl trivial rfl (fun _ => .inl) (Nat.le_refl _)
  | prepares t c goal hash hc hstage hgoal hhash =>
      have hcall := h.calls t c hc
      rw [Keyed, hstage] at hcall
      have hsame : c.nodeConfig = c.request.nodeConfig := hcall
      have hwanted : Wanted digest c goal hash := by
        rw [hsame] at hgoal hhash
        refine ⟨fun hpriority => ?_, hhash⟩
        by_contra hnone
        simp [hgoal, hnone] at hpriority
      exact h.setCall hc hlocks rfl rfl ⟨hsame, hwanted⟩ rfl (fun _ => .inl) (Nat.le_refl _)
  | unwinds t c goal hash L hc =>
      exact h.setCall hc hlocks rfl rfl trivial rfl (fun _ => .inl) (Nat.le_refl _)
  | finds t c goal hash k sem r stage L hc hstage hheld hr hon hL =>
      have hcall := h.calls t c hc
      rw [Keyed, hstage] at hcall
      obtain ⟨hsame, hwanted⟩ := hcall
      exact h.hand hc hlocks (fun _ => hsame) hwanted hr hon rfl rfl rfl rfl (Nat.le_refl _)
  | misses t c goal hash k sem hc hstage hheld hr =>
      have hcall := h.calls t c hc
      rw [Keyed, hstage] at hcall
      obtain ⟨hsame, hwanted⟩ := hcall
      exact h.setCall hc hlocks rfl rfl ⟨hsame, hwanted, hr⟩ rfl (fun _ => .inl) (Nat.le_refl _)
  | creates t c goal hash hc hstage =>
      exact h.create hc hstage hlocks rfl rfl rfl rfl (by simp)
  | createRaised t c goal hash L hc =>
      exact h.setCall hc hlocks rfl rfl trivial rfl (fun _ => .inl) (Nat.le_refl _)
  | managerStarted t c goal hash r m m' => exact h.frame hlocks rfl rfl rfl (by simp)
  | handsOut t c goal hash r m m' stage L hc hstage hm hm' hlast hon hL =>
      have hcall := h.calls t c hc
      rw [Keyed, hstage] at hcall
      obtain ⟨hconfig, hwanted, hr⟩ := hcall
      exact h.hand hc hlocks hconfig hwanted hr hon rfl rfl rfl rfl (by simp)
  | managerStartRaised t c goal hash r m m' L hc =>
      exact h.setCall hc hlocks rfl rfl trivial rfl (fun _ => .inl) (by simp)
  | finishes t k c r p id hc =>
      exact h.setCall hc hlocks rfl rfl trivial rfl (fun _ => .inl) (Nat.le_refl _)
  | stopsStack i r σ todo busy m => exact h.frame hlocks rfl rfl rfl (by simp)
  | paymentStopped i σ => cases hok
  | stackStops r m => exact h.frame hlocks rfl rfl rfl (by simp)
  | managerStopped r m m' => exact h.frame hlocks rfl rfl rfl (by simp)
  | managerStopRaised r m m' => exact h.frame hlocks rfl rfl rfl (by simp)
  | _ => exact h.frame hlocks rfl rfl rfl (Nat.le_refl _)

/-- Equal keys come from equal configurations and equal subnet tags. -/
theorem key_inj {x y : Handed} (hlen : (digest x.nodeConfig).length = (digest y.nodeConfig).length)
    (hinj : digest x.nodeConfig = digest y.nodeConfig → x.nodeConfig = y.nodeConfig)
    (hkey : Handed.key digest x = Handed.key digest y) :
    x.nodeConfig = y.nodeConfig ∧ x.subnetTag = y.subnetTag := by
  have hlist := congrArg String.toList hkey
  simp only [Handed.key, NodeConfigData.getHash, String.toList_append, List.append_assoc] at hlist
  obtain ⟨hdigest, hrest⟩ := List.append_inj hlist (by simpa [String.length_toList] using hlen)
  refine ⟨hinj (String.toList_inj.mp hdigest), ?_⟩
  exact String.toList_inj.mp (List.append_cancel_left hrest)

/-- **Stacks are shared exactly by equal demand** in every run of a running
cluster whose requests all meet the condition, when digests have one length and
those of the configurations in the run do not collide. -/
theorem stacks_shared_by_demand (hlen : ∀ c, (digest c).length = 32)
    (hinj : Set.InjOn digest {c | ∃ x ∈ s.record, x.nodeConfig = c})
    (h : Reach Initial (step digest) (fun s a => sharesByRequest s a) s) : SharedByDemand s := by
  have hinv : SharingInv digest s :=
    Reach.invariant (I := SharingInv digest) (fun _ => sharingInv_initial)
      (fun _ _ _ hi hok hstep => hi.step hok (step_cases hstep)) h
  intro x hx y hy
  have hgetx := hinv.keyed x hx
  have hgety := hinv.keyed y hy
  constructor
  · rintro ⟨hconfig, htag⟩
    have hkey : Handed.key digest x = Handed.key digest y := by
      rw [Handed.key, Handed.key, hconfig, htag]
    rw [hkey, hgety] at hgetx
    exact (Option.some.inj hgetx).symm
  · intro hstack
    refine key_inj ((hlen _).trans (hlen _).symm) (hinj ⟨x, hx, rfl⟩ ⟨y, hy, rfl⟩) ?_
    rw [← hstack] at hgety
    exact hinv.injective _ _ _ hgetx hgety

/-! ### Two runs -/

/-- A configuration with a priority subnet and an outbound URL. -/
def priorityConfig : NodeConfigData :=
  { outboundConfig with prioritySubnetTag := some "ray-on-golem-recommended" }

/-- The same with the capability that its demand needs. -/
def preparedConfig : NodeConfigData := priorityConfig.prepared

/-- The md5 digests of the JSON of the two configurations. -/
def priorityDigest (c : NodeConfigData) : String :=
  if c = priorityConfig then "c2a0416f4450f6ee734281937efcc0c4"
  else if c = preparedConfig then "ae95e13ef7a40cf79f922de4b1bd6568"
  else "00000000000000000000000000000000"

/-- A first request that creates both of its stacks. -/
def firstOfTwo (c : NodeConfigData) : List Act :=
  [.start ⟨c, 1, false⟩, .call 0 .startDone, .call 0 .prepare, .call 0 .lookup, .call 0 .create,
    .call 0 .managerStarted, .call 0 .managerStarted, .call 0 .managerStarted, .call 0 .lookup,
    .call 0 .create, .call 0 .managerStarted, .call 0 .managerStarted, .call 0 .managerStarted,
    .call 0 (.finishRequest 1)]

/-- A second one with the same configuration, up to its second lookup. -/
def secondOfTwo (c : NodeConfigData) : List Act :=
  [.start ⟨c, 1, false⟩, .call 1 .prepare, .call 1 .lookup, .call 1 .lookup]

/-- Two equal requests whose demand needs no preparation. -/
def sharedPair : List Act := firstOfTwo preparedConfig ++ secondOfTwo preparedConfig

/-- Two equal requests whose demand does. -/
def splitPair : List Act :=
  firstOfTwo priorityConfig ++ secondOfTwo priorityConfig ++
    [.call 1 .create, .call 1 .managerStarted, .call 1 .managerStarted, .call 1 .managerStarted]

theorem length_priorityDigest (c : NodeConfigData) : (priorityDigest c).length = 32 := by
  unfold priorityDigest
  split
  · rfl
  · split <;> rfl

theorem stacks_shared_by_demand_pair :
    ∃ s, exec (guarded (step priorityDigest) sharesByRequest) sharedPair {} = some s ∧
      s.handed.map Handed.stack = [1, 0, 1, 0] ∧ SharedByDemand s := by
  have hrun : ∃ s, exec (guarded (step priorityDigest) sharesByRequest) sharedPair {} = some s ∧
      s.handed.map Handed.stack = [1, 0, 1, 0] ∧
      s.record.map Handed.nodeConfig = List.replicate 6 preparedConfig :=
    ⟨_, rfl, rfl, rfl⟩
  obtain ⟨s, hs, hhanded, hrecord⟩ := hrun
  have hreach : Reach Initial (step priorityDigest) (fun s a => sharesByRequest s a) s :=
    Reach.execGuarded sharedPair (.start rfl) hs
  refine ⟨s, hs, hhanded, stacks_shared_by_demand length_priorityDigest ?_ hreach⟩
  have hsame : ∀ x ∈ s.record, x.nodeConfig = preparedConfig := by
    intro x hx
    have hmem := List.mem_map_of_mem (f := Handed.nodeConfig) hx
    rw [hrecord] at hmem
    exact List.eq_of_mem_replicate hmem
  rintro c ⟨x, hx, rfl⟩ c' ⟨y, hy, rfl⟩ -
  exact (hsame x hx).trans (hsame y hy).symm

/-- **Equal requests that do not share**: the first one looks for its main stack
under the key of the prepared configuration, the second one does not. -/
theorem equal_demand_not_shared :
    ¬ ∀ s, Reachable Initial (step priorityDigest) s → SharedByDemand s := by
  intro hall
  have hrun : ∃ s, exec (step priorityDigest) splitPair {} = some s ∧
      s.handed[0]? = some ⟨priorityConfig, "public", 2⟩ ∧
      s.handed[2]? = some ⟨priorityConfig, "public", 1⟩ :=
    ⟨_, rfl, rfl, rfl⟩
  obtain ⟨s, hs, hsecond, hfirst⟩ := hrun
  have hmem : ∀ i x, s.handed[i]? = some x → x ∈ s.record :=
    fun i x hx => List.mem_append_left _ (List.mem_of_getElem? hx)
  have hstack := (hall s (Reach.exec splitPair (.start rfl) hs) _ (hmem 0 _ hsecond) _
    (hmem 2 _ hfirst)).mp ⟨rfl, rfl⟩
  exact absurd hstack (by decide)

end Cluster
