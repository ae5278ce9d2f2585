import Mathlib.Data.Rat.Defs
import RayOnGolem.Lib.Polling
import RayOnGolem.Yagna

/-!
# Funds of a test network

`YagnaService.prepare_funds`.  On a test network each round of its loop asks for funds, and if
that succeeded for the balance; the rounds are given with what the command line of yagna
answers and how many whole seconds it takes; `datetime.now()`, which is the local time, is not
set back meanwhile.  A failed request for funds is logged and the loop goes on, any
other failure leaves it.

Main result: `prepare_funds_exact` -- the loop returns the first balance that is not zero,
raises for the first failure that is not one of funding, gives up after five minutes, and
comes to one of these within 150 rounds.
-/

/-- `YAGNA_FUND_TIMEOUT`. -/
def yagnaFundTimeout : Nat := 300

/-- How a call of yagna's command line ends: the code expects `RayOnGolemError` only. -/
inductive CommandOutcome (α : Type)
  | returned (a : α)
  | rayOnGolemError
  | raised
  deriving DecidableEq, Repr

/-- What `float` makes of an amount. -/
inductive Amount
  | number (q : ℚ)
  | infinity
  | nan
  deriving DecidableEq, Repr

/-- Only zero is false. -/
def Amount.truthy : Amount → Bool
  | .number q => q != 0
  | .infinity | .nan => true

/-- The payment status: its amount, unless `float` raises for it, and its token, if it has one. -/
structure PaymentStatus where
  amount : Option Amount
  token : Option String
  deriving DecidableEq, Repr

/-- How `prepare_funds` raises. -/
inductive FundsError
  | rayOnGolemError
  | raised
  | timeout
  deriving DecidableEq, Repr

/-- A round of the loop. -/
structure FundRound where
  fund : CommandOutcome Unit
  fundSeconds : Nat
  status : CommandOutcome PaymentStatus
  statusSeconds : Nat
  deriving DecidableEq, Repr

/-- What a round decides.  The amount is logged with its token. -/
def FundRound.decided (r : FundRound) : Option (Except FundsError PaymentStatus) :=
  match r.fund with
  | .rayOnGolemError => none
  | .raised => some (.error .raised)
  | .returned _ =>
      match r.status with
      | .rayOnGolemError => some (.error .rayOnGolemError)
      | .raised => some (.error .raised)
      | .returned output =>
          match output.amount with
          | none => some (.error .raised)
          | some amount =>
              if amount.truthy then
                match output.token with
                | some _ => some (.ok output)
                | none => some (.error .raised)
              else none

/-- How long a round takes that decides nothing. -/
def FundRound.seconds (r : FundRound) : Nat :=
  r.fundSeconds + (if r.fund = .returned () then r.statusSeconds else 0) + yagnaCheckInterval

/-- A network with automatic funding. -/
def isFundedNetwork (network : String) : Bool := network == "holesky" || network == "goerli"

/-- `prepare_funds`; `status` is the answer where there is no automatic funding. -/
def prepareFunds (network : String) (status : CommandOutcome PaymentStatus) (now : Nat)
    (rounds : List FundRound) : Option (Except FundsError PaymentStatus) :=
  if isFundedNetwork network then
    (Polling.poll (now + yagnaFundTimeout) now (rounds.map fun r => (r.seconds, r.decided))).map
      fun outcome => outcome.getD (.error .timeout)
  else
    match status with
    | .returned output => some (.ok output)
    | .rayOnGolemError => some (.error .rayOnGolemError)
    | .raised => some (.error .raised)

/-- The seconds of some rounds. -/
def fundSeconds (rounds : List FundRound) : Nat := (rounds.map FundRound.seconds).sum

/-- A round brings funds. -/
def FundRound.Funded (r : FundRound) (output : PaymentStatus) : Prop :=
  r.fund = .returned () ∧ r.status = .returned output ∧
    (∃ amount, output.amount = some amount ∧ amount.truthy = true) ∧ output.token ≠ none

open Polling

theorem decided_eq_ok_iff {r : FundRound} {output : PaymentStatus} :
    r.decided = some (.ok output) ↔ r.Funded output := by
  obtain ⟨fund, fundSeconds, status, statusSeconds⟩ := r
  constructor
  · intro h
    unfold FundRound.decided at h
    cases fund <;> try cases h
    cases status <;> try cases h
    rename_i output'
    obtain ⟨amount, token⟩ := output'
    cases amount <;> try cases h
    rename_i amount
    cases htruthy : amount.truthy <;>
    simp only [htruthy, if_true, Bool.false_eq_true, if_false] at h
    · cases h
    cases token <;> cases h
    exact ⟨rfl, rfl, ⟨amount, rfl, htruthy⟩, by simp⟩
  · rintro ⟨rfl, rfl, ⟨amount, hamount, htruthy⟩, htoken⟩
    obtain ⟨token, htoken⟩ := Option.ne_none_iff_exists'.mp htoken
    simp [FundRound.decided, hamount, htruthy, htoken]

theorem decided_ne_timeout (r : FundRound) : r.decided ≠ some (.error .timeout) := by
  unfold FundRound.decided
  grind

theorem prepareFunds_funded {network : String} (hfunded : isFundedNetwork network = true)
    (status : CommandOutcome PaymentStatus) (now : Nat) (rounds : List FundRound) :
    prepareFunds network status now rounds =
      (poll (now + yagnaFundTimeout) now (rounds.map fun r => (r.seconds, r.decided))).map
        fun outcome => outcome.getD (.error .timeout) := by
  unfold prepareFunds
  rw [if_pos hfunded]

theorem total_rounds (rounds : List FundRound) :
    total (rounds.map fun r => (r.seconds, r.decided)) = fundSeconds rounds := by
  simp [total, fundSeconds, Function.comp_def]

/-- The loop decides as its first deciding round does. -/
theorem prepareFunds_eq_iff {network : String} (hfunded : isFundedNetwork network = true)
    (status : CommandOutcome PaymentStatus) (now : Nat) (rounds : List FundRound)
    {outcome : Except FundsError PaymentStatus} (houtcome : outcome ≠ .error .timeout) :
    prepareFunds network status now rounds = some outcome ↔
      ∃ before r after, rounds = before ++ r :: after ∧ (∀ x ∈ before, x.decided = none) ∧
        fundSeconds before < yagnaFundTimeout ∧ r.decided = some outcome := by
  have hpoll : prepareFunds network status now rounds = some outcome ↔
      poll (now + yagnaFundTimeout) now (rounds.map fun r => (r.seconds, r.decided)) =
        some (some outcome) := by
    rw [prepareFunds_funded hfunded]
    constructor
    · intro h
      obtain ⟨o, ho, heq⟩ := Option.map_eq_some_iff.mp h
      cases o with
      | none => exact absurd heq.symm houtcome
      | some b =>
          obtain rfl : b = outcome := heq
          exact ho
    · intro h
      rw [h]
      rfl
  rw [hpoll, poll_eq_some_iff]
  constructor
  · rintro ⟨before, seconds, after, heq, hnone, htotal⟩
    obtain ⟨xs, ys, rfl, rfl, hys⟩ := List.map_eq_append_iff.mp heq
    obtain ⟨r, zs, rfl, hr, -⟩ := List.map_eq_cons_iff.mp hys
    refine ⟨xs, r, zs, rfl, fun x hx => hnone _ (List.mem_map_of_mem hx), ?_, ?_⟩
    · rw [total_rounds] at htotal
      omega
    · exact congrArg Prod.snd hr
  · rintro ⟨before, r, after, rfl, hnone, htotal, hr⟩
    refine ⟨before.map fun x => (x.seconds, x.decided), r.seconds,
      after.map fun x => (x.seconds, x.decided), by simp [hr], ?_, ?_⟩
    · intro x hx
      obtain ⟨y, hy, rfl⟩ := List.mem_map.mp hx
      exact hnone y hy
    · rw [total_rounds]
      omega

/-- **What `prepare_funds` does on a test network**, for all answers of yagna's command line. -/
theorem prepare_funds_exact (network : String) (hfunded : isFundedNetwork network = true)
    (status : CommandOutcome PaymentStatus) (now : Nat) (rounds : List FundRound) :
    (∀ output, prepareFunds network status now rounds = some (.ok output) ↔
      ∃ before r after, rounds = before ++ r :: after ∧ (∀ x ∈ before, x.decided = none) ∧
        fundSeconds before < yagnaFundTimeout ∧ r.Funded output) ∧
    (∀ e, e ≠ .timeout → (prepareFunds network status now rounds = some (.error e) ↔
      ∃ before r after, rounds = before ++ r :: after ∧ (∀ x ∈ before, x.decided = none) ∧
        fundSeconds before < yagnaFundTimeout ∧ r.decided = some (.error e))) ∧
    (prepareFunds network status now rounds = some (.error .timeout) ↔
      ∃ before after, rounds = before ++ after ∧ (∀ x ∈ before, x.decided = none) ∧
        yagnaFundTimeout ≤ fundSeconds before) ∧
    (150 ≤ rounds.length → prepareFunds network status now rounds ≠ none) := by
  refine ⟨fun output => ?_, fun e he => ?_, ?_, fun hlength => ?_⟩
  · simp only [← decided_eq_ok_iff]
    exact prepareFunds_eq_iff hfunded status now rounds nofun
  · exact prepareFunds_eq_iff hfunded status now rounds fun heq => he (by cases heq; rfl)
  · rw [prepareFunds_funded hfunded]
    constructor
    · intro h
      obtain ⟨o, ho, heq⟩ := Option.map_eq_some_iff.mp h
      cases o with
      | some b =>
          obtain rfl : b = .error .timeout := heq
          obtain ⟨before, seconds, after, hrounds, -⟩ := poll_eq_some_iff.mp ho
          obtain ⟨xs, ys, rfl, rfl, hys⟩ := List.map_eq_append_iff.mp hrounds
          obtain ⟨r, zs, rfl, hr, -⟩ := List.map_eq_cons_iff.mp hys
          exact absurd (congrArg Prod.snd hr) (decided_ne_timeout r)
      | none =>
          obtain ⟨before, after, hrounds, hnone, htotal⟩ := poll_eq_none_iff.mp ho
          obtain ⟨xs, ys, rfl, rfl, -⟩ := List.map_eq_append_iff.mp hrounds
          rw [total_rounds] at htotal
          exact ⟨xs, ys, rfl, fun x hx => hnone _ (List.mem_map_of_mem hx), by omega⟩
    · rintro ⟨before, after, rfl, hnone, htotal⟩
      have hpoll : poll (now + yagnaFundTimeout) now
          ((before ++ after).map fun r => (r.seconds, r.decided)) = some none := by
        refine poll_eq_none_iff.mpr ⟨before.map fun x => (x.seconds, x.decided),
          after.map fun x => (x.seconds, x.decided), by simp, ?_, ?_⟩
        · intro x hx
          obtain ⟨y, hy, rfl⟩ := List.mem_map.mp hx
          exact hnone y hy
        · rw [total_rounds]
          omega
      rw [hpoll]
      rfl
  · rw [prepareFunds_funded hfunded]
    intro h
    have hseconds : ∀ x ∈ rounds.map fun r => (r.seconds, r.decided), yagnaCheckInterval ≤ x.1 := by
      intro x hx
      obtain ⟨r, -, rfl⟩ := List.mem_map.mp hx
      exact Nat.le_add_left _ _
    refine poll_ne_none hseconds ?_ (Option.map_eq_none_iff.mp h)
    simp only [List.length_map, yagnaFundTimeout, yagnaCheckInterval]
    omega

theorem prepare_funds_exact_holesky :
    prepareFunds "holesky" .raised 0
      [⟨.rayOnGolemError, 1, .raised, 0⟩,
        ⟨.returned (), 1, .returned ⟨some (.number 0), some "tGLM"⟩, 1⟩,
        ⟨.returned (), 1, .returned ⟨some (.number 5), some "tGLM"⟩, 1⟩] =
      some (.ok ⟨some (.number 5), some "tGLM"⟩) :=
  ((prepare_funds_exact "holesky" rfl .raised 0 _).1 _).mpr
    ⟨[_, _], _, [], rfl, by decide, by decide, rfl, rfl, ⟨_, rfl, rfl⟩, by simp⟩
