import Mathlib.Algebra.Order.Ring.Nat

/-!
# Polling loops

A loop `while now() < deadline` whose rounds take at least `interval` each, begun `timeout`
before the deadline, makes at most `timeout / interval` rounds.  `Rounds` counts them in a loop
that other tasks interrupt; `poll` is the loop of its own, where each round takes some time and
may decide the outcome.

Times are natural numbers and only grow: a clock that is set back during a loop is not covered.
-/

namespace Polling

/-- `count` rounds of a loop were begun, and at `time` they are over. -/
structure Rounds (interval timeout deadline count time : Nat) : Prop where
  taken : deadline + interval * count ≤ time + timeout
  few : interval * count < timeout + interval

variable {interval timeout deadline count time : Nat}

/-- Waiting longer begins no round. -/
theorem Rounds.later {time' : Nat} (h : Rounds interval timeout deadline count time)
    (hle : time ≤ time') : Rounds interval timeout deadline count time' :=
  ⟨h.taken.trans (Nat.add_le_add_right hle timeout), h.few⟩

/-- The loop begins. -/
theorem rounds_zero (hinterval : 0 < interval) (timeout now : Nat) :
    Rounds interval timeout (now + timeout) 0 now :=
  ⟨by omega, by omega⟩

/-- Another round begins before the deadline. -/
theorem Rounds.next (h : Rounds interval timeout deadline count time) (hlt : time < deadline) :
    Rounds interval timeout deadline (count + 1) (time + interval) := by
  have htaken := h.taken
  constructor
  · rw [Nat.mul_succ]
    omega
  · rw [Nat.mul_succ]
    omega

/-- The number of rounds. -/
theorem Rounds.le (h : Rounds interval timeout deadline count time) (hdvd : interval ∣ timeout) :
    count ≤ timeout / interval := by
  obtain ⟨n, rfl⟩ := hdvd
  have hfew : interval * count < interval * (n + 1) := by
    rw [Nat.mul_succ]
    exact h.few
  have hpos : 0 < interval := Nat.pos_of_mul_pos_right (Nat.zero_lt_of_lt hfew)
  rw [Nat.mul_div_cancel_left n hpos]
  exact Nat.lt_succ_iff.mp (Nat.lt_of_mul_lt_mul_left hfew)

/-! ### The loop of its own -/

variable {β : Type*}

/-- The outcome of the loop, if these rounds come to it: what a round decided, or `none` at the
deadline. -/
def poll (deadline : Nat) : Nat → List (Nat × Option β) → Option (Option β)
  | now, [] => if now < deadline then none else some none
  | now, (seconds, outcome) :: rounds =>
      if now < deadline then
        match outcome with
        | some b => some (some b)
        | none => poll deadline (now + seconds) rounds
      else some none

/-- The time that rounds take. -/
def total (rounds : List (Nat × Option β)) : Nat := (rounds.map Prod.fst).sum

@[simp] theorem total_nil : total ([] : List (Nat × Option β)) = 0 := rfl

@[simp] theorem total_cons (r : Nat × Option β) (rounds : List (Nat × Option β)) :
    total (r :: rounds) = r.1 + total rounds := by
  simp [total]

/-- Enough rounds come to an outcome. -/
theorem poll_ne_none {now : Nat} {rounds : List (Nat × Option β)}
    (hseconds : ∀ r ∈ rounds, interval ≤ r.1)
    (henough : deadline ≤ now + interval * rounds.length) :
    poll deadline now rounds ≠ none := by
  induction rounds generalizing now with
  | nil =>
      have hover : ¬ now < deadline := by simpa using henough
      simp [poll, hover]
  | cons r rounds ih =>
      obtain ⟨seconds, outcome⟩ := r
      unfold poll
      split
      · cases outcome with
        | some b => simp
        | none =>
            apply ih fun r hr => hseconds r (List.mem_cons_of_mem _ hr)
            have hlong : interval ≤ seconds := hseconds _ List.mem_cons_self
            rw [List.length_cons, Nat.mul_succ] at henough
            omega
      · simp

/-- A round decides before the deadline, and no earlier one does. -/
theorem poll_eq_some_iff {now : Nat} {rounds : List (Nat × Option β)} {b : β} :
    poll deadline now rounds = some (some b) ↔
      ∃ before seconds after, rounds = before ++ (seconds, some b) :: after ∧
        (∀ r ∈ before, r.2 = none) ∧ now + total before < deadline := by
  induction rounds generalizing now with
  | nil =>
      unfold poll
      split <;> simp
  | cons r rounds ih =>
      obtain ⟨seconds, outcome⟩ := r
      unfold poll
      constructor
      · intro h
        split at h
        case isFalse => simp at h
        case isTrue hlt =>
          cases outcome with
          | some c =>
              obtain rfl : c = b := by simpa using h
              exact ⟨[], seconds, rounds, rfl, by simp, by simpa using hlt⟩
          | none =>
              obtain ⟨before, d, after, rfl, hnone, htotal⟩ := ih.mp h
              refine ⟨(seconds, none) :: before, d, after, rfl, by simpa using hnone, ?_⟩
              rw [total_cons]
              omega
      · rintro ⟨before, d, after, heq, hnone, htotal⟩
        rw [if_pos (by omega)]
        cases before with
        | nil =>
            obtain ⟨⟨rfl, rfl⟩, rfl⟩ : (seconds = d ∧ outcome = some b) ∧ rounds = after := by
              simpa using heq
            rfl
        | cons q before =>
            obtain ⟨rfl, rfl⟩ : (seconds, outcome) = q ∧
                rounds = before ++ (d, some b) :: after := by
              simpa using heq
            obtain rfl : outcome = none := hnone _ List.mem_cons_self
            refine ih.mpr ⟨before, d, after, rfl, fun r hr => hnone r (by simp [hr]), ?_⟩
            rw [total_cons] at htotal
            omega

/-- The deadline comes after rounds none of which decides. -/
theorem poll_eq_none_iff {now : Nat} {rounds : List (Nat × Option β)} :
    poll deadline now rounds = some none ↔
      ∃ before after, rounds = before ++ after ∧ (∀ r ∈ before, r.2 = none) ∧
        deadline ≤ now + total before := by
  induction rounds generalizing now with
  | nil =>
      unfold poll
      split <;> simp <;> omega
  | cons r rounds ih =>
      obtain ⟨seconds, outcome⟩ := r
      unfold poll
      constructor
      · intro h
        split at h
        case isFalse hover => exact ⟨[], _, rfl, by simp, by simpa using hover⟩
        case isTrue =>
          cases outcome with
          | some c => simp at h
          | none =>
              obtain ⟨before, after, rfl, hnone, htotal⟩ := ih.mp h
              refine ⟨(seconds, none) :: before, after, rfl, by simpa using hnone, ?_⟩
              rw [total_cons]
              omega
      · rintro ⟨before, after, heq, hnone, htotal⟩
        split
        case isFalse => rfl
        case isTrue hlt =>
          cases before with
          | nil =>
              rw [total_nil] at htotal
              omega
          | cons q before =>
              obtain ⟨rfl, rfl⟩ : (seconds, outcome) = q ∧ rounds = before ++ after := by
                simpa using heq
              obtain rfl : outcome = none := hnone _ List.mem_cons_self
              refine ih.mpr ⟨before, after, rfl, fun r hr => hnone r (by simp [hr]), ?_⟩
              rw [total_cons] at htotal
              omega

end Polling
