import Mathlib.Data.List.Infix
import Mathlib.Data.List.Count

/-!
# Streaks

When `n` occurrences of a value in a list are `n` in a row.  A counter that is never set
back counts occurrences; `inARow_iff` says which lists it takes for a streak rightly:
those in which nothing else stands between two of the occurrences.
-/

namespace Streaks

variable {α : Type*} [DecidableEq α]

/-- `x` occurs `n` times in a row. -/
def InARow (n : Nat) (x : α) (l : List α) : Prop := List.replicate n x <:+: l

instance (n : Nat) (x : α) (l : List α) : Decidable (InARow n x l) :=
  inferInstanceAs (Decidable (_ <:+: _))

/-- Something else stands between two occurrences of `x`. -/
def Interrupted (x : α) (l : List α) : Prop :=
  ∃ before y after, l = before ++ y :: after ∧ y ≠ x ∧ x ∈ before ∧ x ∈ after

variable {n : Nat} {x : α} {l : List α}

/-- A streak of `n` takes `n` occurrences. -/
theorem InARow.le_count (h : InARow n x l) : n ≤ l.count x := by
  have hcount := h.sublist.count_le x
  rwa [List.count_replicate_self] at hcount

/-- Around a streak of all the occurrences there is none. -/
theorem not_mem_around {s t : List α} (h : s ++ List.replicate n x ++ t = l)
    (hcount : l.count x = n) : x ∉ s ∧ x ∉ t := by
  rw [← h, List.count_append, List.count_append, List.count_replicate_self] at hcount
  constructor
  · apply List.count_eq_zero.mp
    omega
  · apply List.count_eq_zero.mp
    omega

/-- A streak of all the occurrences is not interrupted. -/
theorem InARow.not_interrupted (h : InARow n x l) (hcount : l.count x = n) :
    ¬ Interrupted x l := by
  obtain ⟨s, t, hst⟩ := h
  obtain ⟨hs, ht⟩ := not_mem_around hst hcount
  rintro ⟨before, y, after, hl, hy, hbefore, hafter⟩
  rw [← hst, List.append_assoc, eq_comm] at hl
  rcases List.append_eq_append_iff.mp hl with ⟨as, rfl, -⟩ | ⟨bs, rfl, hmiddle⟩
  · exact hs (by simp [hbefore])
  rcases List.append_eq_append_iff.mp hmiddle with ⟨as, -, hrest⟩ | ⟨cs, hstreak, hrest⟩
  · exact ht (by simp [hrest, hafter])
  -- `y` is in the streak or behind it
  cases cs with
  | nil =>
      rw [List.nil_append] at hrest
      exact ht (by simp [← hrest, hafter])
  | cons c cs =>
      obtain ⟨rfl, -⟩ := List.cons.inj hrest
      have hc : y ∈ List.replicate n x := by simp [hstreak]
      exact hy (List.eq_of_mem_replicate hc)

/-- Occurrences that are not interrupted follow one another from the first one on. -/
theorem inARow_cons (h : ¬ Interrupted x (x :: l)) :
    InARow ((x :: l).count x) x (x :: l) := by
  have hsplit := List.takeWhile_append_dropWhile (p := (· = x)) (l := x :: l)
  have htake : (x :: l).takeWhile (· = x) =
      List.replicate ((x :: l).takeWhile (· = x)).length x := by
    apply List.eq_replicate_of_mem
    have hall := List.all_takeWhile (p := fun b => decide (b = x)) (l := x :: l)
    simpa using List.all_eq_true.mp hall
  have hrest : x ∉ (x :: l).dropWhile (· = x) := by
    intro hx
    cases hd : (x :: l).dropWhile (· = x) with
    | nil => simp [hd] at hx
    | cons y after =>
        rw [hd] at hsplit hx
        have hy : y ≠ x := by
          have hhead := List.head_dropWhile_not (p := (· = x)) (l := x :: l) (by simp [hd])
          simpa [hd] using hhead
        refine h ⟨_, y, after, hsplit.symm, hy, by simp, ?_⟩
        exact (List.mem_cons.mp hx).resolve_left hy.symm
  refine ⟨[], (x :: l).dropWhile (· = x), ?_⟩
  have hcount : (x :: l).count x = ((x :: l).takeWhile (· = x)).length := by
    conv_lhs => rw [← hsplit, List.count_append, List.count_eq_zero.mpr hrest, htake]
    simp
  rw [hcount, ← htake, List.nil_append, hsplit]

/-- **All occurrences are in a row if and only if nothing stands between two of them.** -/
theorem inARow_iff (hcount : l.count x = n) : InARow n x l ↔ ¬ Interrupted x l := by
  refine ⟨fun h => h.not_interrupted hcount, fun h => ?_⟩
  subst hcount
  induction l with
  | nil => exact List.nil_infix
  | cons a l ih =>
      by_cases ha : a = x
      · subst ha
        exact inARow_cons h
      · rw [List.count_cons_of_ne ha]
        have hl : ¬ Interrupted x l := by
          rintro ⟨before, y, after, hl, hy, hbefore, hafter⟩
          exact h ⟨a :: before, y, after, by simp [hl], hy, by simp [hbefore], hafter⟩
        exact (ih hl).trans (List.suffix_cons a l).isInfix

end Streaks
