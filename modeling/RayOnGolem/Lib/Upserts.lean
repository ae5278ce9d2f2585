import Mathlib.Data.List.Basic
import Mathlib.Logic.Function.Basic

/-!
# Upserts into a table

A table `K → Option V` of which a list of upserts changes one entry after the other: the
entry of a key is made from a default if it is missing, and then assigned to.  The order of
upserts to different keys does not matter: an entry ends as its own assignments, in their
order, leave it (`upserts_of_mem`), and all other entries are as they were.

`foldl_or` is the rule for columns that are assigned only when there is a value: the last
value wins.
-/

namespace Upserts

variable {K V C : Type*} [DecidableEq K] (fresh : V) (assign : V → C → V)

/-- Assign to the entry of `k`, which is made from `fresh` if it is missing. -/
def upsert (table : K → Option V) (k : K) (c : C) : K → Option V :=
  Function.update table k (some (assign ((table k).getD fresh) c))

/-- One upsert after the other. -/
def upserts (table : K → Option V) : List (K × C) → K → Option V
  | [] => table
  | (k, c) :: l => upserts (upsert fresh assign table k c) l

/-- What is assigned to a key, in order. -/
def assignments (k : K) (l : List (K × C)) : List C :=
  l.filterMap fun e => if e.1 = k then some e.2 else none

/-- The keys whose entries the upserts make, in order. -/
def created (table : K → Option V) : List (K × C) → List K
  | [] => []
  | (k, c) :: l =>
      if (table k).isNone then k :: created (upsert fresh assign table k c) l
      else created (upsert fresh assign table k c) l

variable {fresh} {assign} {table : K → Option V} {k : K}

@[simp] theorem upsert_self (c : C) :
    upsert fresh assign table k c k = some (assign ((table k).getD fresh) c) := by
  simp [upsert]

theorem upsert_ne {k' : K} (h : k' ≠ k) (c : C) :
    upsert fresh assign table k c k' = table k' := by
  simp [upsert, h]

/-- Entries without an upsert. -/
theorem upserts_of_not_mem {l : List (K × C)} (h : k ∉ l.map Prod.fst) :
    upserts fresh assign table l k = table k := by
  induction l generalizing table with
  | nil => rfl
  | cons e l ih =>
      obtain ⟨k', c⟩ := e
      simp only [List.map_cons, List.mem_cons, not_or] at h
      rw [upserts, ih h.2, upsert_ne h.1]

theorem assignments_of_not_mem {l : List (K × C)} (h : k ∉ l.map Prod.fst) :
    assignments k l = [] := by
  apply List.filterMap_eq_nil_iff.mpr
  intro e he
  have hne : e.1 ≠ k := fun hk => h (List.mem_map.mpr ⟨e, he, hk⟩)
  simp [hne]

/-- **An entry ends as its own assignments leave it.** -/
theorem upserts_of_mem {l : List (K × C)} (h : k ∈ l.map Prod.fst) :
    upserts fresh assign table l k =
      some ((assignments k l).foldl assign ((table k).getD fresh)) := by
  induction l generalizing table with
  | nil => cases h
  | cons e l ih =>
      obtain ⟨k', c⟩ := e
      rw [upserts]
      by_cases hk : k' = k
      · subst hk
        have hassign : assignments k' ((k', c) :: l) = c :: assignments k' l := by
          simp [assignments]
        rw [hassign, List.foldl_cons]
        by_cases hl : k' ∈ l.map Prod.fst
        · rw [ih hl, upsert_self, Option.getD_some]
        · rw [upserts_of_not_mem hl, upsert_self, assignments_of_not_mem hl, List.foldl_nil]
      · have hassign : assignments k ((k', c) :: l) = assignments k l := by
          simp [assignments, hk]
        have hl : k ∈ l.map Prod.fst := by
          rcases List.mem_cons.mp h with h | h
          · exact absurd h.symm hk
          · exact h
        rw [ih hl, hassign, upsert_ne (Ne.symm hk)]

/-- The entries that are made are those that were missing and are assigned to. -/
theorem mem_created {l : List (K × C)} :
    k ∈ created fresh assign table l ↔ table k = none ∧ k ∈ l.map Prod.fst := by
  induction l generalizing table with
  | nil => simp [created]
  | cons e l ih =>
      obtain ⟨k', c⟩ := e
      rw [created]
      by_cases hk : k = k'
      · subst hk
        cases htable : table k with
        | none => simp
        | some v => simp [ih]
      · have htail : k ∈ created fresh assign (upsert fresh assign table k' c) l ↔
            table k = none ∧ k ∈ l.map Prod.fst := by
          rw [ih, upsert_ne hk]
        split
        · simp only [List.mem_cons, hk, false_or, List.map_cons, htail]
        · simp only [List.mem_cons, hk, false_or, List.map_cons, htail]

/-- Every entry is made once. -/
theorem nodup_created {l : List (K × C)} : (created fresh assign table l).Nodup := by
  induction l generalizing table with
  | nil => exact List.nodup_nil
  | cons e l ih =>
      obtain ⟨k', c⟩ := e
      rw [created]
      split
      · refine List.nodup_cons.mpr ⟨fun hmem => ?_, ih⟩
        have hnone := (mem_created.mp hmem).1
        simp at hnone
      · exact ih

/-- **Upserts made twice change nothing more**, if assignments made twice do not. -/
theorem upserts_twice {l : List (K × C)}
    (h : ∀ k v, (assignments k l).foldl assign ((assignments k l).foldl assign v) =
      (assignments k l).foldl assign v) :
    upserts fresh assign (upserts fresh assign table l) l = upserts fresh assign table l := by
  funext k
  by_cases hk : k ∈ l.map Prod.fst
  · rw [upserts_of_mem hk, upserts_of_mem hk, Option.getD_some, h]
  · rw [upserts_of_not_mem hk]

/-- **The last value wins.** -/
theorem foldl_or {α : Type*} (l : List (Option α)) (v : Option α) :
    l.foldl (fun v x => x.or v) v = (l.filterMap id).getLast?.or v := by
  induction l generalizing v with
  | nil => simp
  | cons x l ih =>
      rw [List.foldl_cons, ih]
      cases x with
      | none => simp
      | some a =>
          have hcons : (some a :: l).filterMap id = a :: l.filterMap id := rfl
          rw [hcons, List.getLast?_cons]
          cases (l.filterMap id).getLast? <;> simp

end Upserts
