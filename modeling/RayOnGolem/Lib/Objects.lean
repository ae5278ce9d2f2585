import Mathlib.Data.List.Basic

/-!
# Objects in the order of their creation

Objects that tasks refer to whatever the dictionaries hold are kept in a list
and named by their position.  An object changes by `List.set` and a new one is
appended; the lemmas here say where an object found after such a change comes
from.
-/

namespace Objects

variable {α : Type*}

/-- An object found after one was replaced is the new one, or an old one at
another position. -/
theorem set_cases {l : List α} {i k : Nat} {x y : α} (h : (l.set i x)[k]? = some y) :
    (k = i ∧ y = x ∧ i < l.length) ∨ (k ≠ i ∧ l[k]? = some y) := by
  rw [List.getElem?_set] at h
  by_cases hk : i = k
  · subst hk
    by_cases hlt : i < l.length
    · exact .inl ⟨rfl, by simpa [hlt] using h.symm, hlt⟩
    · simp [hlt] at h
  · exact .inr ⟨Ne.symm hk, by simpa [hk] using h⟩

/-- Where one object is replaced, no object gets a property that the replaced one
did not have. -/
theorem less_of_set {p : α → Prop} {l : List α} {i : Nat} {x y : α} (hx : l[i]? = some x)
    (hp : p y → p x) :
    ∀ (k : Nat) (w : α), (l.set i y)[k]? = some w → p w → ∃ u, l[k]? = some u ∧ p u := by
  intro k w hw hpw
  rcases set_cases hw with ⟨rfl, rfl, -⟩ | ⟨-, hold⟩
  · exact ⟨x, hx, hp hpw⟩
  · exact ⟨w, hold, hpw⟩

/-- The object at the replaced position. -/
theorem set_self {l : List α} {i : Nat} {x y : α} (h : l[i]? = some y) :
    (l.set i x)[i]? = some x := by
  obtain ⟨hlt, -⟩ := List.getElem?_eq_some_iff.mp h
  simp [hlt]

/-- The other objects stay as they are when one is replaced. -/
theorem set_old {l : List α} {i k : Nat} {x y : α} (hki : k ≠ i) (h : l[k]? = some y) :
    (l.set i x)[k]? = some y := by
  rw [List.getElem?_set_ne (Ne.symm hki), h]

/-- Where one object is replaced, each object stays as far as the replaced one does. -/
theorem kept_of_set {p : α → α → Prop} {l : List α} {i k : Nat} {x y z : α}
    (hrefl : ∀ z, p z z) (hx : l[i]? = some x) (hp : p x y) (hz : l[k]? = some z) :
    ∃ z', (l.set i y)[k]? = some z' ∧ p z z' := by
  by_cases hki : k = i
  · subst hki
    obtain rfl : x = z := Option.some.inj (hx.symm.trans hz)
    exact ⟨y, set_self hx, hp⟩
  · exact ⟨z, set_old hki hz, hrefl z⟩

/-- An object found after one was appended is an old one or the new one. -/
theorem append_cases {l : List α} {k : Nat} {x y : α} (h : (l ++ [x])[k]? = some y) :
    l[k]? = some y ∨ (k = l.length ∧ y = x) := by
  rcases Nat.lt_trichotomy k l.length with hk | rfl | hk
  · rw [List.getElem?_append_left hk] at h
    exact .inl h
  · exact .inr ⟨rfl, by simpa using h.symm⟩
  · rw [List.getElem?_append_right (by omega)] at h
    simp [show k - l.length ≠ 0 by omega] at h

/-- Old objects stay where they are when one is appended. -/
theorem append_old {l : List α} {k : Nat} {x y : α} (h : l[k]? = some y) :
    (l ++ [x])[k]? = some y := by
  obtain ⟨hlt, -⟩ := List.getElem?_eq_some_iff.mp h
  rw [List.getElem?_append_left hlt, h]

end Objects
