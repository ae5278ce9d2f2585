import Mathlib.Data.List.Basic

/-!
# Python dictionaries

A dictionary as its list of items in insertion order: assigning to an existing
key keeps its place, a new key goes to the end, and iteration follows the list.
Only what the models use: `get`, item assignment, `del`, `keys()`, `values()`,
`update()` and comprehensions, which assign one item after the other.
-/

/-- A Python `dict`. -/
structure Dict (κ ν : Type*) where
  items : List (κ × ν) := []
  deriving DecidableEq, Repr

namespace Dict

variable {κ ν : Type*} [DecidableEq κ]

/-- `d.get(k)`. -/
def get (d : Dict κ ν) (k : κ) : Option ν := d.items.lookup k

/-- `d[k] = v`. -/
def set (d : Dict κ ν) (k : κ) (v : ν) : Dict κ ν :=
  if (d.get k).isSome then ⟨d.items.map fun p => if p.1 = k then (k, v) else p⟩
  else ⟨d.items ++ [(k, v)]⟩

/-- `del d[k]`. -/
def erase (d : Dict κ ν) (k : κ) : Dict κ ν := ⟨d.items.filter fun p => p.1 ≠ k⟩

omit [DecidableEq κ] in
/-- `list(d.values())`. -/
def values (d : Dict κ ν) : List ν := d.items.map Prod.snd

omit [DecidableEq κ] in
/-- `list(d)`. -/
def keys (d : Dict κ ν) : List κ := d.items.map Prod.fst

/-- `for a in l: d[key(a)] = value(a)`. -/
def setAll {α : Type*} (d : Dict κ ν) (key : α → κ) (value : α → ν) (l : List α) : Dict κ ν :=
  l.foldl (fun d a => d.set (key a) (value a)) d

/-- `{key(a): value(a) for a in l}`. -/
def collect {α : Type*} (key : α → κ) (value : α → ν) (l : List α) : Dict κ ν :=
  setAll {} key value l

/-- `d.update(e)`. -/
def update (d e : Dict κ ν) : Dict κ ν := d.setAll Prod.fst Prod.snd e.items

omit [DecidableEq κ] in
/-- `{k: f(v) for k, v in d.items()}`. -/
def mapValues {μ : Type*} (f : ν → μ) (d : Dict κ ν) : Dict κ μ :=
  ⟨d.items.map fun x => (x.1, f x.2)⟩

theorem lookup_cons_ne {a k : κ} (h : a ≠ k) (b : ν) (l : List (κ × ν)) :
    ((a, b) :: l).lookup k = l.lookup k := by
  have hk : (k == a) = false := by simpa using h.symm
  rw [List.lookup_cons, hk]

@[simp] theorem get_set_self (d : Dict κ ν) (k : κ) (v : ν) : (d.set k v).get k = some v := by
  unfold set
  split
  · rename_i h
    obtain ⟨l⟩ := d
    simp only [get] at h ⊢
    induction l with
    | nil => simp at h
    | cons p l ih =>
        obtain ⟨a, b⟩ := p
        by_cases hk : a = k
        · subst hk; simp
        · rw [lookup_cons_ne hk] at h
          rw [List.map_cons, if_neg hk, lookup_cons_ne hk]
          exact ih h
  · rename_i h
    simp only [get] at h ⊢
    rw [List.lookup_append, Option.not_isSome_iff_eq_none.mp h]
    simp

@[simp] theorem get_set_ne (d : Dict κ ν) {k k' : κ} (hne : k' ≠ k) (v : ν) :
    (d.set k v).get k' = d.get k' := by
  unfold set
  split
  · rename_i h
    clear h
    obtain ⟨l⟩ := d
    simp only [get]
    induction l with
    | nil => rfl
    | cons p l ih =>
        obtain ⟨a, b⟩ := p
        rw [List.map_cons]
        by_cases hk : a = k
        · subst hk
          rw [if_pos rfl, lookup_cons_ne hne.symm, lookup_cons_ne hne.symm, ih]
        · rw [if_neg hk, List.lookup_cons, List.lookup_cons, ih]
  · simp only [get]
    rw [List.lookup_append, lookup_cons_ne hne.symm]
    simp

@[simp] theorem get_erase_self (d : Dict κ ν) (k : κ) : (d.erase k).get k = none := by
  obtain ⟨l⟩ := d
  simp only [get, erase]
  induction l with
  | nil => rfl
  | cons p l ih =>
      obtain ⟨a, b⟩ := p
      by_cases hk : a = k
      · simpa [hk] using ih
      · rw [List.filter_cons_of_pos (by simpa using hk), lookup_cons_ne hk]
        exact ih

@[simp] theorem get_erase_ne (d : Dict κ ν) {k k' : κ} (hne : k' ≠ k) :
    (d.erase k).get k' = d.get k' := by
  obtain ⟨l⟩ := d
  simp only [get, erase]
  induction l with
  | nil => rfl
  | cons p l ih =>
      obtain ⟨a, b⟩ := p
      by_cases hk : a = k
      · subst hk
        rw [List.filter_cons_of_neg (by simp), lookup_cons_ne hne.symm]
        exact ih
      · rw [List.filter_cons_of_pos (by simpa using hk), List.lookup_cons, List.lookup_cons, ih]

/-- A value that is found is iterated over. -/
theorem mem_values_of_get {d : Dict κ ν} {k : κ} {v : ν} (h : d.get k = some v) :
    v ∈ d.values := by
  obtain ⟨l₁, l₂, heq, -⟩ := List.lookup_eq_some_iff.mp h
  simp [values, heq]

/-- A new key is iterated over last. -/
theorem values_set_of_get_none {d : Dict κ ν} {k : κ} (h : d.get k = none) (v : ν) :
    (d.set k v).values = d.values ++ [v] := by
  simp [set, h, values]

theorem mem_keys_iff {d : Dict κ ν} {k : κ} : k ∈ d.keys ↔ d.get k ≠ none := by
  obtain ⟨l⟩ := d
  simp only [keys, get]
  induction l with
  | nil => simp
  | cons p l ih =>
      obtain ⟨a, b⟩ := p
      by_cases hk : a = k
      · subst hk
        simp
      · rw [lookup_cons_ne hk, ← ih, List.map_cons, List.mem_cons]
        exact or_iff_right (Ne.symm hk)

/-- An item is found when the keys are different, as in a real dictionary. -/
theorem get_of_mem_items {d : Dict κ ν} {k : κ} {v : ν} (hd : d.keys.Nodup)
    (h : (k, v) ∈ d.items) : d.get k = some v := by
  obtain ⟨l⟩ := d
  simp only [keys, get] at hd h ⊢
  induction l with
  | nil => cases h
  | cons p l ih =>
      obtain ⟨a, b⟩ := p
      obtain ⟨hnew, hd⟩ := List.nodup_cons.mp hd
      rcases List.mem_cons.mp h with heq | h
      · cases heq
        simp
      · have hk : a ≠ k := by
          rintro rfl
          exact hnew (List.mem_map.mpr ⟨_, h, rfl⟩)
        rw [lookup_cons_ne hk]
        exact ih hd h

theorem mem_keys_set {d : Dict κ ν} {k k' : κ} {v : ν} :
    k' ∈ (d.set k v).keys ↔ k' ∈ d.keys ∨ k' = k := by
  rw [mem_keys_iff, mem_keys_iff]
  by_cases hk : k' = k
  · subst hk
    simp
  · simp [hk]

omit [DecidableEq κ] in
theorem value_mem_items {d : Dict κ ν} {x : κ × ν} (h : x ∈ d.items) : x.2 ∈ d.values :=
  List.mem_map_of_mem h

/-- The values after an assignment. -/
theorem mem_values_set {d : Dict κ ν} {k : κ} {v w : ν} (h : w ∈ (d.set k v).values) :
    w = v ∨ w ∈ d.values := by
  obtain ⟨x, hx, rfl⟩ := List.mem_map.mp h
  unfold set at hx
  split at hx
  · obtain ⟨y, hy, rfl⟩ := List.mem_map.mp hx
    split
    · exact .inl rfl
    · exact .inr (value_mem_items hy)
  · rcases List.mem_append.mp hx with hold | hnew
    · exact .inr (value_mem_items hold)
    · obtain rfl : x = (k, v) := by simpa using hnew
      exact .inl rfl

/-- The values after a deletion. -/
theorem mem_values_erase {d : Dict κ ν} {k : κ} {w : ν} (h : w ∈ (d.erase k).values) :
    w ∈ d.values := by
  obtain ⟨x, hx, rfl⟩ := List.mem_map.mp h
  exact value_mem_items (List.mem_filter.mp hx).1

theorem nodup_keys_set {d : Dict κ ν} (h : d.keys.Nodup) (k : κ) (v : ν) :
    (d.set k v).keys.Nodup := by
  unfold set
  split
  · have hsame : (d.items.map fun p => if p.1 = k then (k, v) else p).map Prod.fst = d.keys := by
      rw [List.map_map, keys]
      refine List.map_congr_left fun x _ => ?_
      rw [Function.comp_apply]
      split
      · rename_i heq
        exact heq.symm
      · rfl
    rw [keys, hsame]
    exact h
  · rename_i hnone
    have hnew : k ∉ d.keys := by simpa [mem_keys_iff] using hnone
    simp only [keys, List.map_append, List.map_cons, List.map_nil]
    exact List.nodup_append.mpr ⟨h, by simp, fun a ha b hb => by
      obtain rfl : b = k := by simpa using hb
      rintro rfl
      exact hnew ha⟩

theorem replace_of_not_mem {l : List (κ × ν)} {k : κ} (h : k ∉ l.map Prod.fst)
    (v : ν) : (l.map fun p => if p.1 = k then (k, v) else p) = l := by
  have hsame : ∀ p ∈ l, (if p.1 = k then (k, v) else p) = p := by
    intro p hp
    apply if_neg
    rintro rfl
    exact h (List.mem_map_of_mem hp)
  exact (List.map_congr_left hsame).trans (List.map_id' l)

section MapValues

variable {μ : Type*} (f : ν → μ) (d : Dict κ ν)

theorem get_mapValues (k : κ) : (d.mapValues f).get k = (d.get k).map f := by
  obtain ⟨l⟩ := d
  simp only [get, mapValues]
  induction l with
  | nil => rfl
  | cons p l ih =>
      obtain ⟨a, b⟩ := p
      rw [List.map_cons, List.lookup_cons, List.lookup_cons]
      cases k == a with
      | true => rfl
      | false => exact ih

omit [DecidableEq κ] in
theorem keys_mapValues : (d.mapValues f).keys = d.keys := by
  simp [keys, mapValues, Function.comp_def]

omit [DecidableEq κ] in
theorem values_mapValues : (d.mapValues f).values = d.values.map f := by
  simp [values, mapValues, Function.comp_def]

end MapValues

section Assignments

variable {α : Type*} {key : α → κ} {value : α → ν}

@[simp] theorem setAll_nil (d : Dict κ ν) : d.setAll key value [] = d := rfl

theorem setAll_cons (d : Dict κ ν) (a : α) (l : List α) :
    d.setAll key value (a :: l) = (d.set (key a) (value a)).setAll key value l := rfl

/-- The keys after a series of assignments. -/
theorem mem_keys_setAll {d : Dict κ ν} {l : List α} {k : κ} :
    k ∈ (d.setAll key value l).keys ↔ k ∈ d.keys ∨ k ∈ l.map key := by
  induction l generalizing d with
  | nil => simp
  | cons a l ih =>
      rw [setAll_cons, ih, mem_keys_set, List.map_cons, List.mem_cons, or_assoc]

theorem nodup_keys_setAll {d : Dict κ ν} (h : d.keys.Nodup) (l : List α) :
    (d.setAll key value l).keys.Nodup := by
  induction l generalizing d with
  | nil => exact h
  | cons a l ih => exact ih (nodup_keys_set h _ _)

theorem get_setAll_of_not_mem {d : Dict κ ν} {l : List α} {k : κ} (h : k ∉ l.map key) :
    (d.setAll key value l).get k = d.get k := by
  induction l generalizing d with
  | nil => rfl
  | cons a l ih =>
      rw [List.map_cons, List.mem_cons, not_or] at h
      rw [setAll_cons, ih h.2, get_set_ne _ h.1]

/-- What is found under a key that all assignments to it give the same value. -/
theorem get_setAll {d : Dict κ ν} {l : List α} {k : κ} {v : ν} (hk : k ∈ l.map key)
    (h : ∀ a ∈ l, key a = k → value a = v) : (d.setAll key value l).get k = some v := by
  induction l generalizing d with
  | nil => cases hk
  | cons a l ih =>
      obtain ⟨hfirst, hrest⟩ := List.forall_mem_cons.mp h
      rw [setAll_cons]
      by_cases hl : k ∈ l.map key
      · exact ih hl hrest
      · obtain rfl : k = key a := by simpa [hl] using hk
        rw [get_setAll_of_not_mem hl, get_set_self, hfirst rfl]

/-- Assignments to new, different keys append items. -/
theorem items_setAll_of_nodup {d : Dict κ ν} {l : List α}
    (h : (d.keys ++ l.map key).Nodup) :
    (d.setAll key value l).items = d.items ++ l.map fun a => (key a, value a) := by
  induction l generalizing d with
  | nil => simp
  | cons a l ih =>
      have hnew : d.get (key a) = none := by
        by_contra hne
        have hmem : key a ∈ d.keys := mem_keys_iff.mpr hne
        exact (List.nodup_append.mp h).2.2 _ hmem _ (by simp) rfl
      have hset : d.set (key a) (value a) = ⟨d.items ++ [(key a, value a)]⟩ := by
        simp [set, hnew]
      rw [setAll_cons, hset, ih]
      · simp
      · simpa [keys] using h

theorem mem_keys_collect {l : List α} {k : κ} :
    k ∈ (collect key value l).keys ↔ k ∈ l.map key := by
  rw [collect, mem_keys_setAll]
  simp [keys]

theorem items_collect_of_nodup {l : List α} (h : (l.map key).Nodup) :
    (collect key value l).items = l.map fun a => (key a, value a) := by
  rw [collect, items_setAll_of_nodup]
  · simp
  · simpa [keys] using h

end Assignments

/-- What is found after `d.update(e)`. -/
theorem get_update {d e : Dict κ ν} (he : e.keys.Nodup) (k : κ) :
    (d.update e).get k = (e.get k).or (d.get k) := by
  obtain ⟨l⟩ := e
  simp only [update, keys] at he ⊢
  induction l generalizing d with
  | nil => rfl
  | cons p l ih =>
      obtain ⟨a, b⟩ := p
      obtain ⟨hnew, hl⟩ := List.nodup_cons.mp he
      rw [setAll_cons, ih hl]
      by_cases hk : k = a
      · subst hk
        have hnone : (⟨l⟩ : Dict κ ν).get k = none := by
          by_contra hne
          exact hnew (mem_keys_iff.mpr hne)
        rw [hnone, get_set_self]
        simp [get]
      · rw [get_set_ne _ hk]
        simp only [get]
        rw [lookup_cons_ne (Ne.symm hk)]

end Dict
