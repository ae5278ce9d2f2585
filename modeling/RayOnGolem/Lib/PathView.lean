import Mathlib.Data.List.Basic

/-!
# Nested dictionaries and lists, path by path

A nested value of dictionaries, lists and atoms is seen as a function of paths: at each path
there is nothing, an atom, or a container with its identity.  So a value may share a
container between two places, or contain itself, and two values are equal when they agree
at each path.

* `merge`, `layered` -- the deep merge: dictionaries key by key, lists one after the other, and
  else the higher value;
* `Has`, `Unshared` -- which containers occur in a value, and whether each occurs once;
* `setAt` -- another value at one path.
-/

namespace PathView

/-- One step from a container into it. -/
inductive Seg (κ : Type*)
  | key (k : κ)
  | idx (i : Nat)
  deriving DecidableEq, Repr

/-- What stands at a path; a list comes with its length. -/
inductive Node (α ρ : Type*)
  | atom (a : α)
  | dict (r : ρ)
  | list (r : ρ) (n : Nat)
  deriving DecidableEq, Repr

/-- A nested value. -/
abbrev View (κ α ρ : Type*) := List (Seg κ) → Option (Node α ρ)

variable {κ α ρ σ : Type*}

/-- The identity of a container. -/
def Node.ident : Node α ρ → Option ρ
  | .atom _ => none
  | .dict r | .list r _ => some r

/-- The same with other identities. -/
def Node.map (f : ρ → σ) : Node α ρ → Node α σ
  | .atom a => .atom a
  | .dict r => .dict (f r)
  | .list r n => .list (f r) n

namespace View

/-- What is one step below. -/
def sub (v : View κ α ρ) (s : Seg κ) : View κ α ρ := fun p => v (s :: p)

/-- What is below a path. -/
def under (v : View κ α ρ) (p : List (Seg κ)) : View κ α ρ := fun q => v (p ++ q)

/-- Nothing at all. -/
def nothing : View κ α ρ := fun _ => none

/-- The same with other identities. -/
def map (f : ρ → σ) (v : View κ α ρ) : View κ α σ := fun p => (v p).map (Node.map f)

/-- The value without identities. -/
def erase (v : View κ α ρ) : View κ α Unit := v.map fun _ => ()

/-- The deep merge of `b` over `a`. -/
def merge (a b : View κ α ρ) : View κ α ρ
  | [] =>
      match a [], b [] with
      | none, y => y
      | x, none => x
      | some (.dict r), some (.dict _) => some (.dict r)
      | some (.list r n), some (.list _ m) => some (.list r (n + m))
      | _, y => y
  | s :: p =>
      match a [], b [] with
      | none, _ => b (s :: p)
      | some _, none => a (s :: p)
      | some (.dict _), some (.dict _) => merge (a.sub s) (b.sub s) p
      | some (.list _ n), some (.list _ _) =>
          match s with
          | .idx i => if i < n then a (.idx i :: p) else b (.idx (i - n) :: p)
          | .key _ => none
      | some _, some _ => b (s :: p)

/-- Values one over the other, the lowest first. -/
def layered (vs : List (View κ α ρ)) : View κ α ρ := vs.foldl merge nothing

/-- The container at a path. -/
def ident (v : View κ α ρ) (p : List (Seg κ)) : Option ρ := (v p).bind Node.ident

/-- The container occurs in the value. -/
def Has (v : View κ α ρ) (r : ρ) : Prop := ∃ p, v.ident p = some r

/-- The container occurs at no other path. -/
def Sole (v : View κ α ρ) (p : List (Seg κ)) (r : ρ) : Prop :=
  ∀ q, v.ident q = some r → q = p

/-- Each container occurs once. -/
def Unshared (v : View κ α ρ) : Prop := ∀ p r, v.ident p = some r → v.Sole p r

/-- No container occurs in both values. -/
def Apart (a b : View κ α ρ) : Prop := ∀ r, a.Has r → ¬ b.Has r

/-- Another value at one path. -/
def setAt [DecidableEq κ] (v w : View κ α ρ) : List (Seg κ) → View κ α ρ
  | [], q => w q
  | _ :: _, [] => v []
  | s :: p, t :: q => if t = s then setAt (v.sub s) w p q else v (t :: q)

variable {a b c v w : View κ α ρ} {r : ρ}

@[simp] theorem sub_apply (s : Seg κ) (p : List (Seg κ)) : v.sub s p = v (s :: p) := rfl

@[simp] theorem under_apply (p q : List (Seg κ)) : v.under p q = v (p ++ q) := rfl

@[simp] theorem map_apply (f : ρ → σ) (p : List (Seg κ)) :
    v.map f p = (v p).map (Node.map f) := rfl

theorem map_sub (f : ρ → σ) (s : Seg κ) : (v.map f).sub s = (v.sub s).map f := rfl

theorem ident_sub (s : Seg κ) (p : List (Seg κ)) : (v.sub s).ident p = v.ident (s :: p) := rfl

theorem ident_under (p q : List (Seg κ)) : (v.under p).ident q = v.ident (p ++ q) := rfl

theorem Has.of_sub {s : Seg κ} (h : (v.sub s).Has r) : v.Has r := by
  obtain ⟨p, hp⟩ := h
  exact ⟨s :: p, hp⟩

theorem Has.of_under {p : List (Seg κ)} (h : (v.under p).Has r) : v.Has r := by
  obtain ⟨q, hq⟩ := h
  exact ⟨p ++ q, hq⟩

theorem Unshared.sub (h : v.Unshared) (s : Seg κ) : (v.sub s).Unshared := by
  intro p r hp q hq
  have heq := h (s :: p) r hp (s :: q) hq
  simpa using heq

theorem Node.map_map {τ : Type*} (f : ρ → σ) (g : σ → τ) (n : Node α ρ) :
    (n.map f).map g = n.map (g ∘ f) := by
  cases n <;> rfl

/-- Other identities are erased as well. -/
@[simp] theorem erase_map (f : ρ → σ) (v : View κ α ρ) : (v.map f).erase = v.erase := by
  funext p
  simp only [erase, map_apply, Option.map_map]
  congr 1
  funext n
  exact Node.map_map _ _ n

theorem ident_map (f : ρ → σ) (v : View κ α ρ) (p : List (Seg κ)) :
    (v.map f).ident p = (v.ident p).map f := by
  simp only [ident, map_apply]
  rcases v p with _ | _ | _ | _ <;> rfl

theorem Has.of_map {f : ρ → σ} {x : σ} (h : (v.map f).Has x) : ∃ r, v.Has r ∧ f r = x := by
  obtain ⟨p, hp⟩ := h
  rw [ident_map] at hp
  obtain ⟨r, hr, hfr⟩ := Option.map_eq_some_iff.mp hp
  exact ⟨r, ⟨p, hr⟩, hfr⟩

theorem Unshared.map {f : ρ → σ} (h : v.Unshared) (hf : Function.Injective f) :
    (v.map f).Unshared := by
  intro p x hp q hq
  rw [ident_map] at hp hq
  obtain ⟨r, hr, rfl⟩ := Option.map_eq_some_iff.mp hp
  obtain ⟨r', hr', heq⟩ := Option.map_eq_some_iff.mp hq
  exact h p r hr q (hf heq ▸ hr')

/-! ### Deep merges -/

/-- Merging nothing. -/
theorem merge_nothing_left : merge nothing b = b := by
  funext p
  cases p with
  | nil => rfl
  | cons s p => rfl

theorem layered_concat (vs : List (View κ α ρ)) (w : View κ α ρ) :
    layered (vs ++ [w]) = (layered vs).merge w := by
  rw [layered, List.foldl_concat, layered]

-- the equations of `merge` are derived here once, and not by each proof below
attribute [local simp] merge in
theorem merge_of_root_none (h : a [] = none) : merge a b = b := by
  funext p
  cases p with
  | nil => simp [h]
  | cons s p => simp [h]

theorem merge_of_some_none (ha : a [] ≠ none) (hb : b [] = none) : merge a b = a := by
  obtain ⟨x, hx⟩ := Option.ne_none_iff_exists'.mp ha
  funext p
  cases p with
  | nil => simp [merge, hx, hb]
  | cons s p => simp [merge, hx, hb]

theorem merge_ne_none {x : Node α ρ} (ha : a [] = some x) : merge a b [] ≠ none := by
  rcases hb : b [] with _ | y
  · simp [merge, ha, hb]
  · cases x <;> cases y <;> simp [merge, ha, hb]

/-- A value of another kind replaces. -/
theorem merge_of_kinds {x y : Node α ρ} (ha : a [] = some x) (hb : b [] = some y)
    (hdict : ∀ r r', x = .dict r → y ≠ .dict r')
    (hlist : ∀ r n r' m, x = .list r n → y ≠ .list r' m) : merge a b = b := by
  funext p
  rcases x with _ | r | ⟨r, n⟩ <;> rcases y with _ | r' | ⟨r', m⟩ <;>
    first
      | exact absurd rfl (hdict r r' rfl)
      | exact absurd rfl (hlist r n r' m rfl)
      | cases p <;> simp [merge, ha, hb]

theorem merge_nil_dict {r r' : ρ} (ha : a [] = some (.dict r)) (hb : b [] = some (.dict r')) :
    merge a b [] = some (.dict r) := by
  simp [merge, ha, hb]

/-- Dictionaries are merged key by key. -/
theorem sub_merge_dict {r r' : ρ} (ha : a [] = some (.dict r)) (hb : b [] = some (.dict r'))
    (s : Seg κ) : (merge a b).sub s = merge (a.sub s) (b.sub s) := by
  funext p
  simp [merge, ha, hb]

theorem merge_nil_list {r r' : ρ} {n m : Nat} (ha : a [] = some (.list r n))
    (hb : b [] = some (.list r' m)) : merge a b [] = some (.list r (n + m)) := by
  simp [merge, ha, hb]

/-- Lists are appended. -/
theorem sub_merge_list {r r' : ρ} {n m : Nat} (ha : a [] = some (.list r n))
    (hb : b [] = some (.list r' m)) (i : Nat) :
    (merge a b).sub (.idx i) = if i < n then a.sub (.idx i) else b.sub (.idx (i - n)) := by
  funext p
  simp only [sub_apply, merge, ha, hb]
  split <;> rfl

theorem sub_key_merge_list {r r' : ρ} {n m : Nat} (ha : a [] = some (.list r n))
    (hb : b [] = some (.list r' m)) (k : κ) : (merge a b).sub (.key k) = nothing := by
  funext p
  simp [merge, ha, hb, nothing]

/-- The four ways in which two values merge. -/
theorem merge_cases (a b : View κ α ρ) :
    merge a b = a ∨ merge a b = b ∨
      (∃ r r', a [] = some (.dict r) ∧ b [] = some (.dict r')) ∨
      (∃ r n r' m, a [] = some (.list r n) ∧ b [] = some (.list r' m)) := by
  rcases ha : a [] with _ | x
  · exact .inr (.inl (merge_of_root_none ha))
  rcases hb : b [] with _ | y
  · exact .inl (merge_of_some_none (by simp [ha]) hb)
  by_cases hdict : ∃ r r', x = .dict r ∧ y = .dict r'
  · obtain ⟨r, r', rfl, rfl⟩ := hdict
    exact .inr (.inr (.inl ⟨r, r', rfl, rfl⟩))
  by_cases hlist : ∃ r n r' m, x = .list r n ∧ y = .list r' m
  · obtain ⟨r, n, r', m, rfl, rfl⟩ := hlist
    exact .inr (.inr (.inr ⟨r, n, r', m, rfl, rfl⟩))
  · refine .inr (.inl (merge_of_kinds ha hb ?_ ?_))
    · exact fun r r' hx hy => hdict ⟨r, r', hx, hy⟩
    · exact fun r n r' m hx hy => hlist ⟨r, n, r', m, hx, hy⟩

/-- Other identities do not change how values merge. -/
theorem map_merge (f : ρ → σ) (a b : View κ α ρ) :
    (merge a b).map f = merge (a.map f) (b.map f) := by
  funext p
  induction p generalizing a b with
  | nil =>
      simp only [merge, map_apply]
      rcases a [] with _ | _ | _ | _ <;> rcases b [] with _ | _ | _ | _ <;> rfl
  | cons s p ih =>
      have hsub := ih (a.sub s) (b.sub s)
      simp only [merge, map_apply] at hsub ⊢
      rcases a [] with _ | _ | _ | _ <;> rcases b [] with _ | _ | _ | _ <;> try rfl
      · exact hsub
      · cases s with
        | key k => rfl
        | idx i =>
            simp only [Option.map_some, Node.map]
            split <;> rfl

/-- Where a container of a merged value comes from. -/
theorem ident_merge {p : List (Seg κ)} (h : (merge a b).ident p = some r) :
    a.ident p = some r ∨ b.Has r := by
  induction p generalizing a b with
  | nil =>
      rcases merge_cases a b with heq | heq | ⟨x, y, ha, hb⟩ | ⟨x, n, y, m, ha, hb⟩
      · exact .inl (heq ▸ h)
      · exact .inr ⟨[], heq ▸ h⟩
      · rw [ident, merge_nil_dict ha hb] at h
        exact .inl (by rw [ident, ha, h])
      · rw [ident, merge_nil_list ha hb] at h
        exact .inl (by rw [ident, ha]; exact h)
  | cons s p ih =>
      rcases merge_cases a b with heq | heq | ⟨x, y, ha, hb⟩ | ⟨x, n, y, m, ha, hb⟩
      · exact .inl (heq ▸ h)
      · exact .inr ⟨s :: p, heq ▸ h⟩
      · rw [← ident_sub, sub_merge_dict ha hb] at h
        exact (ih h).imp_right Has.of_sub
      · rw [← ident_sub] at h
        cases s with
        | key k =>
            rw [sub_key_merge_list ha hb] at h
            cases h
        | idx i =>
            rw [sub_merge_list ha hb] at h
            split at h
            · exact .inl h
            · exact .inr ⟨_, h⟩

theorem Has.of_merge (h : (merge a b).Has r) : a.Has r ∨ b.Has r := by
  obtain ⟨p, hp⟩ := h
  exact (ident_merge hp).imp_left fun ha => ⟨p, ha⟩

theorem Apart.sub (h : Apart a b) (s t : Seg κ) : Apart (a.sub s) (b.sub t) :=
  fun r ha hb => h r ha.of_sub hb.of_sub

/-- The dictionary or list that is merged into stands at the root only. -/
theorem sole_merge_nil (ha : a.Unshared) (hab : Apart a b) (hr : a.ident [] = some r) :
    (merge a b).Sole [] r := by
  intro q hq
  rcases ident_merge hq with hqa | hqb
  · exact ha [] r hr q hqa
  · exact absurd hqb (hab r ⟨_, hr⟩)

/-- One step leads to all places of a container below two merged dictionaries. -/
theorem seg_eq_of_merge (ha : a.Unshared) (hb : b.Unshared) (hab : Apart a b) {s t : Seg κ}
    {p q : List (Seg κ)} (hp : (merge (a.sub s) (b.sub s)).ident p = some r)
    (hq : (merge (a.sub t) (b.sub t)).ident q = some r) : s = t := by
  rcases ident_merge hp with hpa | ⟨p', hpb⟩ <;> rcases ident_merge hq with hqa | ⟨q', hqb⟩
  · exact (List.cons.inj (ha _ r hqa _ hpa)).1
  · exact absurd ⟨_, hqb⟩ (hab r ⟨_, hpa⟩)
  · exact absurd ⟨_, hpb⟩ (hab r ⟨_, hqa⟩)
  · exact (List.cons.inj (hb _ r hqb _ hpb)).1

/-- The places of a container below an appended list. -/
theorem path_eq_of_append (ha : a.Unshared) (hb : b.Unshared) (hab : Apart a b) {n i j : Nat}
    {p q : List (Seg κ)}
    (hp : (if i < n then a.sub (.idx i) else b.sub (.idx (i - n))).ident p = some r)
    (hq : (if j < n then a.sub (.idx j) else b.sub (.idx (j - n))).ident q = some r) :
    i = j ∧ p = q := by
  split at hp <;> split at hq
  · have heq := ha _ r hq _ hp
    simpa using heq
  · exact absurd ⟨_, hq⟩ (hab r ⟨_, hp⟩)
  · exact absurd ⟨_, hp⟩ (hab r ⟨_, hq⟩)
  · have heq := hb _ r hq _ hp
    simp only [List.cons.injEq, Seg.idx.injEq] at heq
    exact ⟨by omega, heq.2⟩

/-- Values that share nothing, each within itself and with the other, merge to such a value. -/
theorem unshared_merge (ha : a.Unshared) (hb : b.Unshared) (hab : Apart a b) :
    (merge a b).Unshared := by
  intro p
  induction p generalizing a b with
  | nil =>
      intro r hp q hq
      rcases merge_cases a b with heq | heq | ⟨x, y, hx, hy⟩ | ⟨x, n, y, m, hx, hy⟩
      · exact (heq ▸ ha) [] r hp q hq
      · exact (heq ▸ hb) [] r hp q hq
      · rw [ident, merge_nil_dict hx hy] at hp
        exact sole_merge_nil ha hab (by rw [ident, hx, hp]) q hq
      · rw [ident, merge_nil_list hx hy] at hp
        exact sole_merge_nil ha hab (by rw [ident, hx]; exact hp) q hq
  | cons s p ih =>
      intro r hp q hq
      rcases merge_cases a b with heq | heq | ⟨x, y, hx, hy⟩ | ⟨x, n, y, m, hx, hy⟩
      · exact (heq ▸ ha) _ r hp q hq
      · exact (heq ▸ hb) _ r hp q hq
      · cases q with
        | nil =>
            rw [ident, merge_nil_dict hx hy] at hq
            exact absurd (sole_merge_nil ha hab (by rw [ident, hx, hq]) _ hp) (by simp)
        | cons t q =>
            rw [← ident_sub, sub_merge_dict hx hy] at hp hq
            obtain rfl := seg_eq_of_merge ha hb hab hp hq
            rw [ih (ha.sub s) (hb.sub s) (hab.sub s s) r hp q hq]
      · cases q with
        | nil =>
            rw [ident, merge_nil_list hx hy] at hq
            exact absurd (sole_merge_nil ha hab (by rw [ident, hx]; exact hq) _ hp) (by simp)
        | cons t q =>
            rw [← ident_sub] at hp hq
            rcases s with k | i
            · rw [sub_key_merge_list hx hy] at hp
              cases hp
            rcases t with k | j
            · rw [sub_key_merge_list hx hy] at hq
              cases hq
            rw [sub_merge_list hx hy] at hp hq
            obtain ⟨rfl, rfl⟩ := path_eq_of_append ha hb hab hp hq
            rfl

/-- A key of a merged value is one of the two. -/
theorem merge_key {p : List (Seg κ)} {k : κ} (h : merge a b (p ++ [.key k]) ≠ none) :
    a (p ++ [.key k]) ≠ none ∨ ∃ q, b (q ++ [.key k]) ≠ none := by
  induction p generalizing a b with
  | nil =>
      rcases merge_cases a b with heq | heq | ⟨x, y, ha, hb⟩ | ⟨x, n, y, m, ha, hb⟩
      · exact .inl (heq ▸ h)
      · exact .inr ⟨[], heq ▸ h⟩
      · replace h : (merge a b).sub (.key k) [] ≠ none := h
        rw [sub_merge_dict ha hb] at h
        by_cases hroot : a.sub (.key k) [] = none
        · rw [merge_of_root_none hroot] at h
          exact .inr ⟨[], h⟩
        · exact .inl hroot
      · replace h : (merge a b).sub (.key k) [] ≠ none := h
        rw [sub_key_merge_list ha hb] at h
        exact absurd rfl h
  | cons s p ih =>
      rcases merge_cases a b with heq | heq | ⟨x, y, ha, hb⟩ | ⟨x, n, y, m, ha, hb⟩
      · exact .inl (heq ▸ h)
      · exact .inr ⟨s :: p, heq ▸ h⟩
      · replace h : (merge a b).sub s (p ++ [.key k]) ≠ none := h
        rw [sub_merge_dict ha hb] at h
        rcases ih h with hin | ⟨q, hq⟩
        · exact .inl hin
        · exact .inr ⟨s :: q, hq⟩
      · replace h : (merge a b).sub s (p ++ [.key k]) ≠ none := h
        cases s with
        | key k' =>
            rw [sub_key_merge_list ha hb] at h
            exact absurd rfl h
        | idx i =>
            rw [sub_merge_list ha hb] at h
            split at h
            · exact .inl h
            · exact .inr ⟨.idx (i - n) :: p, h⟩

theorem ext_sub (hroot : v [] = w []) (hsub : ∀ s, v.sub s = w.sub s) : v = w := by
  funext p
  cases p with
  | nil => exact hroot
  | cons s p => exact congrFun (hsub s) p

/-- Merging is associative when the two lower dictionaries have no key in common. -/
theorem merge_assoc {x y : ρ} (ha : a [] = some (.dict x)) (hb : b [] = some (.dict y))
    (hc : c [] = none ∨ ∃ z, c [] = some (.dict z))
    (hkeys : ∀ s, a.sub s = nothing ∨ b.sub s = nothing) :
    merge (merge a b) c = merge a (merge b c) := by
  have hab := merge_nil_dict ha hb
  rcases hc with hc | ⟨z, hc⟩
  · rw [merge_of_some_none (by simp [hab]) hc, merge_of_some_none (by simp [hb]) hc]
  have hbc := merge_nil_dict hb hc
  refine ext_sub ?_ fun s => ?_
  · rw [merge_nil_dict hab hc, merge_nil_dict ha hbc]
  · rw [sub_merge_dict hab hc, sub_merge_dict ha hb, sub_merge_dict ha hbc, sub_merge_dict hb hc]
    rcases hkeys s with hs | hs
    · rw [hs, merge_nothing_left, merge_nothing_left]
    · rw [hs, merge_nothing_left]
      rcases hroot : a.sub s [] with _ | n
      · rw [merge_of_root_none hroot, merge_nothing_left, merge_of_root_none hroot]
      · have hsame : merge (a.sub s) nothing = a.sub s :=
          merge_of_some_none (by rw [hroot]; simp) rfl
        rw [hsame]

/-- Merging into an empty dictionary. -/
theorem merge_empty {b : View κ α Unit} {a : View κ α Unit} (ha : a [] = some (.dict ()))
    (hempty : ∀ s, a.sub s = nothing) (hb : b [] = some (.dict ())) : merge a b = b := by
  refine ext_sub ?_ fun s => ?_
  · rw [merge_nil_dict ha hb, hb]
  · rw [sub_merge_dict ha hb, hempty, merge_nothing_left]

/-! ### Merging again -/

/-- There is no list in the value. -/
def NoLists (v : View κ α ρ) : Prop := ∀ p r n, v p ≠ some (.list r n)

theorem NoLists.sub (h : v.NoLists) (s : Seg κ) : (v.sub s).NoLists := fun p => h (s :: p)

theorem NoLists.merge (ha : a.NoLists) (hb : b.NoLists) : (merge a b).NoLists := by
  intro p
  induction p generalizing a b with
  | nil =>
      rcases merge_cases a b with heq | heq | ⟨x, y, hx, hy⟩ | ⟨x, n, y, m, hx, hy⟩
      · rw [heq]
        exact ha []
      · rw [heq]
        exact hb []
      · rw [merge_nil_dict hx hy]
        exact nofun
      · exact absurd hx (ha [] x n)
  | cons s p ih =>
      rcases merge_cases a b with heq | heq | ⟨x, y, hx, hy⟩ | ⟨x, n, y, m, hx, hy⟩
      · rw [heq]
        exact ha (s :: p)
      · rw [heq]
        exact hb (s :: p)
      · have hrest := ih (ha.sub s) (hb.sub s)
        rw [← sub_merge_dict hx hy] at hrest
        exact hrest
      · exact absurd hx (ha [] x n)

theorem merge_self (ha : a.NoLists) : merge a a = a := by
  funext p
  induction p generalizing a with
  | nil =>
      rcases merge_cases a a with heq | heq | ⟨x, y, hx, hy⟩ | ⟨x, n, y, m, hx, hy⟩
      · rw [heq]
      · rw [heq]
      · rw [merge_nil_dict hx hy, hx]
      · exact absurd hx (ha [] x n)
  | cons s p ih =>
      rcases merge_cases a a with heq | heq | ⟨x, y, hx, hy⟩ | ⟨x, n, y, m, hx, hy⟩
      · rw [heq]
      · rw [heq]
      · have hsub : (merge a a).sub s p = a.sub s p := by
          rw [sub_merge_dict hx hy, ih (ha.sub s)]
        exact hsub
      · exact absurd hx (ha [] x n)

/-- **Merging over the same value again** changes nothing, as long as it has no lists. -/
theorem merge_absorb (ha : a.NoLists) (b : View κ α ρ) : merge a (merge a b) = merge a b := by
  funext p
  induction p generalizing a b with
  | nil =>
      rcases merge_cases a b with heq | heq | ⟨x, y, hx, hy⟩ | ⟨x, n, y, m, hx, hy⟩
      · rw [heq, merge_self ha]
      · rw [heq, heq]
      · rw [merge_nil_dict hx (merge_nil_dict hx hy), merge_nil_dict hx hy]
      · exact absurd hx (ha [] x n)
  | cons s p ih =>
      rcases merge_cases a b with heq | heq | ⟨x, y, hx, hy⟩ | ⟨x, n, y, m, hx, hy⟩
      · rw [heq, merge_self ha]
      · rw [heq, heq]
      · have hsub : (merge a (merge a b)).sub s p = (merge a b).sub s p := by
          rw [sub_merge_dict hx (merge_nil_dict hx hy), sub_merge_dict hx hy, ih (ha.sub s)]
        exact hsub
      · exact absurd hx (ha [] x n)

/-! ### One path -/

section SetAt

variable [DecidableEq κ] {p q : List (Seg κ)}

@[simp] theorem setAt_append (v w : View κ α ρ) (p q : List (Seg κ)) :
    v.setAt w p (p ++ q) = w q := by
  induction p generalizing v with
  | nil => rfl
  | cons s p ih => simp [setAt, ih]

theorem setAt_of_outside (h : ¬ p <+: q) : v.setAt w p q = v q := by
  induction p generalizing v q with
  | nil => exact absurd List.nil_prefix h
  | cons s p ih =>
      cases q with
      | nil => rfl
      | cons t q =>
          by_cases hst : t = s
          · subst hst
            have hpq : ¬ p <+: q := fun hpre => h (by simpa using hpre)
            simp [setAt, ih hpq]
          · simp [setAt, hst]

/-- No change. -/
theorem setAt_self (h : v.under p = w) : v.setAt w p = v := by
  funext q
  by_cases hq : p <+: q
  · obtain ⟨q, rfl⟩ := hq
    rw [setAt_append, ← h, under_apply]
  · exact setAt_of_outside hq

/-- A change below a path. -/
theorem setAt_under (v w : View κ α ρ) (p q : List (Seg κ)) :
    v.setAt ((v.under p).setAt w q) p = v.setAt w (p ++ q) := by
  funext t
  by_cases hp : p <+: t
  · obtain ⟨t, rfl⟩ := hp
    rw [setAt_append]
    by_cases hq : q <+: t
    · obtain ⟨t, rfl⟩ := hq
      rw [setAt_append, ← List.append_assoc, setAt_append]
    · rw [setAt_of_outside hq, setAt_of_outside (by simpa using hq), under_apply]
  · have hpq : ¬ p ++ q <+: t := fun hpre => hp ((List.prefix_append p q).trans hpre)
    rw [setAt_of_outside hp, setAt_of_outside hpq]

theorem sub_setAt (v w : View κ α ρ) (s t : Seg κ) :
    (v.setAt w [s]).sub t = if t = s then w else v.sub t := by
  funext q
  by_cases hts : t = s <;> simp [setAt, hts]

theorem map_setAt (f : ρ → σ) (v w : View κ α ρ) (p : List (Seg κ)) :
    (v.setAt w p).map f = (v.map f).setAt (w.map f) p := by
  funext q
  by_cases h : p <+: q
  · obtain ⟨q, rfl⟩ := h
    simp
  · rw [setAt_of_outside h, map_apply, setAt_of_outside h, map_apply]

/-- Where a container occurs after a change at one path. -/
theorem ident_setAt (h : (v.setAt w p).ident q = some r) :
    (∃ q', q = p ++ q' ∧ w.ident q' = some r) ∨ (¬ p <+: q ∧ v.ident q = some r) := by
  by_cases hpq : p <+: q
  · obtain ⟨q, rfl⟩ := hpq
    rw [ident, setAt_append] at h
    exact .inl ⟨q, rfl, h⟩
  · rw [ident, setAt_of_outside hpq] at h
    exact .inr ⟨hpq, h⟩

omit [DecidableEq κ] in
theorem Sole.under (h : v.Sole p r) : (v.under p).Sole [] r := by
  intro q hq
  have heq := h (p ++ q) hq
  simpa using heq

/-- A container that stands elsewhere, and not in the new value, stays where it is. -/
theorem Sole.setAt (h : v.Sole q r) (hw : ¬ w.Has r) : (v.setAt w p).Sole q r := by
  intro q' hq'
  rcases ident_setAt hq' with ⟨q'', -, hin⟩ | ⟨-, hold⟩
  · exact absurd ⟨_, hin⟩ hw
  · exact h q' hold

end SetAt

end View

end PathView
