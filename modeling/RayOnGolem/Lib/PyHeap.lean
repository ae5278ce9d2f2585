import Mathlib.Data.List.Induction
import Mathlib.Data.List.Nodup
import RayOnGolem.Lib.Dict
import RayOnGolem.Lib.PathView

/-!
# Mutable dictionaries and lists

Python dictionaries and lists as objects of a heap, named by their position; a value is an
atom or a reference.  An operation gives the heap after it, or nothing where Python raises.

`view` is a value path by path, with the positions of its objects as their identities.  A
change of the heap is seen in a view only at the objects that the value has
(`view_congr`), and a change below one path is a change at that path (`view_change`).
-/

namespace PyHeap

open PathView

/-- An atom or a reference to an object. -/
inductive Value (α : Type)
  | atom (a : α)
  | ref (r : Nat)
  deriving DecidableEq, Repr

/-- A mutable object. -/
inductive Obj (κ α : Type)
  | dict (d : Dict κ (Value α))
  | list (l : List (Value α))
  deriving DecidableEq, Repr

/-- All objects, in the order of their creation. -/
abbrev Heap (κ α : Type) := List (Obj κ α)

variable {κ α : Type}

/-! ### Values in a heap -/

/-- The reference is to an object among the first `n`. -/
def Value.Live (n : Nat) : Value α → Prop
  | .atom _ => True
  | .ref r => r < n

/-- The values in an object. -/
def Obj.values : Obj κ α → List (Value α)
  | .dict d => d.values
  | .list l => l

/-- The keys of an object. -/
def Obj.keys : Obj κ α → List κ
  | .dict d => d.keys
  | .list _ => []

/-- The keys of a dictionary are different, and the references of an object are to objects. -/
def Obj.Wf (n : Nat) (o : Obj κ α) : Prop :=
  (∀ v ∈ o.values, v.Live n) ∧
    match o with
    | .dict d => d.keys.Nodup
    | .list _ => True

/-- No object has a dangling reference. -/
def Valid (h : Heap κ α) : Prop := ∀ o ∈ h, o.Wf h.length

instance (n : Nat) (v : Value α) : Decidable (v.Live n) :=
  match v with
  | .atom _ => isTrue trivial
  | .ref r => inferInstanceAs (Decidable (r < n))

instance [DecidableEq κ] (n : Nat) (o : Obj κ α) : Decidable (o.Wf n) :=
  match o with
  | .dict d => inferInstanceAs (Decidable ((∀ v ∈ d.values, v.Live n) ∧ d.keys.Nodup))
  | .list l => inferInstanceAs (Decidable ((∀ v ∈ l, v.Live n) ∧ True))

instance [DecidableEq κ] (h : Heap κ α) : Decidable (Valid h) :=
  inferInstanceAs (Decidable (∀ o ∈ h, o.Wf h.length))

variable [DecidableEq κ]

/-- The value at a key or an index. -/
def child (h : Heap κ α) : Value α → Seg κ → Option (Value α)
  | .atom _, _ => none
  | .ref r, .key k =>
      match h[r]? with
      | some (.dict d) => d.get k
      | _ => none
  | .ref r, .idx i =>
      match h[r]? with
      | some (.list l) => l[i]?
      | _ => none

/-- The value at a path. -/
def find (h : Heap κ α) (v : Value α) : List (Seg κ) → Option (Value α)
  | [] => some v
  | s :: p =>
      match child h v s with
      | some c => find h c p
      | none => none

omit [DecidableEq κ] in
/-- What a value is; a dangling reference is to an empty list. -/
def node (h : Heap κ α) : Value α → Node α Nat
  | .atom a => .atom a
  | .ref r =>
      match h[r]? with
      | some (.dict _) => .dict r
      | some (.list l) => .list r l.length
      | none => .list r 0

/-- A value path by path. -/
def view (h : Heap κ α) (v : Value α) : View κ α Nat := fun p => (find h v p).map (node h)

/-! ### Operations -/

omit [DecidableEq κ] in
/-- A new object. -/
def alloc (h : Heap κ α) (o : Obj κ α) : Heap κ α × Value α := (h ++ [o], .ref h.length)

/-- The copy of a value when the object at `r` is copied to `n + r`. -/
def Value.shift (n : Nat) : Value α → Value α
  | .atom a => .atom a
  | .ref r => .ref (n + r)

omit [DecidableEq κ] in
/-- The copy of an object. -/
def Obj.shift (n : Nat) : Obj κ α → Obj κ α
  | .dict d => .dict (d.mapValues (Value.shift n))
  | .list l => .list (l.map (Value.shift n))

omit [DecidableEq κ] in
/-- `copy.deepcopy`.  All objects are copied at once; the copies that the result does not
reach are garbage. -/
def deepcopy (h : Heap κ α) (v : Value α) : Heap κ α × Value α :=
  (h ++ h.map (Obj.shift h.length), v.shift h.length)

/-- `v[k]` of a dictionary. -/
def getItem (h : Heap κ α) (v : Value α) (k : κ) : Option (Value α) := child h v (.key k)

omit [DecidableEq κ] in
/-- The dictionary that a value refers to. -/
def dictOf (h : Heap κ α) : Value α → Option (Nat × Dict κ (Value α))
  | .atom _ => none
  | .ref r =>
      match h[r]? with
      | some (.dict d) => some (r, d)
      | _ => none

/-- `v.get(k, default)`. -/
def getDefault (h : Heap κ α) (v : Value α) (k : κ) (default : Value α) : Option (Value α) := do
  let (_, d) ← dictOf h v
  return (d.get k).getD default

/-- `k in v`. -/
def contains (h : Heap κ α) (v : Value α) (k : κ) : Option Bool := do
  let (_, d) ← dictOf h v
  return (d.get k).isSome

omit [DecidableEq κ] in
/-- `list(v)`. -/
def keys (h : Heap κ α) (v : Value α) : Option (List κ) := do
  let (_, d) ← dictOf h v
  return d.keys

/-- `v[k] = w`. -/
def setItem (h : Heap κ α) (v : Value α) (k : κ) (w : Value α) : Option (Heap κ α) := do
  let (r, d) ← dictOf h v
  return h.set r (.dict (d.set k w))

/-- `v.setdefault(k, w)`. -/
def setdefault (h : Heap κ α) (v : Value α) (k : κ) (w : Value α) :
    Option (Heap κ α × Value α) := do
  let (r, d) ← dictOf h v
  match d.get k with
  | some c => return (h, c)
  | none => return (h.set r (.dict (d.set k w)), w)

/-- `v.update(w)`. -/
def update (h : Heap κ α) (v w : Value α) : Option (Heap κ α) := do
  let (r, d) ← dictOf h v
  let (_, e) ← dictOf h w
  return h.set r (.dict (d.update e))

/-! ### Reading -/

variable {h h' : Heap κ α} {v w c : Value α} {k : κ} {s : Seg κ} {p q : List (Seg κ)}
  {r n : Nat} {d : Dict κ (Value α)}

omit [DecidableEq κ] in
theorem node_eq_dict_iff : node h v = .dict r ↔ v = .ref r ∧ ∃ d, h[r]? = some (.dict d) := by
  cases v with
  | atom a => simp [node]
  | ref r' =>
      simp only [node, Value.ref.injEq]
      constructor
      · intro hdict
        split at hdict
        · rename_i d hd
          obtain rfl : r' = r := by simpa using hdict
          exact ⟨rfl, d, hd⟩
        · cases hdict
        · cases hdict
      · rintro ⟨rfl, d, hd⟩
        simp [hd]

omit [DecidableEq κ] in
theorem node_eq_atom_iff {a : α} : node h v = .atom a ↔ v = .atom a := by
  cases v with
  | atom b => simp [node]
  | ref r =>
      simp only [node]
      split <;> simp

omit [DecidableEq κ] in
theorem ident_node : (node h v).ident = some r ↔ v = .ref r := by
  cases v with
  | atom a => simp [node, Node.ident]
  | ref r' =>
      simp only [node]
      split <;> simp [Node.ident]

omit [DecidableEq κ] in
theorem dictOf_eq_some_iff : dictOf h v = some (r, d) ↔ v = .ref r ∧ h[r]? = some (.dict d) := by
  cases v with
  | atom a => simp [dictOf]
  | ref r' =>
      simp only [dictOf, Value.ref.injEq]
      constructor
      · intro hd
        split at hd
        · rename_i e he
          obtain ⟨rfl, rfl⟩ : r' = r ∧ e = d := by simpa using hd
          exact ⟨rfl, he⟩
        · cases hd
      · rintro ⟨rfl, hd⟩
        simp [hd]

theorem child_key (hd : h[r]? = some (.dict d)) : child h (.ref r) (.key k) = d.get k := by
  simp [child, hd]

theorem child_idx_dict {i : Nat} (hd : h[r]? = some (.dict d)) :
    child h (.ref r) (.idx i) = none := by
  simp [child, hd]

theorem find_cons (h : Heap κ α) (v : Value α) (s : Seg κ) (p : List (Seg κ)) :
    find h v (s :: p) = (child h v s).bind fun c => find h c p := by
  rw [find]
  cases child h v s <;> rfl

/-- Nothing is below an atom. -/
theorem find_atom_cons (h : Heap κ α) (a : α) (s : Seg κ) (p : List (Seg κ)) :
    find h (.atom a) (s :: p) = none := by
  rw [find_cons]
  rfl

theorem find_atom_ne_ref (h : Heap κ α) (a : α) (p : List (Seg κ)) (r : Nat) :
    find h (.atom a) p ≠ some (.ref r) := by
  cases p with
  | nil => simp [find]
  | cons s p => simp [find_atom_cons]

/-- The first key of a path that leads somewhere. -/
theorem getItem_of_find (hp : find h v (.key k :: p) = some c) :
    ∃ w, getItem h v k = some w ∧ find h w p = some c := by
  rw [find_cons] at hp
  exact Option.bind_eq_some_iff.mp hp

theorem getItem_dict (hd : h[r]? = some (.dict d)) (k : κ) : getItem h (.ref r) k = d.get k :=
  child_key hd

theorem find_append (h : Heap κ α) (v : Value α) (p q : List (Seg κ)) :
    find h v (p ++ q) = (find h v p).bind fun c => find h c q := by
  induction p generalizing v with
  | nil => rfl
  | cons s p ih =>
      rw [List.cons_append, find_cons, find_cons]
      cases child h v s with
      | none => rfl
      | some c => exact ih c

theorem find_key (hp : find h v p = some c) : find h v (p ++ [.key k]) = getItem h c k := by
  rw [find_append, hp, Option.bind_some, find_cons, getItem]
  cases child h c (.key k) <;> rfl

theorem ident_view : (view h v).ident p = some r ↔ find h v p = some (.ref r) := by
  simp only [View.ident, view]
  cases find h v p with
  | none => simp
  | some c => simp [ident_node]

theorem has_root : (view h (.ref r)).Has r := ⟨[], ident_view.mpr rfl⟩

theorem sub_view (hc : child h v s = some c) : (view h v).sub s = view h c := by
  funext p
  simp [view, find_cons, hc]

theorem sub_view_none (hc : child h v s = none) : (view h v).sub s = View.nothing := by
  funext p
  simp [view, find_cons, hc, View.nothing]

theorem under_view (hp : find h v p = some c) : (view h v).under p = view h c := by
  funext q
  simp [view, find_append, hp]

theorem view_eq_dict_iff :
    view h v p = some (.dict r) ↔
      find h v p = some (.ref r) ∧ ∃ d, h[r]? = some (.dict d) := by
  simp only [view]
  cases find h v p with
  | none => simp
  | some c => simp [node_eq_dict_iff]

theorem setdefault_found (hd : h[r]? = some (.dict d)) (hk : d.get k = some c) (w : Value α) :
    setdefault h (.ref r) k w = some (h, c) := by
  simp [setdefault, dictOf, hd, hk]

theorem setdefault_new (hd : h[r]? = some (.dict d)) (hk : d.get k = none) (w : Value α) :
    setdefault h (.ref r) k w = some (h.set r (.dict (d.set k w)), w) := by
  simp [setdefault, dictOf, hd, hk]

theorem setdefault_of_setItem (hd : h[r]? = some (.dict d)) (hk : d.get k = none)
    (hset : setItem h (.ref r) k w = some h') : setdefault h (.ref r) k w = some (h', w) := by
  simp only [setItem, dictOf, hd] at hset
  obtain rfl := Option.some.inj hset
  exact setdefault_new hd hk w

theorem setItem_dict (hd : h[r]? = some (.dict d)) (k : κ) (w : Value α) :
    setItem h (.ref r) k w = some (h.set r (.dict (d.set k w))) := by
  simp [setItem, dictOf, hd]

theorem getDefault_dict (hd : h[r]? = some (.dict d)) (k : κ) (w : Value α) :
    getDefault h (.ref r) k w = some ((d.get k).getD w) := by
  simp [getDefault, dictOf, hd]

omit [DecidableEq κ] in
/-- A value is known from what it is. -/
theorem value_eq_of_node (hnode : node h' v = node h w) : v = w := by
  rcases hv : node h' v with a | r | ⟨r, n⟩
  · exact (node_eq_atom_iff.mp hv).trans (node_eq_atom_iff.mp (hnode.symm.trans hv)).symm
  · exact (node_eq_dict_iff.mp hv).1.trans (node_eq_dict_iff.mp (hnode.symm.trans hv)).1.symm
  · have hident : (node h' v).ident = some r := by rw [hv]; rfl
    exact (ident_node.mp hident).trans (ident_node.mp (hnode ▸ hident)).symm

/-- Where two values look the same, they are the same. -/
theorem find_of_view (hview : view h' v p = view h w q) : find h' v p = find h w q := by
  simp only [view] at hview
  rcases hp : find h' v p with _ | a <;> rcases hq : find h w q with _ | b
  · rfl
  · simp [hp, hq] at hview
  · simp [hp, hq] at hview
  · rw [hp, hq, Option.map_some, Option.map_some] at hview
    rw [value_eq_of_node (Option.some.inj hview)]

/-! ### Valid heaps -/

omit [DecidableEq κ] in
theorem Value.Live.mono {m : Nat} (hv : v.Live n) (hnm : n ≤ m) : v.Live m := by
  cases v with
  | atom a => trivial
  | ref r => exact Nat.lt_of_lt_of_le hv hnm

theorem Valid.child (hh : Valid h) (hc : child h v s = some c) : c.Live h.length := by
  cases v with
  | atom a => cases hc
  | ref r =>
      cases s with
      | key k =>
          simp only [PyHeap.child] at hc
          split at hc
          · rename_i d hd
            exact (hh _ (List.mem_of_getElem? hd)).1 c (Dict.mem_values_of_get hc)
          · cases hc
      | idx i =>
          simp only [PyHeap.child] at hc
          split at hc
          · rename_i l hl
            exact (hh _ (List.mem_of_getElem? hl)).1 c (List.mem_of_getElem? hc)
          · cases hc

theorem Valid.find (hh : Valid h) (hv : v.Live h.length) (hp : find h v p = some c) :
    c.Live h.length := by
  induction p generalizing v with
  | nil =>
      obtain rfl : v = c := by simpa [PyHeap.find] using hp
      exact hv
  | cons s p ih =>
      rw [find_cons] at hp
      obtain ⟨c', hc', hp⟩ := Option.bind_eq_some_iff.mp hp
      exact ih (hh.child hc') hp

/-- A live value has live objects only. -/
theorem Valid.has_lt (hh : Valid h) (hv : v.Live h.length) (hr : (view h v).Has r) :
    r < h.length := by
  obtain ⟨p, hp⟩ := hr
  exact hh.find hv (ident_view.mp hp)

/-! ### Changes of the heap -/

theorem child_congr (hsame : ∀ r, v = .ref r → h'[r]? = h[r]?) (s : Seg κ) :
    child h' v s = child h v s := by
  cases v with
  | atom a => rfl
  | ref r => cases s <;> simp only [child, hsame r rfl]

omit [DecidableEq κ] in
theorem node_congr (hsame : ∀ r, v = .ref r → h'[r]? = h[r]?) : node h' v = node h v := by
  cases v with
  | atom a => rfl
  | ref r => simp only [node, hsame r rfl]

/-- A value is the same when its objects are. -/
theorem find_congr (hsame : ∀ r, (view h v).Has r → h'[r]? = h[r]?) (p : List (Seg κ)) :
    find h' v p = find h v p := by
  induction p generalizing v with
  | nil => rfl
  | cons s p ih =>
      have hchild : child h' v s = child h v s :=
        child_congr (fun r hr => hsame r (by subst hr; exact has_root)) s
      rw [find_cons, find_cons, hchild]
      rcases hc : child h v s with _ | c
      · rfl
      · exact ih fun r hr => hsame r (View.Has.of_sub (s := s) (by rwa [sub_view hc]))

/-- A value is seen unchanged when its objects are. -/
theorem view_congr (hsame : ∀ r, (view h v).Has r → h'[r]? = h[r]?) : view h' v = view h v := by
  funext p
  rw [view, view, find_congr hsame]
  rcases hc : find h v p with _ | c
  · rfl
  · have hnode : node h' c = node h c := by
      refine node_congr fun r hr => hsame r ⟨p, ident_view.mpr ?_⟩
      rw [hc, hr]
    rw [Option.map_some, hnode, Option.map_some]

/-- A change below one path of a value is seen at that path only. -/
theorem view_change (hp : find h v p = some c)
    (hsame : ∀ q r, ¬ p <+: q → (view h v).ident q = some r → h'[r]? = h[r]?) :
    view h' v = (view h v).setAt (view h' c) p := by
  induction p generalizing v with
  | nil =>
      obtain rfl : v = c := by simpa [find] using hp
      rfl
  | cons s p ih =>
      have hroot : ∀ r, v = .ref r → h'[r]? = h[r]? := fun r hr =>
        hsame [] r (by simp) (by subst hr; exact ident_view.mpr rfl)
      have hchild := child_congr hroot
      rw [find_cons] at hp
      obtain ⟨c', hc', hbelow⟩ := Option.bind_eq_some_iff.mp hp
      refine View.ext_sub ?_ fun t => ?_
      · simp [view, find, node_congr hroot, View.setAt]
      · by_cases hts : t = s
        · subst hts
          have hsub := ih hbelow fun q r hpq hq => hsame (t :: q) r (by simpa using hpq)
            (by rw [← View.ident_sub, sub_view hc']; exact hq)
          rw [sub_view ((hchild t).trans hc'), hsub, ← sub_view hc']
          funext q
          simp [View.setAt]
        · have hrest : ((view h v).setAt (view h' c) (s :: p)).sub t = (view h v).sub t := by
            funext q
            simp [View.setAt, hts]
          rw [hrest]
          rcases hct : child h v t with _ | c''
          · rw [sub_view_none hct, sub_view_none ((hchild t).trans hct)]
          · rw [sub_view hct, sub_view ((hchild t).trans hct)]
            refine view_congr fun r hr => ?_
            obtain ⟨q, hq⟩ := hr
            have hnot : ¬ s :: p <+: t :: q := fun hpre =>
              hts (List.cons_prefix_cons.mp hpre).1.symm
            refine hsame (t :: q) r hnot ?_
            rw [← View.ident_sub, sub_view hct]
            exact hq

/-! ### What the operations do -/

section Operations

omit [DecidableEq κ] in
theorem Obj.Wf.mono {o : Obj κ α} {m : Nat} (ho : o.Wf n) (hnm : n ≤ m) : o.Wf m :=
  ⟨fun v hv => (ho.1 v hv).mono hnm, ho.2⟩

omit [DecidableEq κ] in
theorem wf_empty : (Obj.dict {} : Obj κ α).Wf n :=
  ⟨by simp [Obj.values, Dict.values], by simp [Dict.keys]⟩

omit [DecidableEq κ] in
theorem wf_single (hw : w.Live n) : (Obj.dict ⟨[(k, w)]⟩).Wf n :=
  ⟨by simpa [Obj.values, Dict.values] using hw, by simp [Dict.keys]⟩

omit [DecidableEq κ] in
theorem Valid.append {l : List (Obj κ α)} (hh : Valid h) (hl : ∀ o ∈ l, o.Wf (h ++ l).length) :
    Valid (h ++ l) := by
  intro o ho
  rcases List.mem_append.mp ho with hold | hnew
  · exact (hh o hold).mono (by simp)
  · exact hl o hnew

omit [DecidableEq κ] in
theorem Valid.set {o : Obj κ α} (hh : Valid h) (ho : o.Wf h.length) : Valid (h.set r o) := by
  intro o' ho'
  rw [List.length_set]
  rcases List.mem_or_eq_of_mem_set ho' with hold | rfl
  · exact hh o' hold
  · exact ho

theorem Valid.setDict (hh : Valid h) (hd : h[r]? = some (.dict d)) (hw : w.Live h.length) (k : κ) :
    Valid (h.set r (.dict (d.set k w))) := by
  have hwf := hh _ (List.mem_of_getElem? hd)
  refine hh.set ⟨fun v hv => ?_, Dict.nodup_keys_set hwf.2 k w⟩
  rcases Dict.mem_values_set hv with rfl | hold
  · exact hw
  · exact hwf.1 v hold

/-- What an assignment of `w` to the key `k` of the dictionary at `r` makes of a heap. -/
structure Assigned (h : Heap κ α) (r : Nat) (d : Dict κ (Value α)) (k : κ) (w : Value α)
    (h' : Heap κ α) : Prop where
  valid : Valid h'
  length : h'.length = h.length
  self : h'[r]? = some (.dict (d.set k w))
  other : ∀ x, x ≠ r → h'[x]? = h[x]?

theorem assigned_set (hh : Valid h) (hd : h[r]? = some (.dict d)) (hw : w.Live h.length) (k : κ) :
    Assigned h r d k w (h.set r (.dict (d.set k w))) where
  valid := hh.setDict hd hw k
  length := List.length_set
  self := List.getElem?_set_self (List.getElem?_eq_some_iff.mp hd).1
  other _ hne := List.getElem?_set_ne hne.symm

/-- An item is assigned. -/
theorem setItem_assigned (hh : Valid h) (hd : h[r]? = some (.dict d)) (hw : w.Live h.length)
    (k : κ) : ∃ h', setItem h (.ref r) k w = some h' ∧ Assigned h r d k w h' :=
  ⟨_, setItem_dict hd k w, assigned_set hh hd hw k⟩

/-- New objects do not change what is there. -/
theorem view_append (hh : Valid h) (hv : v.Live h.length) (l : List (Obj κ α)) :
    view (h ++ l) v = view h v :=
  view_congr fun _ hr => List.getElem?_append_left (hh.has_lt hv hr)

omit [DecidableEq κ] in
theorem Value.Live.shift (hv : v.Live n) (m : Nat) : (v.shift m).Live (m + n) := by
  cases v with
  | atom a => trivial
  | ref r => exact Nat.add_lt_add_left hv m

omit [DecidableEq κ] in
theorem Obj.values_shift (o : Obj κ α) : (o.shift n).values = o.values.map (Value.shift n) := by
  cases o with
  | dict d => exact Dict.values_mapValues _ d
  | list l => rfl

omit [DecidableEq κ] in
theorem Obj.Wf.shift {o : Obj κ α} (ho : o.Wf n) (m : Nat) : (o.shift m).Wf (m + n) := by
  refine ⟨fun v hv => ?_, ?_⟩
  · rw [Obj.values_shift] at hv
    obtain ⟨w, hw, rfl⟩ := List.mem_map.mp hv
    exact (ho.1 w hw).shift m
  · cases o with
    | dict d => simpa only [Obj.shift, Dict.keys_mapValues] using ho.2
    | list l => trivial

omit [DecidableEq κ] in
theorem Valid.deepcopy (hh : Valid h) (v : Value α) : Valid (deepcopy h v).1 := by
  refine hh.append fun o ho => ?_
  obtain ⟨o, hold, rfl⟩ := List.mem_map.mp ho
  simpa using (hh o hold).shift h.length

omit [DecidableEq κ] in
/-- The copy of an object. -/
theorem getElem?_deepcopy (h : Heap κ α) (v : Value α) (r : Nat) :
    (deepcopy h v).1[h.length + r]? = h[r]?.map (Obj.shift h.length) := by
  simp [PyHeap.deepcopy, List.getElem?_append_right]

theorem child_deepcopy (h : Heap κ α) (v w : Value α) (s : Seg κ) :
    child (deepcopy h w).1 (v.shift h.length) s = (child h v s).map (Value.shift h.length) := by
  cases v with
  | atom a => rfl
  | ref r =>
      have hobj := getElem?_deepcopy h w r
      cases s with
      | key k =>
          simp only [Value.shift, child, hobj]
          rcases h[r]? with _ | ⟨d⟩ | l
          · rfl
          · exact Dict.get_mapValues _ d k
          · rfl
      | idx i =>
          simp only [Value.shift, child, hobj]
          rcases h[r]? with _ | ⟨d⟩ | l
          · rfl
          · rfl
          · simp [Obj.shift]

omit [DecidableEq κ] in
theorem node_deepcopy (h : Heap κ α) (v w : Value α) :
    node (deepcopy h w).1 (v.shift h.length) = (node h v).map (h.length + ·) := by
  cases v with
  | atom a => rfl
  | ref r =>
      have hobj := getElem?_deepcopy h w r
      simp only [Value.shift, node, hobj]
      rcases h[r]? with _ | ⟨d⟩ | l
      · rfl
      · rfl
      · simp [Obj.shift, Node.map]

/-- A deep copy is the same value, of new objects. -/
theorem view_deepcopy (h : Heap κ α) (v w : Value α) :
    view (deepcopy h w).1 (v.shift h.length) = (view h v).map (h.length + ·) := by
  funext p
  induction p generalizing v with
  | nil => simp [view, find, node_deepcopy]
  | cons s p ih =>
      have hchild := child_deepcopy h v w s
      rcases hc : child h v s with _ | c
      · simp [view, find_cons, hchild, hc]
      · have hsub := ih c
        simpa [view, find_cons, hchild, hc] using hsub

/-- A value where `w` has been put at `r[k]`, and `r` stands at one path only. -/
theorem view_assign (hp : find h v p = some (.ref r)) (hs : (view h v).Sole p r)
    (hd : h[r]? = some (.dict d)) (hd' : h'[r]? = some (.dict (d.set k w)))
    (hsame : ∀ r', (view h v).Has r' → r' ≠ r → h'[r']? = h[r']?) :
    view h' v = (view h v).setAt (view h' w) (p ++ [.key k]) := by
  have hchange : view h' v = (view h v).setAt (view h' (.ref r)) p := by
    refine view_change hp fun q r' hpq hq => hsame r' ⟨q, hq⟩ ?_
    rintro rfl
    exact hpq (hs q hq ▸ List.prefix_rfl)
  have hroot : view h' (.ref r) = (view h (.ref r)).setAt (view h' w) [.key k] := by
    have hsole : (view h (.ref r)).Sole [] r := under_view hp ▸ hs.under
    have hbelow : ∀ r', (view h (.ref r)).Has r' → (view h v).Has r' := fun r' hr' =>
      View.Has.of_under (under_view hp ▸ hr')
    refine View.ext_sub ?_ fun s => ?_
    · simp [view, find, node, hd', hd, View.setAt]
    · rw [View.sub_setAt]
      split
      · rename_i heq
        subst heq
        rw [sub_view ((child_key hd').trans (Dict.get_set_self d k w))]
      · rename_i hne
        have hchild : child h' (.ref r) s = child h (.ref r) s := by
          cases s with
          | key k' => rw [child_key hd', child_key hd, Dict.get_set_ne d (by simpa using hne)]
          | idx i => rw [child_idx_dict hd', child_idx_dict hd]
        rcases hc : child h (.ref r) s with _ | c
        · rw [sub_view_none hc, sub_view_none (hchild.trans hc)]
        · rw [sub_view hc, sub_view (hchild.trans hc)]
          refine view_congr fun r' hr' => ?_
          rw [← sub_view hc] at hr'
          refine hsame r' (hbelow r' hr'.of_sub) ?_
          rintro rfl
          obtain ⟨q, hq⟩ := hr'
          cases hsole _ hq
  rw [hchange, hroot, ← under_view hp, View.setAt_under]

end Operations

/-! ### Trees -/

/-- The reference that a value is. -/
def Value.ref? : Value α → Option Nat
  | .atom _ => none
  | .ref r => some r

omit [DecidableEq κ] in
/-- The objects that an object refers to. -/
def Obj.refs (o : Obj κ α) : List Nat := o.values.filterMap Value.ref?

omit [DecidableEq κ] in
/-- Each object is referred to once at most, and by an object before it. -/
def IsTree (h : Heap κ α) : Prop :=
  (h.flatMap Obj.refs).Nodup ∧ ∀ x ∈ h.zipIdx, ∀ r ∈ x.1.refs, x.2 < r

instance (h : Heap κ α) : Decidable (IsTree h) :=
  inferInstanceAs (Decidable (_ ∧ ∀ x ∈ h.zipIdx, ∀ r ∈ x.1.refs, x.2 < r))

section Trees

omit [DecidableEq κ] in
/-- An object refers to another one from one position. -/
theorem position_unique {o : Obj κ α} {i j : Nat} (ho : o.refs.Nodup)
    (hi : o.values[i]? = some (.ref r)) (hj : o.values[j]? = some (.ref r)) : i = j := by
  have hpair := List.pairwise_iff_getElem.mp (List.pairwise_filterMap.mp ho)
  obtain ⟨hilt, hi⟩ := List.getElem?_eq_some_iff.mp hi
  obtain ⟨hjlt, hj⟩ := List.getElem?_eq_some_iff.mp hj
  rcases Nat.lt_trichotomy i j with hlt | heq | hlt
  · exact absurd rfl (hpair i j hilt hjlt hlt r (by rw [hi]; rfl) r (by rw [hj]; rfl))
  · exact heq
  · exact absurd rfl (hpair j i hjlt hilt hlt r (by rw [hj]; rfl) r (by rw [hi]; rfl))

/-- A dictionary or list refers to an object from one key or index. -/
theorem seg_unique {o : Obj κ α} {t : Seg κ} (ho : h[n]? = some o) (hnodup : o.refs.Nodup)
    (hs : child h (.ref n) s = some (.ref r)) (ht : child h (.ref n) t = some (.ref r)) :
    s = t := by
  cases o with
  | dict d =>
      have hpos : ∀ s, child h (.ref n) s = some (.ref r) →
          ∃ k, ∃ i : Nat, s = .key k ∧ d.items[i]? = some (k, Value.ref r) := by
        intro s hs
        cases s with
        | key k =>
            rw [child_key ho] at hs
            obtain ⟨l₁, l₂, heq, -⟩ := List.lookup_eq_some_iff.mp hs
            have hmem : (k, Value.ref r) ∈ d.items := by simp [heq]
            obtain ⟨i, hi⟩ := List.getElem?_of_mem hmem
            exact ⟨k, i, rfl, hi⟩
        | idx i =>
            rw [child_idx_dict ho] at hs
            cases hs
      obtain ⟨k, i, rfl, hi⟩ := hpos s hs
      obtain ⟨k', j, rfl, hj⟩ := hpos t ht
      have hij : i = j := position_unique hnodup (r := r) (by simp [Obj.values, Dict.values, hi])
        (by simp [Obj.values, Dict.values, hj])
      subst hij
      rw [hi] at hj
      cases hj
      rfl
  | list l =>
      cases s with
      | key k => simp [child, ho] at hs
      | idx i =>
          cases t with
          | key k => simp [child, ho] at ht
          | idx j =>
              have hi : l[i]? = some (.ref r) := by simpa [child, ho] using hs
              have hj : l[j]? = some (.ref r) := by simpa [child, ho] using ht
              rw [position_unique (o := .list l) hnodup hi hj]

theorem mem_refs_of_child (hs : child h v s = some (.ref r)) :
    ∃ i o, v = .ref i ∧ h[i]? = some o ∧ r ∈ o.refs := by
  cases v with
  | atom a => cases hs
  | ref i =>
      have hval : ∃ o, h[i]? = some o ∧ Value.ref r ∈ o.values := by
        cases s with
        | key k =>
            simp only [child] at hs
            split at hs
            · rename_i d hd
              exact ⟨_, hd, Dict.mem_values_of_get hs⟩
            · cases hs
        | idx j =>
            simp only [child] at hs
            split at hs
            · rename_i l hl
              exact ⟨_, hl, List.mem_of_getElem? hs⟩
            · cases hs
      obtain ⟨o, ho, hr⟩ := hval
      exact ⟨i, o, rfl, ho, List.mem_filterMap.mpr ⟨_, hr, rfl⟩⟩

/-- An object of a tree is referred to from one place. -/
theorem IsTree.parent_unique {v' : Value α} {t : Seg κ} (hh : IsTree h)
    (hs : child h v s = some (.ref r)) (ht : child h v' t = some (.ref r)) :
    v = v' ∧ s = t := by
  obtain ⟨i, o, rfl, ho, hr⟩ := mem_refs_of_child hs
  obtain ⟨j, o', rfl, ho', hr'⟩ := mem_refs_of_child ht
  obtain ⟨hnodup, hdisjoint⟩ := List.nodup_flatMap.mp hh.1
  have hpair := List.pairwise_iff_getElem.mp hdisjoint
  obtain ⟨hilt, hi⟩ := List.getElem?_eq_some_iff.mp ho
  obtain ⟨hjlt, hj⟩ := List.getElem?_eq_some_iff.mp ho'
  have hij : i = j := by
    rcases Nat.lt_trichotomy i j with hlt | heq | hlt
    · exact absurd (hj ▸ hr') (hpair i j hilt hjlt hlt (hi ▸ hr))
    · exact heq
    · exact absurd (hi ▸ hr) (hpair j i hjlt hilt hlt (hj ▸ hr'))
  subst hij
  exact ⟨rfl, seg_unique ho (hnodup o (List.mem_of_getElem? ho)) hs ht⟩

theorem IsTree.child_lt (hh : IsTree h) (hs : child h (.ref n) s = some (.ref r)) : n < r := by
  obtain ⟨i, o, heq, ho, hr⟩ := mem_refs_of_child hs
  cases heq
  exact hh.2 (o, n) (List.mem_zipIdx_iff_getElem?.mpr ho) r hr

/-- Below an object of a tree are objects after it. -/
theorem IsTree.find_cases (hh : IsTree h) (hp : find h (.ref n) p = some (.ref r)) :
    (p = [] ∧ n = r) ∨ n < r := by
  induction p generalizing n with
  | nil => exact .inl ⟨rfl, by simpa [find] using hp⟩
  | cons s p ih =>
      rw [find_cons] at hp
      obtain ⟨c, hc, hp⟩ := Option.bind_eq_some_iff.mp hp
      cases c with
      | atom a => exact absurd hp (find_atom_ne_ref h a p r)
      | ref m =>
          have hlt := hh.child_lt hc
          rcases ih hp with ⟨-, rfl⟩ | hlt'
          · exact .inr hlt
          · exact .inr (by omega)

theorem find_concat (h : Heap κ α) (v : Value α) (p : List (Seg κ)) (s : Seg κ) :
    find h v (p ++ [s]) = (find h v p).bind fun c => child h c s := by
  rw [find_append]
  congr 1
  funext c
  rw [find_cons]
  cases child h c s <;> rfl

/-- In a tree each object occurs once below an object. -/
theorem IsTree.unshared (hh : IsTree h) (n : Nat) : (view h (.ref n)).Unshared := by
  intro p
  induction p using List.reverseRecOn with
  | nil =>
      intro r hp q hq
      rw [ident_view] at hp hq
      rcases hh.find_cases hq with ⟨rfl, -⟩ | hlt
      · rfl
      · simp only [find, Option.some.injEq, Value.ref.injEq] at hp
        omega
  | append_singleton p s ih =>
      intro r hp q hq
      rw [ident_view] at hp hq
      rw [find_concat] at hp
      obtain ⟨c, hc, hp⟩ := Option.bind_eq_some_iff.mp hp
      obtain ⟨i, o, rfl, ho, hr⟩ := mem_refs_of_child hp
      rcases List.eq_nil_or_concat' q with rfl | ⟨q, t, rfl⟩
      · have hlt := hh.child_lt hp
        simp only [find, Option.some.injEq, Value.ref.injEq] at hq
        rcases hh.find_cases hc with ⟨-, rfl⟩ | hlt' <;> omega
      · rw [find_concat] at hq
        obtain ⟨c', hc', hq⟩ := Option.bind_eq_some_iff.mp hq
        obtain ⟨rfl, rfl⟩ := hh.parent_unique hp hq
        rw [ih i (ident_view.mpr hc) q (ident_view.mpr hc')]

end Trees

end PyHeap
