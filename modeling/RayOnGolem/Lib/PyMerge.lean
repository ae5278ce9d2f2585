import Mathlib.Data.Finset.Card
import Mathlib.Data.Finset.Range
import RayOnGolem.Lib.PyHeap

/-!
# Deep merges in place

`DeepMerges` says what a function is relied on for that merges one dictionary into another in
place: on a target whose containers occur once, and not in the source, it gives the target
the value that `View.merge` describes, and touches nothing else.  It may refuse keys, and what
is no dictionary; for a source with keys that it does not read nothing is promised.

`deepMerge` is such a function (`deepMerge_deepMerges`): it goes down where both sides have a
dictionary, extends lists, and otherwise assigns, so that the target then shares with the
source.
-/

namespace PyHeap

open PathView

/-- An operation that raises only when `Q` fails, and has a result with `P` otherwise. -/
def Ends {β : Type} (Q : Prop) (x : Option β) (P : β → Prop) : Prop :=
  match x with
  | none => ¬ Q
  | some b => P b

section Ends

variable {β γ : Type} {Q Q' : Prop} {x : Option β} {P P' : β → Prop} {R : γ → Prop}

theorem Ends.bind {f : β → Option γ} (hx : Ends Q x P) (hf : ∀ b, P b → Ends Q (f b) R) :
    Ends Q (x.bind f) R := by
  cases x with
  | none => exact hx
  | some b => exact hf b hx

theorem Ends.mono (hx : Ends Q x P) (hP : ∀ b, P b → P' b) : Ends Q x P' := by
  cases x with
  | none => exact hx
  | some b => exact hP b hx

theorem Ends.weaken (hx : Ends Q x P) (hQ : Q' → Q) : Ends Q' x P := by
  cases x with
  | none => exact fun hq => hx (hQ hq)
  | some b => exact hx

theorem Ends.some_of (hx : Ends Q x P) (hQ : Q) : ∃ b, x = some b ∧ P b := by
  cases x with
  | none => exact absurd hQ hx
  | some b => exact ⟨b, rfl, hx⟩

theorem Ends.of_some {b : β} (hx : Ends Q x P) (hb : x = some b) : P b := by
  subst hb
  exact hx

end Ends

variable {κ α : Type} [DecidableEq κ]

/-- All keys in a value are accepted. -/
def KeysIn {ρ : Type} (accepts : κ → Prop) (v : View κ α ρ) : Prop :=
  ∀ p k, v (p ++ [.key k]) ≠ none → accepts k

section KeysIn

variable {ρ σ : Type} {p : κ → Prop} {v w : View κ α ρ}

omit [DecidableEq κ]

theorem KeysIn.sub (hv : KeysIn p v) (s : Seg κ) : KeysIn p (v.sub s) :=
  fun q k hne => hv (s :: q) k hne

theorem KeysIn.under (hv : KeysIn p v) (q : List (Seg κ)) : KeysIn p (v.under q) := by
  intro q' k hne
  rw [View.under_apply, ← List.append_assoc] at hne
  exact hv _ k hne

theorem KeysIn.map (hv : KeysIn p v) (f : ρ → σ) : KeysIn p (v.map f) :=
  fun q k hne => hv q k fun hnone => hne (by simp [hnone])

theorem KeysIn.of_map {f : ρ → σ} (hv : KeysIn p (v.map f)) : KeysIn p v :=
  fun q k hne => hv q k (by simpa using hne)

theorem KeysIn.merge (hv : KeysIn p v) (hw : KeysIn p w) : KeysIn p (v.merge w) := by
  intro q k hne
  rcases View.merge_key hne with hin | ⟨q', hin⟩
  · exact hv q k hin
  · exact hw q' k hin

end KeysIn

/-- The keys in a value are keys of objects. -/
theorem keysIn_of_objects {h : Heap κ α} {p : κ → Prop} (hkeys : ∀ o ∈ h, ∀ k ∈ o.keys, p k)
    (v : Value α) : KeysIn p (view h v) := by
  intro q k hne
  obtain ⟨n, hn⟩ := Option.ne_none_iff_exists'.mp hne
  obtain ⟨w, hw, -⟩ := Option.map_eq_some_iff.mp hn
  rw [find_concat] at hw
  obtain ⟨c, -, hchild⟩ := Option.bind_eq_some_iff.mp hw
  cases c with
  | atom a => cases hchild
  | ref r =>
      simp only [child] at hchild
      split at hchild
      · rename_i d hd
        refine hkeys _ (List.mem_of_getElem? hd) k (Dict.mem_keys_iff.mpr ?_)
        simp [hchild]
      · cases hchild

/-- A dictionary at `s` can be merged into the one at `d`. -/
structure Mergeable (h : Heap κ α) (d s : Nat) : Prop where
  valid : Valid h
  target : ∃ e, h[d]? = some (.dict e)
  source : ∃ e, h[s]? = some (.dict e)
  unshared : (view h (.ref d)).Unshared
  apart : View.Apart (view h (.ref d)) (view h (.ref s))

/-- The dictionary at `s` has been merged into the one at `d`. -/
structure Merged (h : Heap κ α) (d s : Nat) (h' : Heap κ α) : Prop where
  valid : Valid h'
  grows : h.length ≤ h'.length
  merged : view h' (.ref d) = (view h (.ref d)).merge (view h (.ref s))
  frame : ∀ r < h.length, ¬ (view h (.ref d)).Has r → h'[r]? = h[r]?

/-- The function merges dictionaries in place, from a source whose keys it reads, and does not
raise on keys that it accepts; what is no dictionary is refused or changes nothing. -/
structure DeepMerges (reads accepts : κ → Prop)
    (merge : Heap κ α → Value α → Value α → Option (Heap κ α)) : Prop where
  accepted : ∀ k, accepts k → reads k
  dicts : ∀ h d s, Mergeable h d s → KeysIn reads (view h (.ref s)) →
    Ends (KeysIn accepts (view h (.ref s))) (merge h (.ref d) (.ref s)) (Merged h d s)
  others : ∀ h v w, (∀ r, node h w ≠ .dict r) → merge h v w = none ∨ merge h v w = some h

/-! ### A deep merge -/

variable (accepts : κ → Bool)

/-- One item of the source. -/
def mergeItem (recurse : Heap κ α → Nat → Nat → Option (Heap κ α)) (d : Nat) (h : Heap κ α)
    (k : κ) (found : Value α) : Option (Heap κ α) :=
  match child h (.ref d) (.key k), found with
  | some (.ref t), .ref f =>
      match h[t]?, h[f]? with
      | some (.dict _), some (.dict _) => recurse h t f
      | some (.list l), some (.list m) => some (h.set t (.list (l ++ m)))
      | _, _ => setItem h (.ref d) k found
  | _, _ => setItem h (.ref d) k found

/-- The items of the source one after the other. -/
def mergeItems (recurse : Heap κ α → Nat → Nat → Option (Heap κ α)) (d : Nat) :
    Heap κ α → List (κ × Value α) → Option (Heap κ α)
  | h, [] => some h
  | h, (k, found) :: items =>
      if accepts k then
        (mergeItem recurse d h k found).bind fun h => mergeItems recurse d h items
      else none

/-- The dictionary at `s` merged into the one at `d`, to a depth. -/
def mergeInto : Nat → Heap κ α → Nat → Nat → Option (Heap κ α)
  | 0, _, _, _ => none
  | n + 1, h, d, s =>
      match h[s]? with
      | some (.dict e) => mergeItems accepts (mergeInto n) d h e.items
      | _ => some h

/-- A deep merge.  A dictionary whose containers occur once is no deeper than the heap. -/
def deepMerge (h : Heap κ α) : Value α → Value α → Option (Heap κ α)
  | .ref d, .ref s => mergeInto accepts h.length h d s
  | _, _ => some h

variable {accepts} {h h' h₀ : Heap κ α} {d s t n : Nat} {k : κ} {found : Value α}

/-- What is below a key of the target, and what goes there, are apart from everything else. -/
structure ItemReady (h : Heap κ α) (d : Nat) (k : κ) (found : Value α) : Prop where
  valid : Valid h
  target : ∃ e, h[d]? = some (.dict e)
  live : found.Live h.length
  unshared : ((view h (.ref d)).sub (.key k)).Unshared
  apart : View.Apart ((view h (.ref d)).sub (.key k)) (view h found)
  outside : ¬ (view h found).Has d
  root : ∀ k', ¬ ((view h (.ref d)).sub (.key k')).Has d
  others : ∀ k', k' ≠ k →
    View.Apart ((view h (.ref d)).sub (.key k)) ((view h (.ref d)).sub (.key k'))

/-- One item of the source has been merged. -/
structure ItemDone (h : Heap κ α) (d : Nat) (k : κ) (found : Value α) (h' : Heap κ α) :
    Prop where
  valid : Valid h'
  length : h'.length = h.length
  target : ∃ e, h'[d]? = some (.dict e)
  here : (view h' (.ref d)).sub (.key k) =
    ((view h (.ref d)).sub (.key k)).merge (view h found)
  there : ∀ k', k' ≠ k → (view h' (.ref d)).sub (.key k') = (view h (.ref d)).sub (.key k')
  frame : ∀ r, r ≠ d → ¬ ((view h (.ref d)).sub (.key k)).Has r → h'[r]? = h[r]?

/-- An assigned item. -/
theorem ItemReady.assign (hr : ItemReady h d k found)
    (hreplaces : ((view h (.ref d)).sub (.key k)).merge (view h found) = view h found) :
    Ends True (setItem h (.ref d) k found) (ItemDone h d k found) := by
  obtain ⟨e, he⟩ := hr.target
  obtain ⟨h', hset, ha⟩ := setItem_assigned hr.valid he hr.live k
  have hsole : (view h (.ref d)).Sole [] d := by
    intro q hq
    rcases q with _ | ⟨s, q⟩
    · rfl
    · cases s with
      | key k' => exact absurd ⟨q, hq⟩ (hr.root k')
      | idx i =>
          rw [← View.ident_sub, sub_view_none (child_idx_dict he)] at hq
          cases hq
  have hview := view_assign rfl hsole he ha.self fun r _ hne => ha.other r hne
  have hfound : view h' found = view h found :=
    view_congr fun r hin => ha.other r fun heq => hr.outside (heq ▸ hin)
  rw [hset]
  refine ⟨ha.valid, ha.length, ⟨_, ha.self⟩, ?_, fun k' hk' => ?_, fun r hrd _ => ha.other r hrd⟩
  · rw [hview, hreplaces, hfound, List.nil_append, View.sub_setAt, if_pos rfl]
  · rw [hview, List.nil_append, View.sub_setAt, if_neg (by simpa using hk')]

/-- An item merged below the target. -/
theorem ItemReady.below (hr : ItemReady h d k found)
    (hchild : child h (.ref d) (.key k) = some (.ref t)) (hvalid : Valid h')
    (hlength : h'.length = h.length)
    (hmerged : view h' (.ref t) = (view h (.ref t)).merge (view h found))
    (hframe : ∀ r, ¬ (view h (.ref t)).Has r → h'[r]? = h[r]?) :
    ItemDone h d k found h' := by
  obtain ⟨e, he⟩ := hr.target
  have hsub := sub_view hchild
  have hd : h'[d]? = h[d]? := hframe d (hsub ▸ hr.root k)
  have hsame : ∀ s, child h' (.ref d) s = child h (.ref d) s :=
    child_congr fun r heq => by
      cases heq
      exact hd
  refine ⟨hvalid, hlength, ⟨e, hd.trans he⟩, ?_, fun k' hk' => ?_, fun r _ hout => ?_⟩
  · rw [sub_view ((hsame _).trans hchild), hsub, hmerged]
  · rcases hc : child h (.ref d) (.key k') with _ | c
    · rw [sub_view_none hc, sub_view_none ((hsame _).trans hc)]
    · rw [sub_view hc, sub_view ((hsame _).trans hc)]
      refine view_congr fun r hin => hframe r fun ht => ?_
      exact hr.others k' hk' r (hsub ▸ ht) (sub_view hc ▸ hin)
  · exact hframe r (hsub ▸ hout)

theorem child_idx {l : List (Value α)} (hl : h[t]? = some (.list l)) (i : Nat) :
    child h (.ref t) (.idx i) = l[i]? := by
  simp [child, hl]

theorem child_key_list {l : List (Value α)} (hl : h[t]? = some (.list l)) :
    child h (.ref t) (.key k) = none := by
  simp [child, hl]

theorem view_list_nil {l : List (Value α)} (hl : h[t]? = some (.list l)) :
    view h (.ref t) [] = some (.list t l.length) := by
  simp [view, find, node, hl]

theorem view_dict_nil {e : Dict κ (Value α)} (he : h[t]? = some (.dict e)) :
    view h (.ref t) [] = some (.dict t) := by
  simp [view, find, node, he]

/-- An extended list. -/
theorem view_extend {f : Nat} {l m : List (Value α)} (hl : h[t]? = some (.list l))
    (hm : h[f]? = some (.list m)) (hu : (view h (.ref t)).Unshared)
    (hab : View.Apart (view h (.ref t)) (view h (.ref f))) :
    view (h.set t (.list (l ++ m))) (.ref t) = (view h (.ref t)).merge (view h (.ref f)) := by
  have hself : (h.set t (.list (l ++ m)))[t]? = some (.list (l ++ m)) :=
    List.getElem?_set_self (List.getElem?_eq_some_iff.mp hl).1
  have hframe : ∀ c, ¬ (view h c).Has t → view (h.set t (.list (l ++ m))) c = view h c :=
    fun c hc => view_congr fun r hr => List.getElem?_set_ne fun (heq : t = r) => hc (heq ▸ hr)
  refine View.ext_sub ?_ fun s => ?_
  · rw [view_list_nil hself, View.merge_nil_list (view_list_nil hl) (view_list_nil hm),
      List.length_append]
  · cases s with
    | key k =>
        rw [View.sub_key_merge_list (view_list_nil hl) (view_list_nil hm),
          sub_view_none (child_key_list hself)]
    | idx i =>
        rw [View.sub_merge_list (view_list_nil hl) (view_list_nil hm)]
        have hchild := child_idx hself i
        split
        · rename_i hi
          rw [List.getElem?_append_left hi, ← child_idx hl i] at hchild
          rcases hc : child h (.ref t) (.idx i) with _ | c
          · rw [sub_view_none hc, sub_view_none (hchild.trans hc)]
          · rw [sub_view hc, sub_view (hchild.trans hc)]
            refine hframe c fun hin => ?_
            obtain ⟨q, hq⟩ := hin
            rw [← sub_view hc, View.ident_sub] at hq
            cases hu [] t (ident_view.mpr rfl) _ hq
        · rename_i hi
          rw [List.getElem?_append_right (by omega), ← child_idx hm] at hchild
          rcases hc : child h (.ref f) (.idx (i - l.length)) with _ | c
          · rw [sub_view_none hc, sub_view_none (hchild.trans hc)]
          · rw [sub_view hc, sub_view (hchild.trans hc)]
            refine hframe c fun hin => hab t has_root ?_
            exact View.Has.of_sub (s := .idx (i - l.length)) (sub_view hc ▸ hin)

/-- What is below a key and goes there, where one of the two does not go into the other. -/
theorem ItemReady.replace {Q : Prop} {v : Value α} (hr : ItemReady h d k found)
    (hchild : child h (.ref d) (.key k) = some v)
    (hdict : ∀ t f, node h v = .dict t → node h found ≠ .dict f)
    (hlist : ∀ t n f m, node h v = .list t n → node h found ≠ .list f m) :
    Ends Q (setItem h (.ref d) k found) (ItemDone h d k found) := by
  refine (hr.assign ?_).weaken fun _ => trivial
  rw [sub_view hchild]
  exact View.merge_of_kinds rfl rfl hdict hlist

/-- What one item does. -/
theorem ItemReady.mergeItem {recurse : Heap κ α → Nat → Nat → Option (Heap κ α)} {Q : Prop}
    (hr : ItemReady h d k found)
    (hrec : ∀ t f, child h (.ref d) (.key k) = some (.ref t) → found = .ref f →
      Mergeable h t f → Ends Q (recurse h t f) fun h' =>
        Merged h t f h' ∧ h'.length = h.length) :
    Ends Q (mergeItem recurse d h k found) (ItemDone h d k found) := by
  rcases hchild : child h (.ref d) (.key k) with _ | a | t
  · have hassign : Ends Q (setItem h (.ref d) k found) (ItemDone h d k found) := by
      refine (hr.assign ?_).weaken fun _ => trivial
      rw [sub_view_none hchild, View.merge_nothing_left]
    simpa [PyHeap.mergeItem, hchild] using hassign
  · have hassign := hr.replace (Q := Q) hchild (by simp [node]) (by simp [node])
    simpa [PyHeap.mergeItem, hchild] using hassign
  rcases found with b | f
  · have hassign := hr.replace (Q := Q) hchild (by simp [node]) (by simp [node])
    simpa [PyHeap.mergeItem, hchild] using hassign
  have hu := sub_view hchild ▸ hr.unshared
  have hab := sub_view hchild ▸ hr.apart
  obtain ⟨o, ho⟩ : ∃ o, h[t]? = some o := ⟨_, List.getElem?_eq_getElem (hr.valid.child hchild)⟩
  obtain ⟨o', ho'⟩ : ∃ o', h[f]? = some o' := ⟨_, List.getElem?_eq_getElem hr.live⟩
  rcases o with e | l <;> rcases o' with e' | m
  · have hends := hrec t f hchild rfl ⟨hr.valid, ⟨e, ho⟩, ⟨e', ho'⟩, hu, hab⟩
    have hbelow := hends.mono fun h' hm => hr.below hchild hm.1.valid hm.2 hm.1.merged
      fun r hout => ?_
    · simpa [PyHeap.mergeItem, hchild, ho, ho'] using hbelow
    · rcases Nat.lt_or_ge r h.length with hlt | hge
      · exact hm.1.frame r hlt hout
      · rw [List.getElem?_eq_none hge, List.getElem?_eq_none (hm.2 ▸ hge)]
  · have hassign := hr.replace (Q := Q) hchild (by simp [node, ho']) (by simp [node, ho])
    simpa [PyHeap.mergeItem, hchild, ho, ho'] using hassign
  · have hassign := hr.replace (Q := Q) hchild (by simp [node, ho]) (by simp [node, ho'])
    simpa [PyHeap.mergeItem, hchild, ho, ho'] using hassign
  · have hvalid : Valid (h.set t (.list (l ++ m))) := by
      refine hr.valid.set ⟨fun v hv => ?_, trivial⟩
      rcases List.mem_append.mp hv with hv | hv
      · exact (hr.valid _ (List.mem_of_getElem? ho)).1 v hv
      · exact (hr.valid _ (List.mem_of_getElem? ho')).1 v hv
    have hdone := hr.below hchild hvalid (by simp) (view_extend ho ho' hu hab) fun r hout =>
      List.getElem?_set_ne fun (heq : t = r) => hout (heq ▸ has_root)
    have hextend : PyHeap.mergeItem recurse d h k (.ref f) = some (h.set t (.list (l ++ m))) := by
      simp [PyHeap.mergeItem, hchild, ho, ho']
    rw [hextend]
    exact hdone

/-- The items with the keys in `done` have been merged. -/
structure MergedKeys (h₀ : Heap κ α) (d s : Nat) (done : List κ) (h : Heap κ α) : Prop where
  valid : Valid h
  length : h.length = h₀.length
  target : ∃ e, h[d]? = some (.dict e)
  subs : ∀ k, (view h (.ref d)).sub (.key k) =
    if k ∈ done then
      ((view h₀ (.ref d)).sub (.key k)).merge ((view h₀ (.ref s)).sub (.key k))
    else (view h₀ (.ref d)).sub (.key k)
  frame : ∀ r, ¬ (view h₀ (.ref d)).Has r → h[r]? = h₀[r]?

variable {done : List κ}

theorem Mergeable.mergedKeys_nil (hm : Mergeable h₀ d s) : MergedKeys h₀ d s [] h₀ :=
  ⟨hm.valid, rfl, hm.target, fun _ => by simp, fun _ _ => rfl⟩

/-- What an item puts into the target is as it was in the beginning. -/
theorem MergedKeys.view_found (hi : MergedKeys h₀ d s done h) (hm : Mergeable h₀ d s)
    (hfound : child h₀ (.ref s) (.key k) = some found) :
    view h found = (view h₀ (.ref s)).sub (.key k) := by
  rw [sub_view hfound]
  refine view_congr fun r hr => hi.frame r fun hd => ?_
  exact hm.apart r hd (View.Has.of_sub (s := .key k) (sub_view hfound ▸ hr))

/-- Where a container below a key of the target comes from. -/
theorem MergedKeys.has_cases (hi : MergedKeys h₀ d s done h) {r : Nat}
    (hr : ((view h (.ref d)).sub (.key k)).Has r) :
    ((view h₀ (.ref d)).sub (.key k)).Has r ∨ (view h₀ (.ref s)).Has r := by
  rw [hi.subs k] at hr
  split at hr
  · exact hr.of_merge.imp_right View.Has.of_sub
  · exact .inl hr

theorem MergedKeys.itemReady (hi : MergedKeys h₀ d s done h) (hm : Mergeable h₀ d s)
    (hk : k ∉ done) (hfound : child h₀ (.ref s) (.key k) = some found) :
    ItemReady h d k found := by
  have hview := hi.view_found hm hfound
  have hsub : (view h (.ref d)).sub (.key k) = (view h₀ (.ref d)).sub (.key k) := by
    rw [hi.subs k, if_neg hk]
  refine ⟨hi.valid, hi.target, hi.length ▸ hm.valid.child hfound, ?_, ?_, ?_, ?_, ?_⟩
  · exact hsub ▸ hm.unshared.sub _
  · exact hsub ▸ hview ▸ hm.apart.sub _ _
  · intro hin
    exact hm.apart d has_root (View.Has.of_sub (hview ▸ hin))
  · intro k' hin
    rcases hi.has_cases hin with ⟨q, hq⟩ | hs
    · cases hm.unshared [] d (ident_view.mpr rfl) _ hq
    · exact hm.apart d has_root hs
  · intro k' hne r hr hr'
    rw [hsub] at hr
    obtain ⟨p, hp⟩ := hr
    rcases hi.has_cases hr' with ⟨q, hq⟩ | hs
    · have heq := hm.unshared _ r hp _ hq
      exact hne (by simpa using (List.cons.inj heq).1)
    · exact hm.apart r ⟨_, hp⟩ hs

theorem MergedKeys.itemDone (hi : MergedKeys h₀ d s done h) (hm : Mergeable h₀ d s)
    (hk : k ∉ done) (hfound : child h₀ (.ref s) (.key k) = some found)
    (hdone : ItemDone h d k found h') : MergedKeys h₀ d s (k :: done) h' := by
  refine ⟨hdone.valid, hdone.length.trans hi.length, hdone.target, fun k' => ?_, fun r hr => ?_⟩
  · by_cases hkk : k' = k
    · subst hkk
      rw [hdone.here, hi.view_found hm hfound, hi.subs k', if_neg hk, if_pos (by simp)]
    · rw [hdone.there k' hkk, hi.subs k']
      simp [hkk]
  · have hd : r ≠ d := fun heq => hr (heq ▸ has_root)
    rw [hdone.frame r hd, hi.frame r hr]
    rw [hi.subs k, if_neg hk]
    exact fun hin => hr hin.of_sub

/-- What the items do, one after the other. -/
theorem MergedKeys.mergeItems (recurse : Heap κ α → Nat → Nat → Option (Heap κ α)) {Q : Prop}
    {items : List (κ × Value α)} (hm : Mergeable h₀ d s) (hi : MergedKeys h₀ d s done h)
    (hitems : ∀ x ∈ items, child h₀ (.ref s) (.key x.1) = some x.2)
    (hnew : ∀ x ∈ items, x.1 ∉ done) (hnodup : (items.map Prod.fst).Nodup)
    (haccepts : Q → ∀ x ∈ items, accepts x.1 = true)
    (hrec : ∀ h k t f, view h (.ref t) = (view h₀ (.ref d)).sub (.key k) →
      view h (.ref f) = (view h₀ (.ref s)).sub (.key k) → Mergeable h t f →
      Ends Q (recurse h t f) fun h' => Merged h t f h' ∧ h'.length = h.length) :
    Ends Q (mergeItems accepts recurse d h items)
      (MergedKeys h₀ d s ((items.map Prod.fst).reverse ++ done)) := by
  induction items generalizing h done with
  | nil => exact hi
  | cons x items ih =>
      obtain ⟨k, found⟩ := x
      have hk : k ∉ done := hnew _ List.mem_cons_self
      have hfound : child h₀ (.ref s) (.key k) = some found := hitems _ List.mem_cons_self
      obtain ⟨hfresh, hrest⟩ := List.nodup_cons.mp hnodup
      rw [PyHeap.mergeItems]
      split
      · refine Ends.bind ((hi.itemReady hm hk hfound).mergeItem fun t f hchild hf => ?_)
          fun h' hdone => ?_
        · subst hf
          refine hrec h k t f ?_ (hi.view_found hm hfound)
          rw [← sub_view hchild, hi.subs k, if_neg hk]
        · have hnext := ih (hi.itemDone hm hk hfound hdone)
            (fun y hy => hitems y (List.mem_cons_of_mem _ hy)) (fun y hy => ?_) hrest
            (fun hQ y hy => haccepts hQ y (List.mem_cons_of_mem _ hy))
          · simpa using hnext
          · intro hmem
            rcases List.mem_cons.mp hmem with heq | hold
            · have hin : y.1 ∈ items.map Prod.fst := List.mem_map_of_mem hy
              exact hfresh (heq ▸ hin)
            · exact hnew y (List.mem_cons_of_mem _ hy) hold
      · rename_i hnot
        exact fun hQ => hnot (haccepts hQ _ List.mem_cons_self)

/-- When all keys have been merged, the target has been merged. -/
theorem MergedKeys.merged {e : Dict κ (Value α)} (hi : MergedKeys h₀ d s done h)
    (hm : Mergeable h₀ d s) (he : h₀[s]? = some (.dict e)) (hall : ∀ k ∈ e.keys, k ∈ done) :
    Merged h₀ d s h := by
  obtain ⟨e₀, he₀⟩ := hm.target
  obtain ⟨e₁, he₁⟩ := hi.target
  refine ⟨hi.valid, hi.length.ge, ?_, fun r _ hr => hi.frame r hr⟩
  refine View.ext_sub ?_ fun t => ?_
  · rw [view_dict_nil he₁, View.merge_nil_dict (view_dict_nil he₀) (view_dict_nil he)]
  · rw [View.sub_merge_dict (view_dict_nil he₀) (view_dict_nil he)]
    cases t with
    | key k =>
        rw [hi.subs k]
        split
        · rfl
        · rename_i hk
          have hnone : child h₀ (.ref s) (.key k) = none := by
            rw [child_key he]
            by_contra hne
            exact hk (hall k (Dict.mem_keys_iff.mpr hne))
          rw [sub_view_none hnone]
          rcases hc : child h₀ (.ref d) (.key k) with _ | c
          · rw [sub_view_none hc, View.merge_nothing_left]
          · rw [sub_view hc, View.merge_of_some_none (by simp [view, find]) rfl]
    | idx i =>
        rw [sub_view_none (child_idx_dict he₁), sub_view_none (child_idx_dict he₀),
          sub_view_none (child_idx_dict he), View.merge_nothing_left]

/-! ### The depth of a dictionary -/

/-- There is a container at each path above a container. -/
theorem ident_take {v : Value α} {p : List (Seg κ)} {r : Nat} (hp : (view h v).ident p = some r)
    (i : Nat) : ∃ r', (view h v).ident (p.take i) = some r' := by
  rw [ident_view] at hp
  rcases Nat.lt_or_ge i p.length with hi | hi
  · have hsplit : p.take i ++ p.drop i = p := List.take_append_drop i p
    rw [← hsplit, find_append] at hp
    obtain ⟨c, hc, hrest⟩ := Option.bind_eq_some_iff.mp hp
    have hdrop : p.drop i ≠ [] := by
      intro hnil
      have hlen := congrArg List.length hnil
      simp at hlen
      omega
    obtain ⟨s, q, hq⟩ := List.exists_cons_of_ne_nil hdrop
    rw [hq, find_cons] at hrest
    cases c with
    | atom a => simp [child] at hrest
    | ref r' => exact ⟨r', ident_view.mpr hc⟩
  · rw [List.take_of_length_le hi]
    exact ⟨r, ident_view.mpr hp⟩

/-- A value whose containers occur once is no deeper than the heap. -/
theorem length_lt_of_unshared {v : Value α} {p : List (Seg κ)} {r : Nat} (hh : Valid h)
    (hv : v.Live h.length) (hu : (view h v).Unshared) (hp : (view h v).ident p = some r) :
    p.length < h.length := by
  choose f hf using ident_take hp
  have hcard : (Finset.range (p.length + 1)).card ≤ (Finset.range h.length).card := by
    refine Finset.card_le_card_of_injOn f (fun i _ => ?_) fun i hi j hj heq => ?_
    · exact Finset.mem_coe.mpr (Finset.mem_range.mpr (hh.has_lt hv ⟨_, hf i⟩))
    · have hpath := hu _ _ (hf j) _ (heq ▸ hf i)
      have hlen := congrArg List.length hpath
      simp at hi hj hlen
      omega
  have hle : p.length + 1 ≤ h.length := by simpa using hcard
  omega

/-- Merging down to a depth that the target does not exceed. -/
theorem mergeInto_ends (hm : Mergeable h d s)
    (hdepth : ∀ p r, (view h (.ref d)).ident p = some r → p.length < n) :
    Ends (KeysIn (accepts · = true) (view h (.ref s))) (mergeInto accepts n h d s) fun h' =>
      Merged h d s h' ∧ h'.length = h.length := by
  induction n generalizing h d s with
  | zero => exact absurd (hdepth [] d (ident_view.mpr rfl)) (by simp)
  | succ n ih =>
      obtain ⟨e, he⟩ := hm.source
      have hwf := hm.valid _ (List.mem_of_getElem? he)
      have hitems : ∀ x ∈ e.items, child h (.ref s) (.key x.1) = some x.2 := fun x hx => by
        rw [child_key he]
        exact Dict.get_of_mem_items hwf.2 hx
      have haccepts : KeysIn (accepts · = true) (view h (.ref s)) →
          ∀ x ∈ e.items, accepts x.1 = true := fun hkeys x hx => by
        refine hkeys [] x.1 ?_
        simp [view, find, hitems x hx]
      have hends := hm.mergedKeys_nil.mergeItems (mergeInto accepts n) hm hitems
        (by simp) hwf.2 haccepts fun h' k t f ht hf hm' => ?_
      · rw [mergeInto, he]
        refine hends.mono fun h' hi => ⟨hi.merged hm he fun k hk => ?_, hi.length⟩
        exact List.mem_append_left _ (List.mem_reverse.mpr hk)
      · have hbelow : ∀ p r, (view h' (.ref t)).ident p = some r → p.length < n := by
          intro p r hp
          rw [ht, View.ident_sub] at hp
          have hlen := hdepth _ r hp
          simpa using hlen
        exact (ih hm' hbelow).weaken fun hkeys => hf ▸ hkeys.sub _

theorem deepMerge_deepMerges {reads : κ → Prop} (haccepted : ∀ k, accepts k = true → reads k) :
    DeepMerges reads (fun k : κ => accepts k = true) (α := α) (deepMerge accepts) where
  accepted := haccepted
  dicts h d s hm _ := by
    obtain ⟨e, he⟩ := hm.target
    have hlive : (Value.ref d : Value α).Live h.length := (List.getElem?_eq_some_iff.mp he).1
    exact (mergeInto_ends hm fun p r hp =>
      length_lt_of_unshared hm.valid hlive hm.unshared hp).mono fun h' hh => hh.1
  others h v w hw := by
    cases v with
    | atom a => exact .inr rfl
    | ref d =>
        cases w with
        | atom a => exact .inr rfl
        | ref s =>
            rw [deepMerge]
            cases h.length with
            | zero => exact .inl rfl
            | succ n =>
                rw [mergeInto]
                split
                · rename_i e he
                  exact absurd (node_eq_dict_iff.mpr ⟨rfl, e, he⟩) (hw s)
                · exact .inr rfl

end PyHeap
