import Mathlib.Algebra.BigOperators.Group.List.Basic
import Mathlib.Algebra.Ring.Nat

/-!
# Conveyors

A line of stations that items pass one after the other.  A counter counts what it is handed
and hands it on at once.  A keeper holds what it is handed, and hands it on later or loses
it, in any order.

`Balanced` says that each station was handed what the one before it handed on; all that can
happen to a line keeps it (`balanced_put`, `balanced_handOn`, `balanced_lose`).  From it,
what is counted first is counted again later on or stays in between (`Balanced.between`),
and no counter is ahead of one before it (`Balanced.pairwise_counts`).
-/

namespace Conveyor

variable {τ κ α : Type*}

/-- A station; a keeper knows how many items it handed on and lost. -/
inductive Station (τ κ α : Type*)
  | counter (tag : τ) (count : Nat)
  | keeper (name : κ) (held : List α) (handedOn lost : Nat)
  deriving DecidableEq, Repr

namespace Station

/-- What the station is, whatever happens to the line. -/
def label : Station τ κ α → τ ⊕ κ
  | .counter tag _ => .inl tag
  | .keeper name _ _ _ => .inr name

/-- Nothing has happened at the station. -/
def Fresh : Station τ κ α → Prop
  | .counter _ count => count = 0
  | .keeper _ held handedOn lost => held = [] ∧ handedOn = 0 ∧ lost = 0

/-- How many items the station was handed. -/
def taken : Station τ κ α → Nat
  | .counter _ count => count
  | .keeper _ held handedOn lost => held.length + lost + handedOn

/-- How many items the station handed on. -/
def given : Station τ κ α → Nat
  | .counter _ count => count
  | .keeper _ _ handedOn _ => handedOn

/-- How many items stay at the station, or were lost there. -/
def stays : Station τ κ α → Nat
  | .counter _ _ => 0
  | .keeper _ held _ lost => held.length + lost

/-- How many items the station holds, if it has the property. -/
def heldIf (p : κ → Bool) : Station τ κ α → Nat
  | .counter _ _ => 0
  | .keeper name held _ _ => if p name then held.length else 0

/-- How many items were lost at the station, if it has the property. -/
def lostIf (p : κ → Bool) : Station τ κ α → Nat
  | .counter _ _ => 0
  | .keeper name _ _ lost => if p name then lost else 0

theorem eq_counter {s : Station τ κ α} {tag : τ} (h : s.label = .inl tag) :
    ∃ count, s = .counter tag count := by
  cases s with
  | counter tag' count => exact ⟨count, by rw [Sum.inl.inj h]⟩
  | keeper name held handedOn lost => cases h

theorem eq_keeper {s : Station τ κ α} {name : κ} (h : s.label = .inr name) :
    ∃ held handedOn lost, s = .keeper name held handedOn lost := by
  cases s with
  | counter tag count => cases h
  | keeper name' held handedOn lost => exact ⟨held, handedOn, lost, by rw [Sum.inr.inj h]⟩

theorem taken_eq (s : Station τ κ α) : s.taken = s.stays + s.given := by
  cases s with
  | counter tag count => exact (Nat.zero_add count).symm
  | keeper name held handedOn lost => rfl

end Station

/-! ### What can happen to a line -/

/-- The line is handed an item; the second part is what leaves the line. -/
def put (a : α) : List (Station τ κ α) → List (Station τ κ α) × Option α
  | [] => ([], some a)
  | .counter tag count :: rest => (.counter tag (count + 1) :: (put a rest).1, (put a rest).2)
  | .keeper name held handedOn lost :: rest =>
      (.keeper name (held ++ [a]) handedOn lost :: rest, none)

/-- The keeper at `i` hands on its item at `j`, as `a`. -/
def handOn (j : Nat) (a : α) :
    Nat → List (Station τ κ α) → Option (List (Station τ κ α) × Option α)
  | 0, .keeper name held handedOn lost :: rest =>
      if j < held.length then
        some (.keeper name (held.eraseIdx j) (handedOn + 1) lost :: (put a rest).1, (put a rest).2)
      else none
  | i + 1, s :: rest => (handOn j a i rest).map fun x => (s :: x.1, x.2)
  | _, _ => none

/-- The keeper at `i` loses its item at `j`. -/
def lose (j : Nat) : Nat → List (Station τ κ α) → Option (List (Station τ κ α))
  | 0, .keeper name held handedOn lost :: rest =>
      if j < held.length then
        some (.keeper name (held.eraseIdx j) handedOn (lost + 1) :: rest)
      else none
  | i + 1, s :: rest => (lose j i rest).map (s :: ·)
  | _, _ => none

/-- The item at `j` of the keeper at `i`, with the keeper's name. -/
def itemAt (i j : Nat) (stations : List (Station τ κ α)) : Option (κ × α) :=
  match stations[i]? with
  | some (.keeper name held _ _) => held[j]?.map fun a => (name, a)
  | _ => none

/-- The counters, in the order of the line. -/
def counts : List (Station τ κ α) → List (τ × Nat)
  | [] => []
  | .counter tag count :: rest => (tag, count) :: counts rest
  | .keeper _ _ _ _ :: rest => counts rest

/-- How many items the keepers with the property hold. -/
def heldBy (p : κ → Bool) (line : List (Station τ κ α)) : Nat := (line.map (·.heldIf p)).sum

/-- How many items were lost by the keepers with the property. -/
def lostBy (p : κ → Bool) (line : List (Station τ κ α)) : Nat := (line.map (·.lostIf p)).sum

variable {fed out i j : Nat} {a : α} {line line' before after : List (Station τ κ α)}
  {left : Option α}

/-- What `handOn` does to a line. -/
theorem handOn_eq_some (h : handOn j a i line = some (line', left)) :
    ∃ before name held handedOn lost rest,
      line = before ++ .keeper name held handedOn lost :: rest ∧ before.length = i ∧
      j < held.length ∧
      line' = before ++ .keeper name (held.eraseIdx j) (handedOn + 1) lost :: (put a rest).1 ∧
      left = (put a rest).2 := by
  induction line generalizing i line' with
  | nil => cases i <;> cases h
  | cons s rest ih =>
      cases i with
      | zero =>
          cases s with
          | counter tag count => cases h
          | keeper name held handedOn lost =>
              obtain ⟨hj, heq⟩ := Option.ite_none_right_eq_some.mp h
              obtain ⟨rfl, rfl⟩ := Prod.mk.inj (Option.some.inj heq)
              exact ⟨[], name, held, handedOn, lost, rest, rfl, rfl, hj, rfl, rfl⟩
      | succ i =>
          obtain ⟨⟨line₁, left₁⟩, hx, heq⟩ := Option.map_eq_some_iff.mp h
          obtain ⟨rfl, rfl⟩ := Prod.mk.inj heq
          obtain ⟨before, name, held, handedOn, lost, tail, rfl, rfl, hj, rfl, rfl⟩ := ih hx
          exact ⟨s :: before, name, held, handedOn, lost, tail, rfl, rfl, hj, rfl, rfl⟩

/-- What `lose` does to a line. -/
theorem lose_eq_some (h : lose j i line = some line') :
    ∃ before name held handedOn lost rest,
      line = before ++ .keeper name held handedOn lost :: rest ∧ before.length = i ∧
      j < held.length ∧
      line' = before ++ .keeper name (held.eraseIdx j) handedOn (lost + 1) :: rest := by
  induction line generalizing i line' with
  | nil => cases i <;> cases h
  | cons s rest ih =>
      cases i with
      | zero =>
          cases s with
          | counter tag count => cases h
          | keeper name held handedOn lost =>
              obtain ⟨hj, heq⟩ := Option.ite_none_right_eq_some.mp h
              obtain rfl := Option.some.inj heq
              exact ⟨[], name, held, handedOn, lost, rest, rfl, rfl, hj, rfl⟩
      | succ i =>
          obtain ⟨line₁, hx, rfl⟩ := Option.map_eq_some_iff.mp h
          obtain ⟨before, name, held, handedOn, lost, tail, rfl, rfl, hj, rfl⟩ := ih hx
          exact ⟨s :: before, name, held, handedOn, lost, tail, rfl, rfl, hj, rfl⟩

/-! ### Balance -/

/-- Of `fed` items that the line was handed `out` left it, and each station was handed what
the one before it handed on. -/
def Balanced (fed : Nat) : List (Station τ κ α) → Nat → Prop
  | [], out => fed = out
  | s :: rest, out => s.taken = fed ∧ Balanced s.given rest out

/-- A line where nothing has happened. -/
theorem balanced_of_fresh (h : ∀ s ∈ line, Station.Fresh s) : Balanced 0 line 0 := by
  induction line with
  | nil => rfl
  | cons s rest ih =>
      obtain ⟨hs, hrest⟩ := List.forall_mem_cons.mp h
      cases s with
      | counter tag count =>
          obtain rfl : count = 0 := hs
          exact ⟨rfl, ih hrest⟩
      | keeper name held handedOn lost =>
          obtain ⟨rfl, rfl, rfl⟩ := hs
          exact ⟨rfl, ih hrest⟩

/-- The parts of a balanced line are balanced. -/
theorem balanced_append_iff : Balanced fed (before ++ after) out ↔
    ∃ mid, Balanced fed before mid ∧ Balanced mid after out := by
  induction before generalizing fed with
  | nil =>
      constructor
      · exact fun h => ⟨fed, rfl, h⟩
      · rintro ⟨mid, rfl, h⟩
        exact h
  | cons s rest ih =>
      rw [List.cons_append, Balanced, ih]
      constructor
      · intro h
        obtain ⟨htaken, mid, hbefore, hafter⟩ := h
        exact ⟨mid, ⟨htaken, hbefore⟩, hafter⟩
      · intro h
        obtain ⟨mid, ⟨htaken, hbefore⟩, hafter⟩ := h
        exact ⟨htaken, mid, hbefore, hafter⟩

/-- **A balanced line takes an item** and stays balanced. -/
theorem balanced_put (a : α) (h : Balanced fed line out) :
    Balanced (fed + 1) (put a line).1 (out + (put a line).2.toList.length) := by
  induction line generalizing fed with
  | nil => exact congrArg (· + 1) h
  | cons s rest ih =>
      obtain ⟨htaken, hrest⟩ := h
      cases s with
      | counter tag count => exact ⟨congrArg (· + 1) htaken, ih hrest⟩
      | keeper name held handedOn lost =>
          refine ⟨?_, hrest⟩
          simp only [Station.taken, List.length_append, List.length_singleton] at htaken ⊢
          omega

/-- **A keeper hands an item on.** -/
theorem balanced_handOn (h : Balanced fed line out)
    (hstep : handOn j a i line = some (line', left)) :
    Balanced fed line' (out + left.toList.length) := by
  obtain ⟨before, name, held, handedOn, lost, rest, rfl, -, hj, rfl, rfl⟩ :=
    handOn_eq_some hstep
  obtain ⟨mid, hbefore, htaken, hrest⟩ := balanced_append_iff.mp h
  refine balanced_append_iff.mpr ⟨mid, hbefore, ?_, balanced_put a hrest⟩
  have hlen := List.length_eraseIdx_of_lt hj
  simp only [Station.taken] at htaken ⊢
  omega

/-- **A keeper loses an item.** -/
theorem balanced_lose (h : Balanced fed line out) (hstep : lose j i line = some line') :
    Balanced fed line' out := by
  obtain ⟨before, name, held, handedOn, lost, rest, rfl, -, hj, rfl⟩ := lose_eq_some hstep
  obtain ⟨mid, hbefore, htaken, hrest⟩ := balanced_append_iff.mp h
  refine balanced_append_iff.mpr ⟨mid, hbefore, ?_, hrest⟩
  have hlen := List.length_eraseIdx_of_lt hj
  simp only [Station.taken] at htaken ⊢
  omega

/-- What was handed to a line stays there or left it. -/
theorem Balanced.eq_add (h : Balanced fed line out) :
    fed = (line.map Station.stays).sum + out := by
  induction line generalizing fed with
  | nil => exact h.trans (Nat.zero_add out).symm
  | cons s rest ih =>
      obtain ⟨htaken, hrest⟩ := h
      rw [← htaken, s.taken_eq, ih hrest, List.map_cons, List.sum_cons, Nat.add_assoc]

/-- **Between two counters** nothing appears or disappears. -/
theorem Balanced.between {tag tag' : τ} {count count' : Nat} {mid : List (Station τ κ α)}
    (h : Balanced fed (before ++ .counter tag count :: (mid ++ .counter tag' count' :: after))
      out) :
    count = (mid.map Station.stays).sum + count' := by
  obtain ⟨m, -, -, hrest⟩ := balanced_append_iff.mp h
  obtain ⟨m', hmid, hcount', -⟩ := balanced_append_iff.mp hrest
  rw [show count' = m' from hcount']
  exact hmid.eq_add

/-- **After a counter** nothing disappears. -/
theorem Balanced.onward {tag : τ} {count : Nat}
    (h : Balanced fed (before ++ .counter tag count :: after) out) :
    count = (after.map Station.stays).sum + out := by
  obtain ⟨m, -, -, hrest⟩ := balanced_append_iff.mp h
  exact hrest.eq_add

theorem Balanced.counts_le (h : Balanced fed line out) : ∀ x ∈ counts line, x.2 ≤ fed := by
  induction line generalizing fed with
  | nil => exact fun x hx => absurd hx List.not_mem_nil
  | cons s rest ih =>
      obtain ⟨htaken, hrest⟩ := h
      have hgiven : s.given ≤ fed := by
        rw [← htaken, s.taken_eq]
        exact Nat.le_add_left _ _
      have hlater : ∀ x ∈ counts rest, x.2 ≤ fed := fun x hx =>
        Nat.le_trans (ih hrest x hx) hgiven
      cases s with
      | counter tag count => exact List.forall_mem_cons.mpr ⟨hgiven, hlater⟩
      | keeper name held handedOn lost => exact hlater

/-- **No counter is ahead** of one before it. -/
theorem Balanced.pairwise_counts (h : Balanced fed line out) :
    (counts line).Pairwise fun x y => y.2 ≤ x.2 := by
  induction line generalizing fed with
  | nil => exact List.Pairwise.nil
  | cons s rest ih =>
      obtain ⟨-, hrest⟩ := h
      cases s with
      | counter tag count => exact List.Pairwise.cons hrest.counts_le (ih hrest)
      | keeper name held handedOn lost => exact ih hrest

/-! ### Labels and losses -/

theorem labels_put (a : α) (line : List (Station τ κ α)) :
    (put a line).1.map Station.label = line.map Station.label := by
  induction line with
  | nil => rfl
  | cons s rest ih =>
      cases s with
      | counter tag count => exact congrArg (Sum.inl tag :: ·) ih
      | keeper name held handedOn lost => rfl

theorem labels_handOn (hstep : handOn j a i line = some (line', left)) :
    line'.map Station.label = line.map Station.label := by
  obtain ⟨before, name, held, handedOn, lost, rest, rfl, -, -, rfl, -⟩ := handOn_eq_some hstep
  simp only [List.map_append, List.map_cons, labels_put]
  rfl

theorem labels_lose (hstep : lose j i line = some line') :
    line'.map Station.label = line.map Station.label := by
  obtain ⟨before, name, held, handedOn, lost, rest, rfl, -, -, rfl⟩ := lose_eq_some hstep
  simp only [List.map_append, List.map_cons]
  rfl

theorem lostBy_of_fresh (p : κ → Bool) (h : ∀ s ∈ line, Station.Fresh s) : lostBy p line = 0 := by
  apply List.sum_eq_zero_iff_forall_eq_nat.mpr
  intro n hn
  obtain ⟨s, hs, rfl⟩ := List.mem_map.mp hn
  cases s with
  | counter tag count => rfl
  | keeper name held handedOn lost =>
      obtain ⟨-, -, rfl⟩ := h _ hs
      exact ite_self 0

theorem heldBy_append (p : κ → Bool) (before after : List (Station τ κ α)) :
    heldBy p (before ++ after) = heldBy p before + heldBy p after := by
  simp only [heldBy, List.map_append, List.sum_append]

theorem lostBy_append (p : κ → Bool) (before after : List (Station τ κ α)) :
    lostBy p (before ++ after) = lostBy p before + lostBy p after := by
  simp only [lostBy, List.map_append, List.sum_append]

theorem lostBy_put (p : κ → Bool) (a : α) (line : List (Station τ κ α)) :
    lostBy p (put a line).1 = lostBy p line := by
  induction line with
  | nil => rfl
  | cons s rest ih =>
      cases s with
      | counter tag count => exact congrArg (0 + ·) ih
      | keeper name held handedOn lost => rfl

theorem lostBy_handOn (p : κ → Bool) (hstep : handOn j a i line = some (line', left)) :
    lostBy p line' = lostBy p line := by
  obtain ⟨before, name, held, handedOn, lost, rest, rfl, -, -, rfl, -⟩ := handOn_eq_some hstep
  rw [lostBy_append, lostBy_append]
  exact congrArg (fun n => lostBy p before + ((if p name then lost else 0) + n))
    (lostBy_put p a rest)

/-- **A loss is counted** where it happens. -/
theorem lostBy_lose (p : κ → Bool) {name : κ} (hitem : itemAt i j line = some (name, a))
    (hstep : lose j i line = some line') :
    lostBy p line' = lostBy p line + if p name then 1 else 0 := by
  obtain ⟨before, name', held, handedOn, lost, rest, rfl, rfl, -, rfl⟩ := lose_eq_some hstep
  obtain rfl : name' = name := by
    simp only [itemAt, List.getElem?_append_right (Nat.le_refl _), Nat.sub_self,
      List.getElem?_cons_zero] at hitem
    obtain ⟨b, -, hb⟩ := Option.map_eq_some_iff.mp hitem
    exact (Prod.mk.inj hb).1
  rw [lostBy_append, lostBy_append]
  simp only [lostBy, List.map_cons, List.sum_cons, Station.lostIf]
  split <;> omega

/-- Without keepers of the property nothing is held or lost by them. -/
theorem heldBy_lostBy_eq_zero (p : κ → Bool)
    (h : ∀ name, .inr name ∈ line.map Station.label → p name = false) :
    heldBy p line = 0 ∧ lostBy p line = 0 := by
  induction line with
  | nil => exact ⟨rfl, rfl⟩
  | cons s rest ih =>
      obtain ⟨hheld, hlost⟩ := ih fun name hname => h name (List.mem_cons_of_mem _ hname)
      rw [heldBy, lostBy, List.map_cons, List.sum_cons, List.map_cons, List.sum_cons]
      cases s with
      | counter tag count => exact ⟨(Nat.zero_add _).trans hheld, (Nat.zero_add _).trans hlost⟩
      | keeper name held handedOn lost =>
          have hname : p name = false := h name List.mem_cons_self
          simp only [Station.heldIf, Station.lostIf, hname]
          exact ⟨(Nat.zero_add _).trans hheld, (Nat.zero_add _).trans hlost⟩

theorem counts_append (before after : List (Station τ κ α)) :
    counts (before ++ after) = counts before ++ counts after := by
  induction before with
  | nil => rfl
  | cons s rest ih =>
      cases s with
      | counter tag count => exact congrArg ((tag, count) :: ·) ih
      | keeper name held handedOn lost => exact ih

theorem mem_counts (before : List (Station τ κ α)) (tag : τ) (count : Nat)
    (after : List (Station τ κ α)) :
    (tag, count) ∈ counts (before ++ .counter tag count :: after) := by
  rw [counts_append]
  exact List.mem_append_right _ List.mem_cons_self

/-- The counters have the tags among the labels. -/
theorem tags_counts (line : List (Station τ κ α)) :
    (counts line).map Prod.fst = (line.map Station.label).filterMap Sum.getLeft? := by
  induction line with
  | nil => rfl
  | cons s rest ih =>
      cases s with
      | counter tag count => exact congrArg (tag :: ·) ih
      | keeper name held handedOn lost => exact ih

end Conveyor
