import RayOnGolem.Lib.LockTable
import RayOnGolem.Lib.Objects

/-!
# Tasks and the locks they are at

A program keeps its tasks in a list, in the order of their creation, and a
task's own program counter tells where it stands with respect to a lock table:
outside, at the lock of a key (waiting for it or just past it), or inside of its
critical section.  `Follows f L l` says that the lock table `L` agrees with what
the program counters of the tasks `l` say under `f`.

Each operation of the table has a rule for the task that performs it.  With
them a program that only enters a lock from outside and only goes inside while
it holds the lock follows its table, and `Follows.mutex` is the mutual exclusion
of its critical sections.
-/

namespace LockTable

variable {κ α : Type*}

/-- Where a program counter says that its task is. -/
inductive Position (κ : Type*)
  | outside
  | at (key : κ)
  | inside (key : κ)
  deriving DecidableEq, Repr

/-- The position agrees with the place in the table. -/
def Position.Agrees : Position κ → Option (κ × Nat × Bool) → Prop
  | .outside, p => p = none
  | .at k, p => ∃ s b, p = some (k, s, b)
  | .inside k, p => ∃ s, p = some (k, s, true)

/-- The lock table agrees with the program counters; who is no task is outside. -/
structure Follows (f : α → Position κ) (L : LockTable κ) (l : List α) : Prop where
  wf : Wf L
  agrees : ∀ (t : Nat) (x : α), l[t]? = some x → (f x).Agrees (L.phase t).place
  outside : ∀ t, l.length ≤ t → (L.phase t).place = none

variable {f : α → Position κ} {L M : LockTable κ} {l : List α} {t : Nat} {x y : α} {k : κ}

theorem follows_empty (f : α → Position κ) : Follows f (empty : LockTable κ) [] :=
  ⟨wf_empty, by simp, fun _ _ => rfl⟩

/-- The general step of a task: it and the table change, the others stay. -/
theorem Follows.set (h : Follows f L l) (ht : l[t]? = some x) (hwf : Wf M)
    (hself : (f y).Agrees (M.phase t).place)
    (hother : ∀ u, u ≠ t → (M.phase u).place = (L.phase u).place) :
    Follows f M (l.set t y) := by
  obtain ⟨hlt, -⟩ := List.getElem?_eq_some_iff.mp ht
  refine ⟨hwf, ?_, ?_⟩
  · intro u z hz
    rcases Objects.set_cases hz with ⟨rfl, rfl, -⟩ | ⟨hne, hold⟩
    · exact hself
    · rw [hother u hne]
      exact h.agrees u z hold
  · intro u hu
    rw [List.length_set] at hu
    rw [hother u (by omega)]
    exact h.outside u hu

/-- The table changes, and no task moves. -/
theorem Follows.same (h : Follows f L l) (hwf : Wf M)
    (hplace : ∀ u, (M.phase u).place = (L.phase u).place) : Follows f M l := by
  refine ⟨hwf, ?_, ?_⟩
  · intro u z hz
    rw [hplace u]
    exact h.agrees u z hz
  · intro u hu
    rw [hplace u]
    exact h.outside u hu

/-- A task that is created outside. -/
theorem Follows.append (h : Follows f L l) (hy : f y = .outside) : Follows f L (l ++ [y]) := by
  refine ⟨h.wf, ?_, ?_⟩
  · intro u z hz
    rcases Objects.append_cases hz with hold | ⟨rfl, rfl⟩
    · exact h.agrees u z hold
    · rw [hy]
      exact h.outside l.length (Nat.le_refl _)
  · intro u hu
    rw [List.length_append] at hu
    exact h.outside u (by omega)

/-- A task goes on and stays where it is. -/
theorem Follows.stay (h : Follows f L l) (ht : l[t]? = some x) (hy : f y = f x) :
    Follows f L (l.set t y) := by
  refine h.set ht h.wf ?_ (fun _ _ => rfl)
  rw [hy]
  exact h.agrees t x ht

/-- A task asks for a lock. -/
theorem Follows.enter [DecidableEq κ] (h : Follows f L l) (ht : l[t]? = some x)
    (hx : f x = .outside) (hy : f y = .at k) : Follows f (L.enter t k) (l.set t y) := by
  have hidle := h.agrees t x ht
  rw [hx] at hidle
  refine h.set ht (h.wf.enter (Phase.place_eq_none.mp hidle)) ?_ fun u hu => place_enter_ne L k hu
  rw [hy]
  exact place_enter_self L t k

/-- A task that is created asks for a lock at once. -/
theorem Follows.enterNew [DecidableEq κ] (h : Follows f L l) (hy : f y = .at k) :
    Follows f (L.enter l.length k) (l ++ [y]) := by
  have hidle := h.outside l.length (Nat.le_refl _)
  refine ⟨h.wf.enter (Phase.place_eq_none.mp hidle), ?_, ?_⟩
  · intro u z hz
    rcases Objects.append_cases hz with hold | ⟨rfl, rfl⟩
    · obtain ⟨hlt, -⟩ := List.getElem?_eq_some_iff.mp hold
      rw [place_enter_ne L k (by omega)]
      exact h.agrees u z hold
    · rw [hy]
      exact place_enter_self L l.length k
  · intro u hu
    rw [List.length_append, List.length_singleton] at hu
    rw [place_enter_ne L k (by omega)]
    exact h.outside u (by omega)

/-- A waiter gets the lock. -/
theorem Follows.resume (h : Follows f L l) (ht : l[t]? = some x) (hx : f x = .at k)
    (hres : L.resume t = some M) : Follows f M l := by
  obtain ⟨⟨k', s, hwait, hhold⟩, hother⟩ := place_resume hres
  have hself : (f x).Agrees (M.phase t).place := by
    obtain ⟨s', b, hplace⟩ : ∃ s' b, (L.phase t).place = some (k, s', b) := by
      have := h.agrees t x ht
      rwa [hx] at this
    obtain rfl : k' = k := by
      rw [hwait] at hplace
      simpa using congrArg (Option.map Prod.fst) hplace
    rw [hx, hhold]
    exact ⟨s, true, rfl⟩
  refine ⟨h.wf.resume hres, ?_, ?_⟩
  · intro u z hz
    by_cases hu : u = t
    · subst hu
      obtain rfl : x = z := Option.some.inj (ht.symm.trans hz)
      exact hself
    · rw [hother u hu]
      exact h.agrees u z hz
  · intro u hu
    obtain ⟨hlt, -⟩ := List.getElem?_eq_some_iff.mp ht
    rw [hother u (by omega)]
    exact h.outside u hu

/-- A task that holds its lock goes inside. -/
theorem Follows.goInside (h : Follows f L l) (ht : l[t]? = some x) (hx : f x = .at k)
    {k' : κ} {s : Nat} (hhold : L.phase t = .holding k' s) (hy : f y = .inside k) :
    Follows f L (l.set t y) := by
  refine h.set ht h.wf ?_ (fun _ _ => rfl)
  have hself := h.agrees t x ht
  rw [hx, hhold] at hself
  obtain ⟨s', b, hplace⟩ := hself
  obtain ⟨rfl, -, -⟩ : k' = k ∧ s = s' ∧ true = b := by simpa [Phase.place] using hplace
  rw [hy, hhold]
  exact ⟨s, rfl⟩

/-- A task leaves its lock. -/
theorem Follows.exit (h : Follows f L l) (ht : l[t]? = some x) (hexit : L.exit t = some M)
    (hy : f y = .outside) : Follows f M (l.set t y) := by
  obtain ⟨-, hidle, hother⟩ := place_exit hexit
  refine h.set ht (h.wf.exit hexit) ?_ hother
  rw [hy]
  exact Phase.place_eq_none.mpr hidle

/-- A task leaves its lock and asks for another one. -/
theorem Follows.exitEnter [DecidableEq κ] (h : Follows f L l) (ht : l[t]? = some x)
    (hexit : L.exit t = some M) (hy : f y = .at k) : Follows f (M.enter t k) (l.set t y) := by
  obtain ⟨-, hidle, hother⟩ := place_exit hexit
  refine h.set ht ((h.wf.exit hexit).enter hidle) ?_ fun u hu => ?_
  · rw [hy]
    exact place_enter_self M t k
  · rw [place_enter_ne M k hu]
    exact hother u hu

/-- A waiter is cancelled. -/
theorem Follows.cancel (h : Follows f L l) (t : Nat) : Follows f (L.cancel t) l :=
  h.same (h.wf.cancel t) (place_cancel L t)

/-- A cancelled waiter resumes and ends. -/
theorem Follows.unwind (h : Follows f L l) (ht : l[t]? = some x) (hun : L.unwind t = some M)
    (hy : f y = .outside) : Follows f M (l.set t y) := by
  obtain ⟨-, hidle, hother⟩ := place_unwind hun
  refine h.set ht (h.wf.unwind hun) ?_ hother
  rw [hy]
  exact Phase.place_eq_none.mpr hidle

/-- An entry nobody uses is deleted. -/
theorem Follows.cleanup [DecidableEq κ] (h : Follows f L l) (k : κ) : Follows f (L.cleanup k) l :=
  h.same (h.wf.cleanup k) fun u => by rw [phase_cleanup]

/-- A task that is inside holds the lock. -/
theorem Follows.holding (h : Follows f L l) (ht : l[t]? = some x) (hx : f x = .inside k) :
    ∃ s, L.phase t = .holding k s := by
  have hself := h.agrees t x ht
  rw [hx] at hself
  obtain ⟨s, hs⟩ := hself
  exact ⟨s, Phase.place_eq_holding.mp hs⟩

/-- **Mutual exclusion**: two tasks are never inside for the same key. -/
theorem Follows.mutex (h : Follows f L l) {u : Nat} (ht : l[t]? = some x) (hu : l[u]? = some y)
    (hx : f x = .inside k) (hy : f y = .inside k) : t = u := by
  obtain ⟨s, hs⟩ := h.holding ht hx
  obtain ⟨s', hs'⟩ := h.holding hu hy
  exact h.wf.mutex hs hs'

end LockTable
