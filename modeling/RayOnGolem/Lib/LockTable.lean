import Mathlib.Data.List.Nodup
import Mathlib.Logic.Function.Basic

/-!
# A dictionary of asyncio semaphores

A table of locks kept in a `defaultdict(asyncio.Semaphore)`: reading a missing
key creates a fresh semaphore with one permit under it, entries may be deleted
and recreated, and a task that looked up a semaphore keeps that object whatever
happens to the entry.

The semaphore is CPython's (3.11 and later).  `acquire` takes the permit at
once when the semaphore is not `locked`; otherwise it appends a future to the
waiters and suspends.  `release` hands the permit to the first waiter whose
future is still pending.  Cancelling a waiter cancels its pending future; a
waiter that was woken and is cancelled before it resumes gives the permit back.

Each task is in one `Phase` with respect to the table: it waits for a
semaphore it looked up under some key, holds one, or neither.  The main
results, for every sequence of operations and cancellations:

* `Wf` is preserved by every operation but `clear`, deletions included, as long
  as an entry is only deleted when its semaphore is not `locked`;
* `Wf.current` -- a semaphore that a task holds, or waits for without having
  been cancelled, is the current entry of its key;
* `Wf.mutex` -- two tasks never hold semaphores of the same key.
-/

namespace LockTable

/-- A waiter's future: not yet set, set by a release, or cancelled. -/
inductive Fut
  | pending
  | woken
  | cancelled
  deriving DecidableEq, Repr

/-- Where a task stands: outside, suspended in `acquire` of the semaphore `sem`
it looked up under `key`, or between `acquire` and `release` of it. -/
inductive Phase (κ : Type*)
  | idle
  | waiting (key : κ) (sem : Nat) (fut : Fut)
  | holding (key : κ) (sem : Nat)
  deriving DecidableEq, Repr

/-- A semaphore object: its counter and the tasks in its waiters deque. -/
structure Semaphore where
  value : Nat := 1
  waiters : List Nat := []
  deriving DecidableEq, Repr

end LockTable

open LockTable

/-- Semaphore objects, the dictionary that names some of them, and the phase of
every task. -/
structure LockTable (κ : Type*) where
  sems : Nat → Semaphore
  fresh : Nat
  dict : κ → Option Nat
  phase : Nat → Phase κ

namespace LockTable

variable {κ : Type*}

/-- The table before anything happened. -/
def empty : LockTable κ where
  sems := fun _ => {}
  fresh := 0
  dict := fun _ => none
  phase := fun _ => .idle

/-- `locks[k]`, which creates a missing entry. -/
def getitem [DecidableEq κ] (L : LockTable κ) (k : κ) : LockTable κ × Nat :=
  match L.dict k with
  | some s => (L, s)
  | none =>
      ({ L with fresh := L.fresh + 1, dict := Function.update L.dict k (some L.fresh) }, L.fresh)

/-- A waiter whose future is not cancelled. -/
def Phase.live : Phase κ → Bool
  | .waiting _ _ f => f != .cancelled
  | _ => false

/-- A waiter whose future is still to be set. -/
def Phase.pending : Phase κ → Bool
  | .waiting _ _ f => f == .pending
  | _ => false

/-- The phase of a waiter after a release set its future. -/
def Phase.wake : Phase κ → Phase κ
  | .waiting k s _ => .waiting k s .woken
  | p => p

/-- `Semaphore.locked()`. -/
def locked (L : LockTable κ) (s : Nat) : Bool :=
  (L.sems s).value == 0 || (L.sems s).waiters.any (fun t => (L.phase t).live)

/-- Store semaphore `s` as `x` and task `t` in phase `p`. -/
def set (L : LockTable κ) (s : Nat) (x : Semaphore) (t : Nat) (p : Phase κ) : LockTable κ :=
  { L with sems := Function.update L.sems s x, phase := Function.update L.phase t p }

/-- `Semaphore._wake_up_next()`. -/
def wakeUpNext (L : LockTable κ) (s : Nat) : LockTable κ :=
  match (L.sems s).waiters.find? (fun t => (L.phase t).pending) with
  | some t => L.set s { L.sems s with value := (L.sems s).value - 1 } t (L.phase t).wake
  | none => L

/-- `async with locks[k]` up to its first suspension: the lookup, then either
the permit or a place among the waiters. -/
def enter [DecidableEq κ] (L : LockTable κ) (t : Nat) (k : κ) : LockTable κ :=
  let (L, s) := L.getitem k
  if L.locked s then
    L.set s { L.sems s with waiters := (L.sems s).waiters ++ [t] } t (.waiting k s .pending)
  else
    L.set s { L.sems s with value := (L.sems s).value - 1 } t (.holding k s)

/-- A woken waiter resumes inside `acquire` and gets the lock.  The closing
`if self._value > 0: self._wake_up_next()` of `acquire` is kept. -/
def resume (L : LockTable κ) (t : Nat) : Option (LockTable κ) :=
  match L.phase t with
  | .waiting k s .woken =>
      let L := L.set s { L.sems s with waiters := (L.sems s).waiters.erase t } t (.holding k s)
      some (if 0 < (L.sems s).value then L.wakeUpNext s else L)
  | _ => none

/-- Leaving the `async with` block, by whatever way: `Semaphore.release()`. -/
def exit (L : LockTable κ) (t : Nat) : Option (LockTable κ) :=
  match L.phase t with
  | .holding _ s =>
      some ((L.set s { L.sems s with value := (L.sems s).value + 1 } t .idle).wakeUpNext s)
  | _ => none

/-- `task.cancel()` on a waiter: a pending future is cancelled at once, for a
woken one the exception only arrives when the task resumes. -/
def cancel (L : LockTable κ) (t : Nat) : LockTable κ :=
  match L.phase t with
  | .waiting k s .pending => L.set s (L.sems s) t (.waiting k s .cancelled)
  | _ => L

/-- A cancelled waiter resumes: `acquire` raises, and gives back a permit that
had already been handed to it. -/
def unwind (L : LockTable κ) (t : Nat) : Option (LockTable κ) :=
  match L.phase t with
  | .waiting _ s .cancelled =>
      some (L.set s { L.sems s with waiters := (L.sems s).waiters.erase t } t .idle)
  | .waiting _ s .woken =>
      some ((L.set s ⟨(L.sems s).value + 1, (L.sems s).waiters.erase t⟩ t .idle).wakeUpNext s)
  | _ => none

/-- `if not locks[k].locked(): del locks[k]`. -/
def cleanup [DecidableEq κ] (L : LockTable κ) (k : κ) : LockTable κ :=
  let (L, s) := L.getitem k
  if L.locked s then L else { L with dict := Function.update L.dict k none }

/-- `locks.clear()`. -/
def clear (L : LockTable κ) : LockTable κ := { L with dict := fun _ => none }

@[simp] theorem set_sems_self (L : LockTable κ) (s x t p) : (L.set s x t p).sems s = x := by
  simp [set]
@[simp] theorem set_phase_self (L : LockTable κ) (s x t p) : (L.set s x t p).phase t = p := by
  simp [set]

theorem set_sems_ne (L : LockTable κ) {s s' : Nat} (h : s' ≠ s) (x t p) :
    (L.set s x t p).sems s' = L.sems s' := by simp [set, h]

theorem set_phase_ne (L : LockTable κ) {t t' : Nat} (h : t' ≠ t) (s x p) :
    (L.set s x t p).phase t' = L.phase t' := by simp [set, h]

/-! ### Well-formed tables -/

/-- The phase has the permit of `s`: it holds it, or was handed it as a waiter. -/
def Phase.Owns (p : Phase κ) (s : Nat) : Prop :=
  (∃ k, p = .holding k s) ∨ ∃ k, p = .waiting k s .woken

/-- The phase holds `s` under key `k`, or waits for it and was not cancelled. -/
def Phase.Uses (p : Phase κ) (k : κ) (s : Nat) : Prop :=
  p = .holding k s ∨ ∃ f, f ≠ .cancelled ∧ p = .waiting k s f

/-- The phase is about no other semaphore than `s`. -/
def Phase.About (s : Nat) : Phase κ → Prop
  | .idle => True
  | .waiting _ s' _ => s' = s
  | .holding _ s' => s' = s

/-- Everything but the link between the counter and the waiters. -/
structure Base (L : LockTable κ) : Prop where
  mem_waiters : ∀ s t, t ∈ (L.sems s).waiters ↔ ∃ k f, L.phase t = .waiting k s f
  nodup : ∀ s, (L.sems s).waiters.Nodup
  value_le : ∀ s, (L.sems s).value ≤ 1
  owner_unique : ∀ s t t', (L.phase t).Owns s → (L.phase t').Owns s → t = t'
  current : ∀ t k s, (L.phase t).Uses k s → L.dict k = some s
  dict_lt : ∀ k s, L.dict k = some s → s < L.fresh
  unused : ∀ s, L.fresh ≤ s → L.sems s = {}

/-- A semaphore whose permit is not taken has no owner and nobody to wake. -/
def Free (L : LockTable κ) (s : Nat) : Prop :=
  0 < (L.sems s).value → ∀ t, ¬ (L.phase t).Owns s ∧ ∀ k, L.phase t ≠ .waiting k s .pending

/-- The invariant of the table. -/
structure Wf (L : LockTable κ) : Prop extends Base L where
  free : ∀ s, L.Free s

theorem wf_empty : Wf (empty : LockTable κ) where
  mem_waiters := by simp [empty]
  nodup := by simp [empty]
  value_le := by simp [empty]
  owner_unique := by simp [empty, Phase.Owns]
  current := by simp [empty, Phase.Uses]
  dict_lt := by simp [empty]
  unused := by simp [empty]
  free := by simp [empty, Free, Phase.Owns]

/-- **Mutual exclusion.**  Two tasks that hold semaphores of the same key are
the same task, even if the semaphores are not known to be the same object. -/
theorem Base.mutex {L : LockTable κ} (h : Base L) {t t' s s' : Nat} {k : κ}
    (ht : L.phase t = .holding k s) (ht' : L.phase t' = .holding k s') : t = t' := by
  have hs : L.dict k = some s := h.current t k s (.inl ht)
  have hs' : L.dict k = some s' := h.current t' k s' (.inl ht')
  obtain rfl : s = s' := Option.some.inj (hs.symm.trans hs')
  exact h.owner_unique s t t' (.inl ⟨k, ht⟩) (.inl ⟨k, ht'⟩)

/-- A taken permit keeps the counter at zero. -/
theorem Wf.value_eq_zero {L : LockTable κ} (h : Wf L) {s t : Nat} (ho : (L.phase t).Owns s) :
    (L.sems s).value = 0 := by
  by_contra hne
  exact (h.free s (Nat.pos_of_ne_zero hne) t).1 ho

/-- `locked()` is false exactly when the permit is there and every waiter is
cancelled. -/
theorem locked_eq_false {L : LockTable κ} {s : Nat} :
    L.locked s = false ↔
      0 < (L.sems s).value ∧ ∀ t ∈ (L.sems s).waiters, (L.phase t).live = false := by
  simp [locked, Nat.pos_iff_ne_zero]

/-- An unlocked semaphore is used by nobody. -/
theorem Wf.not_uses_of_not_locked {L : LockTable κ} (h : Wf L) {s : Nat}
    (hl : L.locked s = false) (t : Nat) (k : κ) : ¬ (L.phase t).Uses k s := by
  obtain ⟨hv, hw⟩ := locked_eq_false.mp hl
  rintro (hh | ⟨f, hf, hp⟩)
  · exact (h.free s hv t).1 (.inl ⟨k, hh⟩)
  · have hlive := hw t ((h.mem_waiters s t).mpr ⟨k, f, hp⟩)
    cases f <;> simp [hp, Phase.live] at hlive hf

/-! ### One semaphore and one task change

Every operation is one or two uses of `set`, where the task's phase before and
after is about the semaphore that is stored. -/

theorem Phase.Owns.about {p : Phase κ} {s s' : Nat} (ho : p.Owns s') (ha : p.About s) :
    s' = s := by
  rcases ho with ⟨k, rfl⟩ | ⟨k, rfl⟩ <;> exact ha

theorem Phase.Uses.about {p : Phase κ} {k : κ} {s s' : Nat} (hu : p.Uses k s')
    (ha : p.About s) : s' = s := by
  rcases hu with rfl | ⟨f, _, rfl⟩ <;> exact ha

/-- What has to be checked of the stored semaphore and phase. -/
structure Fits (L : LockTable κ) (s : Nat) (x : Semaphore) (t : Nat) (p : Phase κ) : Prop where
  before : (L.phase t).About s
  after : p.About s
  self_mem : t ∈ x.waiters ↔ ∃ k f, p = .waiting k s f
  other_mem : ∀ u, u ≠ t → (u ∈ x.waiters ↔ u ∈ (L.sems s).waiters)
  nodup : x.waiters.Nodup
  value_le : x.value ≤ 1
  owner : p.Owns s → ∀ u, u ≠ t → ¬ (L.phase u).Owns s
  current : ∀ k, p.Uses k s → L.dict k = some s
  lt : s < L.fresh

theorem Base.set {L : LockTable κ} (h : Base L) {s t : Nat} {x : Semaphore} {p : Phase κ}
    (hf : Fits L s x t p) : Base (L.set s x t p) where
  mem_waiters := by
    intro s' u
    by_cases hs : s' = s <;> by_cases hu : u = t
    · subst hs hu; simpa using hf.self_mem
    · subst hs; simpa [set_phase_ne L hu] using (hf.other_mem u hu).trans (h.mem_waiters s' u)
    · subst hu
      -- neither the old nor the new phase of the task waits for another semaphore
      have hold : ¬ ∃ k f, L.phase u = .waiting k s' f := by
        rintro ⟨k, f, hp⟩
        exact hs (by simpa [hp, Phase.About] using hf.before)
      have hnew : ¬ ∃ k f, p = .waiting k s' f := by
        rintro ⟨k, f, rfl⟩
        exact hs (by simpa [Phase.About] using hf.after)
      simpa [set_sems_ne L hs, hnew] using fun hm => hold ((h.mem_waiters s' u).mp hm)
    · simpa [set_sems_ne L hs, set_phase_ne L hu] using h.mem_waiters s' u
  nodup := by
    intro s'
    by_cases hs : s' = s
    · subst hs; simpa using hf.nodup
    · simpa [set_sems_ne L hs] using h.nodup s'
  value_le := by
    intro s'
    by_cases hs : s' = s
    · subst hs; simpa using hf.value_le
    · simpa [set_sems_ne L hs] using h.value_le s'
  owner_unique := by
    intro s' u u' ho ho'
    by_cases hu : u = t <;> by_cases hu' : u' = t
    · rw [hu, hu']
    · subst hu
      rw [set_phase_self] at ho
      rw [set_phase_ne L hu'] at ho'
      obtain rfl := ho.about hf.after
      exact absurd ho' (hf.owner ho u' hu')
    · subst hu'
      rw [set_phase_self] at ho'
      rw [set_phase_ne L hu] at ho
      obtain rfl := ho'.about hf.after
      exact absurd ho (hf.owner ho' u hu)
    · rw [set_phase_ne L hu] at ho
      rw [set_phase_ne L hu'] at ho'
      exact h.owner_unique s' u u' ho ho'
  current := by
    intro u k s' hu
    by_cases ht : u = t
    · subst ht
      rw [set_phase_self] at hu
      obtain rfl := hu.about hf.after
      exact hf.current k hu
    · rw [set_phase_ne L ht] at hu
      exact h.current u k s' hu
  dict_lt := h.dict_lt
  unused := by
    intro s' hs'
    have hs : s' ≠ s := by
      rintro rfl
      exact absurd hf.lt (Nat.not_lt.mpr hs')
    simpa [set_sems_ne L hs] using h.unused s' hs'

/-- Semaphores other than the stored one stay free. -/
theorem Free.set_ne {L : LockTable κ} {s s' t : Nat} {x : Semaphore} {p : Phase κ}
    (h : L.Free s') (hs : s' ≠ s) (ha : p.About s) : (L.set s x t p).Free s' := by
  intro hv u
  rw [set_sems_ne L hs] at hv
  by_cases hu : u = t
  · subst hu
    rw [set_phase_self]
    refine ⟨fun ho => hs (ho.about ha), ?_⟩
    rintro k rfl
    exact hs ha
  · rw [set_phase_ne L hu]
    exact h hv u

/-- A stored semaphore without permit is trivially free. -/
theorem Free.set_zero {L : LockTable κ} {s t : Nat} {x : Semaphore} {p : Phase κ}
    (hx : x.value = 0) : (L.set s x t p).Free s := by
  intro hv
  simp [hx] at hv

/-- `_wake_up_next()` spends a permit that nobody owns on the first pending
waiter, or leaves it free when there is none. -/
theorem Base.wakeUpNext {L : LockTable κ} {s : Nat} (h : Base L)
    (hothers : ∀ s', s' ≠ s → L.Free s') (hvalue : (L.sems s).value = 1)
    (hnone : ∀ t, ¬ (L.phase t).Owns s) : Wf (L.wakeUpNext s) := by
  unfold LockTable.wakeUpNext
  cases hfind : (L.sems s).waiters.find? (fun t => (L.phase t).pending) with
  | none =>
      refine { h with free := fun s' => ?_ }
      by_cases hs : s' = s
      · subst hs
        intro _ t
        refine ⟨hnone t, fun k hp => ?_⟩
        have hmem := (h.mem_waiters s' t).mpr ⟨k, _, hp⟩
        have := List.find?_eq_none.mp hfind t hmem
        simp [hp, Phase.pending] at this
      · exact hothers s' hs
  | some w =>
      have hmem : w ∈ (L.sems s).waiters := List.mem_of_find?_eq_some hfind
      obtain ⟨k, f, hw⟩ := (h.mem_waiters s w).mp hmem
      have hpend := List.find?_some hfind
      obtain rfl : f = .pending := by cases f <;> simp [hw, Phase.pending] at hpend ⊢
      have hcur : L.dict k = some s := h.current w k s (.inr ⟨.pending, by simp, hw⟩)
      have hwake : (L.phase w).wake = .waiting k s .woken := by rw [hw]; rfl
      have hfits : Fits L s { L.sems s with value := (L.sems s).value - 1 } w (L.phase w).wake :=
        { before := by rw [hw]; rfl
          after := by rw [hwake]; rfl
          self_mem := by simp [hwake, hmem]
          other_mem := fun u _ => Iff.rfl
          nodup := h.nodup s
          value_le := by simp [hvalue]
          owner := fun _ u _ => hnone u
          current := by
            intro k' hu
            obtain rfl : k = k' := by simpa [hwake, Phase.Uses] using hu
            exact hcur
          lt := h.dict_lt k s hcur }
      refine { h.set hfits with free := fun s' => ?_ }
      by_cases hs : s' = s
      · subst hs
        exact Free.set_zero (by simp [hvalue])
      · exact (hothers s' hs).set_ne hs hfits.after

/-! ### Every operation keeps the table well formed -/

/-- Reading an entry only ever adds a free semaphore that nobody knows. -/
theorem Wf.getitem [DecidableEq κ] {L : LockTable κ} (h : Wf L) (k : κ) :
    Wf (L.getitem k).1 ∧ (L.getitem k).1.dict k = some (L.getitem k).2 ∧
      (L.getitem k).1.phase = L.phase := by
  unfold LockTable.getitem
  cases hd : L.dict k with
  | some s => exact ⟨h, hd, rfl⟩
  | none =>
      refine ⟨?_, by simp, rfl⟩
      refine { h with current := ?_, dict_lt := ?_, unused := ?_ }
      · intro t k' s hu
        have hk : k' ≠ k := by
          rintro rfl
          simpa [hd] using h.current t k' s hu
        simpa [hk] using h.current t k' s hu
      · intro k' s hs
        by_cases hk : k' = k
        · subst hk
          have : L.fresh = s := by simpa using hs
          simp [this]
        · exact Nat.lt_succ_of_lt (h.dict_lt k' s (by simpa [hk] using hs))
      · intro s hs
        exact h.unused s (Nat.le_of_succ_le hs)

theorem Wf.enter [DecidableEq κ] {L : LockTable κ} (h : Wf L) {t : Nat} {k : κ}
    (hidle : L.phase t = .idle) : Wf (L.enter t k) := by
  obtain ⟨hwf, hcur, hphase⟩ := h.getitem k
  unfold LockTable.enter
  generalize L.getitem k = r at hwf hcur hphase
  obtain ⟨M, s⟩ := r
  simp only at hwf hcur hphase ⊢
  have hidle' : M.phase t = .idle := by rw [hphase]; exact hidle
  have hnot : t ∉ (M.sems s).waiters := by
    intro hm
    obtain ⟨k', f, hp⟩ := (hwf.mem_waiters s t).mp hm
    simp [hidle'] at hp
  split
  · -- the semaphore is taken: the task becomes the last waiter
    rename_i hlocked
    have hfits : Fits M s { M.sems s with waiters := (M.sems s).waiters ++ [t] } t
        (.waiting k s .pending) :=
      { before := by rw [hidle']; trivial
        after := rfl
        self_mem := by simp
        other_mem := fun u hu => by simp [hu]
        nodup := by
          apply List.Nodup.append (hwf.nodup s) (List.nodup_singleton t)
          simpa using hnot
        value_le := hwf.value_le s
        owner := by simp [Phase.Owns]
        current := by
          intro k' hu
          obtain rfl : k = k' := by simpa [Phase.Uses] using hu
          exact hcur
        lt := hwf.dict_lt k s hcur }
    refine { hwf.toBase.set hfits with free := fun s' => ?_ }
    by_cases hs : s' = s
    · subst hs
      -- a free permit with a live waiter contradicts `Free`
      apply Free.set_zero
      by_contra hne
      have hpos : 0 < (M.sems s').value := Nat.pos_of_ne_zero hne
      have hunlocked : M.locked s' = false := by
        refine locked_eq_false.mpr ⟨hpos, fun u hu => ?_⟩
        obtain ⟨k', f, hp⟩ := (hwf.mem_waiters s' u).mp hu
        have hfree := hwf.free s' hpos u
        cases f with
        | pending => exact absurd hp (hfree.2 k')
        | woken => exact absurd (.inr ⟨k', hp⟩) hfree.1
        | cancelled => simp [hp, Phase.live]
      simp [hunlocked] at hlocked
    · exact (hwf.free s').set_ne hs hfits.after
  · -- the permit is there and taken at once
    rename_i hunlocked
    have hunlocked : M.locked s = false := by simpa using hunlocked
    obtain ⟨hpos, -⟩ := locked_eq_false.mp hunlocked
    have hle := hwf.value_le s
    have hfits : Fits M s { M.sems s with value := (M.sems s).value - 1 } t (.holding k s) :=
      { before := by rw [hidle']; trivial
        after := rfl
        self_mem := by simp [hnot]
        other_mem := fun u _ => Iff.rfl
        nodup := hwf.nodup s
        value_le := by simp only; omega
        owner := fun _ u _ => (hwf.free s hpos u).1
        current := by
          intro k' hu
          obtain rfl : k = k' := by simpa [Phase.Uses] using hu
          exact hcur
        lt := hwf.dict_lt k s hcur }
    refine { hwf.toBase.set hfits with free := fun s' => ?_ }
    by_cases hs : s' = s
    · subst hs
      exact Free.set_zero (by simp only; omega)
    · exact (hwf.free s').set_ne hs hfits.after

/-- A task that owns a semaphore's permit is the only one: after it has left,
nobody owns it. -/
theorem Base.no_owner_after {L : LockTable κ} (h : Base L) {s t : Nat} {x : Semaphore}
    {p : Phase κ} (ho : (L.phase t).Owns s) (hp : ¬ p.Owns s) (u : Nat) :
    ¬ ((L.set s x t p).phase u).Owns s := by
  by_cases hu : u = t
  · subst hu; simpa using hp
  · rw [set_phase_ne L hu]
    exact fun hown => hu (h.owner_unique s u t hown ho)

theorem Wf.exit {L M : LockTable κ} (h : Wf L) {t : Nat} (hexit : L.exit t = some M) : Wf M := by
  unfold LockTable.exit at hexit
  split at hexit
  case h_2 => cases hexit
  case h_1 k s hp =>
    obtain rfl := Option.some.inj hexit
    have howns : (L.phase t).Owns s := .inl ⟨k, hp⟩
    have hzero := h.value_eq_zero howns
    have hnot : t ∉ (L.sems s).waiters := by simp [h.mem_waiters, hp]
    have hfits : Fits L s { L.sems s with value := (L.sems s).value + 1 } t .idle :=
      { before := by rw [hp]; rfl
        after := trivial
        self_mem := by simp [hnot]
        other_mem := fun u _ => Iff.rfl
        nodup := h.nodup s
        value_le := by simp [hzero]
        owner := by simp [Phase.Owns]
        current := by simp [Phase.Uses]
        lt := h.dict_lt k s (h.current t k s (.inl hp)) }
    exact (h.toBase.set hfits).wakeUpNext
      (fun s' hs => (h.free s').set_ne hs hfits.after) (by simp [hzero])
      (h.no_owner_after howns (by simp [Phase.Owns]))

theorem Wf.resume {L M : LockTable κ} (h : Wf L) {t : Nat} (hres : L.resume t = some M) :
    Wf M := by
  unfold LockTable.resume at hres
  split at hres
  case h_2 => cases hres
  case h_1 k s hp =>
    have howns : (L.phase t).Owns s := .inr ⟨k, hp⟩
    have hzero := h.value_eq_zero howns
    obtain rfl : L.set s { L.sems s with waiters := (L.sems s).waiters.erase t } t
        (.holding k s) = M := by simpa [hzero] using hres
    have hfits : Fits L s { L.sems s with waiters := (L.sems s).waiters.erase t } t
        (.holding k s) :=
      { before := by rw [hp]; rfl
        after := rfl
        self_mem := by simp [(h.nodup s).not_mem_erase]
        other_mem := fun u hu => List.mem_erase_of_ne hu
        nodup := (h.nodup s).erase t
        value_le := h.value_le s
        owner := fun _ u hu hown => hu (h.owner_unique s u t hown howns)
        current := by
          intro k' hu
          obtain rfl : k = k' := by simpa [Phase.Uses] using hu
          exact h.current t k s (.inr ⟨.woken, by simp, hp⟩)
        lt := h.dict_lt k s (h.current t k s (.inr ⟨.woken, by simp, hp⟩)) }
    refine { h.toBase.set hfits with free := fun s' => ?_ }
    by_cases hs : s' = s
    · subst hs; exact Free.set_zero hzero
    · exact (h.free s').set_ne hs hfits.after

theorem Wf.cancel {L : LockTable κ} (h : Wf L) (t : Nat) : Wf (L.cancel t) := by
  unfold LockTable.cancel
  split
  case h_2 => exact h
  case h_1 k s hp =>
    have hcur : L.dict k = some s := h.current t k s (.inr ⟨.pending, by simp, hp⟩)
    have hfits : Fits L s (L.sems s) t (.waiting k s .cancelled) :=
      { before := by rw [hp]; rfl
        after := rfl
        self_mem := by simp [h.mem_waiters, hp]
        other_mem := fun u _ => Iff.rfl
        nodup := h.nodup s
        value_le := h.value_le s
        owner := by simp [Phase.Owns]
        current := by simp [Phase.Uses]
        lt := h.dict_lt k s hcur }
    refine { h.toBase.set hfits with free := fun s' => ?_ }
    by_cases hs : s' = s
    · subst hs
      -- a pending waiter means that the permit is taken
      apply Free.set_zero
      by_contra hne
      exact (h.free s' (Nat.pos_of_ne_zero hne) t).2 k hp
    · exact (h.free s').set_ne hs hfits.after

theorem Wf.unwind {L M : LockTable κ} (h : Wf L) {t : Nat} (hun : L.unwind t = some M) :
    Wf M := by
  unfold LockTable.unwind at hun
  split at hun
  case h_3 => cases hun
  case h_1 k s hp =>
    obtain rfl := Option.some.inj hun
    have hlt : s < L.fresh := by
      by_contra hge
      have hmem := (h.mem_waiters s t).mpr ⟨k, _, hp⟩
      simp [h.unused s (Nat.not_lt.mp hge)] at hmem
    have hfits : Fits L s { L.sems s with waiters := (L.sems s).waiters.erase t } t .idle :=
      { before := by rw [hp]; rfl
        after := trivial
        self_mem := by simp [(h.nodup s).not_mem_erase]
        other_mem := fun u hu => List.mem_erase_of_ne hu
        nodup := (h.nodup s).erase t
        value_le := h.value_le s
        owner := by simp [Phase.Owns]
        current := by simp [Phase.Uses]
        lt := hlt }
    refine { h.toBase.set hfits with free := fun s' => ?_ }
    by_cases hs : s' = s
    · subst hs
      intro hv u
      by_cases hu : u = t
      · subst hu; simp [Phase.Owns]
      · rw [set_phase_ne L hu]
        exact h.free s' (by simpa using hv) u
    · exact (h.free s').set_ne hs hfits.after
  case h_2 k s hp =>
    obtain rfl := Option.some.inj hun
    have howns : (L.phase t).Owns s := .inr ⟨k, hp⟩
    have hzero := h.value_eq_zero howns
    have hfits : Fits L s ⟨(L.sems s).value + 1, (L.sems s).waiters.erase t⟩ t .idle :=
      { before := by rw [hp]; rfl
        after := trivial
        self_mem := by simp [(h.nodup s).not_mem_erase]
        other_mem := fun u hu => List.mem_erase_of_ne hu
        nodup := (h.nodup s).erase t
        value_le := by simp [hzero]
        owner := by simp [Phase.Owns]
        current := by simp [Phase.Uses]
        lt := h.dict_lt k s (h.current t k s (.inr ⟨.woken, by simp, hp⟩)) }
    exact (h.toBase.set hfits).wakeUpNext
      (fun s' hs => (h.free s').set_ne hs hfits.after) (by simp [hzero])
      (h.no_owner_after howns (by simp [Phase.Owns]))

/-- Deleting an entry whose semaphore is not locked: nobody uses it. -/
theorem Wf.cleanup [DecidableEq κ] {L : LockTable κ} (h : Wf L) (k : κ) : Wf (L.cleanup k) := by
  obtain ⟨hwf, hcur, -⟩ := h.getitem k
  unfold LockTable.cleanup
  generalize L.getitem k = r at hwf hcur
  obtain ⟨M, s⟩ := r
  simp only at hwf hcur ⊢
  split
  · exact hwf
  · rename_i hunlocked
    refine { hwf with current := ?_, dict_lt := ?_ }
    · intro t k' s' hu
      have hk : k' ≠ k := by
        rintro rfl
        obtain rfl : s = s' :=
          Option.some.inj (hcur.symm.trans (hwf.current t k' s' hu))
        exact hwf.not_uses_of_not_locked (by simpa using hunlocked) t k' hu
      simpa [hk] using hwf.current t k' s' hu
    · intro k' s' hs
      have hk : k' ≠ k := by
        rintro rfl
        simp at hs
      exact hwf.dict_lt k' s' (by simpa [hk] using hs)

/-- Clearing the dictionary is harmless when no task is inside or waiting. -/
theorem Wf.clear {L : LockTable κ} (h : Wf L) (hidle : ∀ t, L.phase t = .idle) : Wf L.clear :=
  { h with
    current := by
      intro t k s hu
      simp only [LockTable.clear, hidle t, Phase.Uses] at hu
      simp at hu
    dict_lt := by simp [LockTable.clear] }

/-! ### Other tasks stay where they are

An operation of one task may wake another, but moves no other task into or out
of a semaphore. -/

/-- Where a task stands, up to the state of its future: the key and semaphore
it is at, and whether it holds it. -/
def Phase.place : Phase κ → Option (κ × Nat × Bool)
  | .idle => none
  | .waiting k s _ => some (k, s, false)
  | .holding k s => some (k, s, true)

@[simp] theorem Phase.place_eq_none {p : Phase κ} : p.place = none ↔ p = .idle := by
  cases p <;> simp [Phase.place]

@[simp] theorem Phase.place_wake (p : Phase κ) : p.wake.place = p.place := by
  cases p <;> rfl

theorem Phase.place_eq_holding {p : Phase κ} {k : κ} {s : Nat} :
    p.place = some (k, s, true) ↔ p = .holding k s := by
  cases p <;> simp [Phase.place]

theorem place_wakeUpNext (L : LockTable κ) (s u : Nat) :
    ((L.wakeUpNext s).phase u).place = (L.phase u).place := by
  unfold wakeUpNext
  split
  · rename_i w _
    by_cases hu : u = w
    · subst hu; simp
    · rw [set_phase_ne L hu]
  · rfl

theorem phase_getitem [DecidableEq κ] (L : LockTable κ) (k : κ) :
    (L.getitem k).1.phase = L.phase := by
  unfold getitem
  split <;> rfl

theorem place_enter_ne [DecidableEq κ] (L : LockTable κ) {t u : Nat} (k : κ) (hu : u ≠ t) :
    ((L.enter t k).phase u).place = (L.phase u).place := by
  have hphase := phase_getitem L k
  unfold enter
  generalize L.getitem k = r at hphase
  obtain ⟨M, s⟩ := r
  simp only at hphase ⊢
  split <;> rw [set_phase_ne M hu, hphase]

/-- After `enter` the task waits for or holds the entry of its key. -/
theorem place_enter_self [DecidableEq κ] (L : LockTable κ) (t : Nat) (k : κ) :
    ∃ s b, ((L.enter t k).phase t).place = some (k, s, b) := by
  unfold enter
  generalize L.getitem k = r
  obtain ⟨M, s⟩ := r
  simp only
  split
  · exact ⟨s, false, by simp [Phase.place]⟩
  · exact ⟨s, true, by simp [Phase.place]⟩

theorem place_resume {L M : LockTable κ} {t : Nat} (h : L.resume t = some M) :
    (∃ k s, (L.phase t).place = some (k, s, false) ∧ M.phase t = .holding k s) ∧
      ∀ u, u ≠ t → (M.phase u).place = (L.phase u).place := by
  unfold resume at h
  split at h
  case h_2 => cases h
  case h_1 k s hp =>
    obtain rfl := Option.some.inj h
    simp only [set_sems_self]
    refine ⟨⟨k, s, by rw [hp]; rfl, ?_⟩, fun u hu => ?_⟩
    · rw [← Phase.place_eq_holding]
      split
      · rw [place_wakeUpNext, set_phase_self]; rfl
      · rw [set_phase_self]; rfl
    · split <;> simp [place_wakeUpNext, set_phase_ne L hu]

theorem place_exit {L M : LockTable κ} {t : Nat} (h : L.exit t = some M) :
    (∃ k s, L.phase t = .holding k s) ∧ M.phase t = .idle ∧
      ∀ u, u ≠ t → (M.phase u).place = (L.phase u).place := by
  unfold exit at h
  split at h
  case h_2 => cases h
  case h_1 k s hp =>
    obtain rfl := Option.some.inj h
    refine ⟨⟨k, s, hp⟩, ?_, fun u hu => ?_⟩
    · rw [← Phase.place_eq_none, place_wakeUpNext]
      simp
    · rw [place_wakeUpNext, set_phase_ne L hu]

theorem place_cancel (L : LockTable κ) (t u : Nat) :
    ((L.cancel t).phase u).place = (L.phase u).place := by
  unfold cancel
  split
  case h_2 => rfl
  case h_1 k s hp =>
    by_cases hu : u = t
    · subst hu; simp [hp, Phase.place]
    · rw [set_phase_ne L hu]

theorem place_unwind {L M : LockTable κ} {t : Nat} (h : L.unwind t = some M) :
    (∃ k s, (L.phase t).place = some (k, s, false)) ∧ M.phase t = .idle ∧
      ∀ u, u ≠ t → (M.phase u).place = (L.phase u).place := by
  unfold unwind at h
  split at h
  case h_3 => cases h
  case h_1 k s hp =>
    obtain rfl := Option.some.inj h
    exact ⟨⟨k, s, by rw [hp]; rfl⟩, by simp, fun u hu => by rw [set_phase_ne L hu]⟩
  case h_2 k s hp =>
    obtain rfl := Option.some.inj h
    refine ⟨⟨k, s, by rw [hp]; rfl⟩, ?_, fun u hu => ?_⟩
    · rw [← Phase.place_eq_none, place_wakeUpNext]
      simp
    · rw [place_wakeUpNext, set_phase_ne L hu]

theorem phase_cleanup [DecidableEq κ] (L : LockTable κ) (k : κ) :
    (L.cleanup k).phase = L.phase := by
  have hphase := phase_getitem L k
  unfold cleanup
  generalize L.getitem k = r at hphase
  obtain ⟨M, s⟩ := r
  simp only at hphase ⊢
  split <;> exact hphase

end LockTable
