import RayOnGolem.Lib.LockTable
import RayOnGolem.Lib.Objects

/-!
# No waiter of a lock is forgotten

`Wf` says that a permit which is there has no owner and leaves nobody pending.
The other direction is about liveness: a permit that is gone has an owner, so
that somebody will give it back.  `Sound` adds this to `Wf`, and that two keys
never share a semaphore; every operation but `clear` keeps it.

* `Sound.owner_of_pending` -- whoever waits and was not woken waits for a task
  that holds the lock or was handed it: no wakeup is lost;
* `Aside` and its rules -- an operation of a task at one key leaves the entry, the
  semaphore and the tasks of every other key exactly as they are;
* `Tended.goesOn` -- in a program that cancels the futures of the tasks it cancels,
  a waiting task can resume, can give up, or waits for the owner of the permit.
-/

namespace LockTable

variable {κ : Type*} {L M : LockTable κ} {s t u : Nat} {k : κ}

/-- A taken permit has an owner. -/
def Taken (L : LockTable κ) : Prop := ∀ s, (L.sems s).value = 0 → ∃ t, (L.phase t).Owns s

/-- Two keys never share a semaphore, neither as entries nor by who waits for it. -/
structure Apart (L : LockTable κ) : Prop where
  entries : ∀ k k' s, L.dict k = some s → L.dict k' = some s → k = k'
  waits : ∀ t k k' s f, L.phase t = .waiting k s f → L.dict k' = some s → k' = k

/-- The invariant of the table, with nobody forgotten. -/
structure Sound (L : LockTable κ) : Prop extends Wf L where
  taken : L.Taken
  apart : L.Apart

theorem sound_empty : Sound (empty : LockTable κ) where
  toWf := wf_empty
  taken := by simp [Taken, empty]
  apart := by constructor <;> simp [empty]

/-- **No lost wakeup.**  A task whose future is not set waits for another one that has the
permit. -/
theorem Sound.owner_of_pending (h : Sound L) (hp : L.phase t = .waiting k s .pending) :
    ∃ u, u ≠ t ∧ (L.phase u).Owns s := by
  have hzero : (L.sems s).value = 0 := by
    by_contra hne
    exact (h.free s (Nat.pos_of_ne_zero hne) t).2 k hp
  obtain ⟨u, hu⟩ := h.taken s hzero
  refine ⟨u, ?_, hu⟩
  rintro rfl
  simp [Phase.Owns, hp] at hu

/-! ### Permits keep their owners -/

/-- One semaphore and one task change; the others keep their owners. -/
theorem Taken.set {x : Semaphore} {p : Phase κ} (h : L.Taken) (hbefore : (L.phase t).About s)
    (hself : x.value = 0 → ∃ u, ((L.set s x t p).phase u).Owns s) : (L.set s x t p).Taken := by
  intro s' hzero
  by_cases hs : s' = s
  · subst hs
    exact hself (by simpa using hzero)
  · rw [set_sems_ne L hs] at hzero
    obtain ⟨u, hu⟩ := h s' hzero
    have hut : u ≠ t := by
      rintro rfl
      exact hs (hu.about hbefore)
    exact ⟨u, by rwa [set_phase_ne L hut]⟩

/-- Where the counter and the owner stay, so does `Taken`. -/
theorem Taken.set_same {x : Semaphore} {p : Phase κ} (h : L.Taken)
    (hbefore : (L.phase t).About s) (hnot : ¬ (L.phase t).Owns s)
    (hx : x.value = (L.sems s).value) : (L.set s x t p).Taken := by
  refine h.set hbefore fun hzero => ?_
  obtain ⟨u, hu⟩ := h s (hx ▸ hzero)
  have hut : u ≠ t := by
    rintro rfl
    exact hnot hu
  exact ⟨u, by rwa [set_phase_ne L hut]⟩

/-- `_wake_up_next()` gives the permit that it takes to the task that it wakes. -/
theorem Taken.wakeUpNext (h : L.Taken)
    (hwaiters : ∀ w ∈ (L.sems s).waiters, (L.phase w).About s) : (L.wakeUpNext s).Taken := by
  unfold LockTable.wakeUpNext
  cases hfind : (L.sems s).waiters.find? (fun t => (L.phase t).pending) with
  | none => exact h
  | some w =>
      have habout := hwaiters w (List.mem_of_find?_eq_some hfind)
      refine h.set habout fun _ => ⟨w, ?_⟩
      have hpend := List.find?_some hfind
      rw [set_phase_self]
      cases hw : L.phase w with
      | waiting k s' f =>
          obtain rfl : s' = s := by simpa [hw, Phase.About] using habout
          exact .inr ⟨k, rfl⟩
      | idle => simp [hw, Phase.pending] at hpend
      | holding k s' => simp [hw, Phase.pending] at hpend

theorem Base.about_of_mem (h : Base L) (hu : u ∈ (L.sems s).waiters) : (L.phase u).About s := by
  obtain ⟨k, f, hp⟩ := (h.mem_waiters s u).mp hu
  rw [hp]
  rfl

/-- The other waiters are still about their semaphore when one task leaves it. -/
theorem Base.about_others (h : Base L) {x : Semaphore}
    (hx : ∀ u ∈ x.waiters, u ∈ (L.sems s).waiters) (u : Nat)
    (hu : u ∈ ((L.set s x t .idle).sems s).waiters) :
    ((L.set s x t .idle).phase u).About s := by
  by_cases hut : u = t
  · subst hut
    rw [set_phase_self]
    trivial
  · rw [set_phase_ne L hut]
    exact h.about_of_mem (hx u (by simpa using hu))

/-! ### Keys stay apart -/

@[simp] theorem dict_set (L : LockTable κ) (s x t p) : (L.set s x t p).dict = L.dict := rfl

@[simp] theorem dict_wakeUpNext (L : LockTable κ) (s : Nat) :
    (L.wakeUpNext s).dict = L.dict := by
  unfold wakeUpNext
  split <;> rfl

theorem dict_exit (hexit : L.exit t = some M) : M.dict = L.dict := by
  unfold exit at hexit
  split at hexit
  case h_1 => rw [← Option.some.inj hexit, dict_wakeUpNext, dict_set]
  case h_2 => cases hexit

theorem dict_resume (hres : L.resume t = some M) : M.dict = L.dict := by
  unfold resume at hres
  split at hres
  case h_1 =>
    rw [← Option.some.inj hres]
    split <;> simp
  case h_2 => cases hres

theorem dict_unwind (hun : L.unwind t = some M) : M.dict = L.dict := by
  unfold unwind at hun
  split at hun
  case h_1 => rw [← Option.some.inj hun, dict_set]
  case h_2 => rw [← Option.some.inj hun, dict_wakeUpNext, dict_set]
  case h_3 => cases hun

theorem dict_cancel (L : LockTable κ) (t : Nat) : (L.cancel t).dict = L.dict := by
  unfold cancel
  split <;> rfl

theorem dict_getitem_ne [DecidableEq κ] (L : LockTable κ) {k k' : κ} (hk : k' ≠ k) :
    (L.getitem k).1.dict k' = L.dict k' := by
  unfold getitem
  split
  · rfl
  · simp [hk]

/-- Keys stay apart when no entry is new and whoever waits did so before. -/
theorem Apart.kept (h : L.Apart) (hdict : M.dict = L.dict)
    (hplace : ∀ u, M.phase u = L.phase u ∨ (M.phase u).place = (L.phase u).place ∨
      ∀ k s f, M.phase u ≠ .waiting k s f) : M.Apart := by
  constructor
  · rw [hdict]
    exact h.entries
  · intro u k k' s f hp hk'
    rw [hdict] at hk'
    rcases hplace u with hsame | hsame | hnot
    · exact h.waits u k k' s f (hsame ▸ hp) hk'
    · cases hu : L.phase u with
      | idle => simp [hp, hu, Phase.place] at hsame
      | holding k₁ s₁ => simp [hp, hu, Phase.place] at hsame
      | waiting k₁ s₁ f₁ =>
          obtain ⟨rfl, rfl⟩ : k = k₁ ∧ s = s₁ := by simpa [hp, hu, Phase.place] using hsame
          exact h.waits u k k' s f₁ hu hk'
    · exact absurd hp (hnot k s f)

theorem Apart.exit (h : L.Apart) (hexit : L.exit t = some M) : M.Apart := by
  obtain ⟨-, hidle, hothers⟩ := place_exit hexit
  refine h.kept (dict_exit hexit) fun u => ?_
  by_cases hu : u = t
  · subst hu
    exact .inr (.inr (by simp [hidle]))
  · exact .inr (.inl (hothers u hu))

theorem Apart.resume (h : L.Apart) (hres : L.resume t = some M) : M.Apart := by
  obtain ⟨⟨k, s, -, hholds⟩, hothers⟩ := place_resume hres
  refine h.kept (dict_resume hres) fun u => ?_
  by_cases hu : u = t
  · subst hu
    exact .inr (.inr (by simp [hholds]))
  · exact .inr (.inl (hothers u hu))

theorem Apart.unwind (h : L.Apart) (hun : L.unwind t = some M) : M.Apart := by
  obtain ⟨-, hidle, hothers⟩ := place_unwind hun
  refine h.kept (dict_unwind hun) fun u => ?_
  by_cases hu : u = t
  · subst hu
    exact .inr (.inr (by simp [hidle]))
  · exact .inr (.inl (hothers u hu))

theorem Apart.cancel (h : L.Apart) (t : Nat) : (L.cancel t).Apart :=
  h.kept (dict_cancel L t) fun u => .inr (.inl (place_cancel L t u))

/-! ### Other tasks stay at their futures -/

/-- A wakeup leaves futures alone that it does not set. -/
theorem waiting_of_wakeUpNext {s' : Nat} {f : Fut} (hf : f ≠ .woken)
    (h : (L.wakeUpNext s).phase u = .waiting k s' f) : L.phase u = .waiting k s' f := by
  unfold wakeUpNext at h
  split at h
  · rename_i w _
    by_cases hu : u = w
    · subst hu
      rw [set_phase_self] at h
      cases hw : L.phase u with
      | waiting k₁ s₁ f₁ =>
          have hwoken : Fut.woken = f := by
            simp only [hw, Phase.wake] at h
            injection h
          exact absurd hwoken.symm hf
      | idle => simp [hw, Phase.wake] at h
      | holding k₁ s₁ => simp [hw, Phase.wake] at h
    · rwa [set_phase_ne L hu] at h
  · exact h

/-- A task whose future is not set after another one left was at the same future before. -/
theorem waiting_of_exit {f : Fut} (hexit : L.exit t = some M) (hf : f ≠ .woken) (hu : u ≠ t)
    (h : M.phase u = .waiting k s f) : L.phase u = .waiting k s f := by
  unfold exit at hexit
  split at hexit
  case h_2 => cases hexit
  case h_1 =>
    rw [← Option.some.inj hexit] at h
    have hbefore := waiting_of_wakeUpNext hf h
    rwa [set_phase_ne L hu] at hbefore

theorem waiting_of_resume {f : Fut} (hres : L.resume t = some M) (hf : f ≠ .woken) (hu : u ≠ t)
    (h : M.phase u = .waiting k s f) : L.phase u = .waiting k s f := by
  unfold resume at hres
  split at hres
  case h_2 => cases hres
  case h_1 =>
    rw [← Option.some.inj hres] at h
    split at h
    · have hbefore := waiting_of_wakeUpNext hf h
      rwa [set_phase_ne L hu] at hbefore
    · rwa [set_phase_ne L hu] at h

theorem waiting_of_unwind {f : Fut} (hun : L.unwind t = some M) (hf : f ≠ .woken) (hu : u ≠ t)
    (h : M.phase u = .waiting k s f) : L.phase u = .waiting k s f := by
  unfold unwind at hun
  split at hun
  case h_3 => cases hun
  case h_1 =>
    rw [← Option.some.inj hun] at h
    rwa [set_phase_ne L hu] at h
  case h_2 =>
    rw [← Option.some.inj hun] at h
    have hbefore := waiting_of_wakeUpNext hf h
    rwa [set_phase_ne L hu] at hbefore

theorem phase_enter_ne [DecidableEq κ] (L : LockTable κ) (k : κ) (hu : u ≠ t) :
    (L.enter t k).phase u = L.phase u := by
  have hphase := phase_getitem L k
  unfold enter
  generalize L.getitem k = r at hphase
  obtain ⟨M, s⟩ := r
  simp only at hphase ⊢
  split <;> rw [set_phase_ne M hu, hphase]

theorem phase_cancel_ne (L : LockTable κ) (hu : u ≠ t) : (L.cancel t).phase u = L.phase u := by
  unfold cancel
  split
  · rw [set_phase_ne L hu]
  · rfl

/-- A cancelled task is not pending any more. -/
theorem not_pending_cancel (L : LockTable κ) (t : Nat) (k : κ) (s : Nat) :
    (L.cancel t).phase t ≠ .waiting k s .pending := by
  unfold cancel
  split
  · simp
  · rename_i hnot
    exact fun h => hnot k s h

/-! ### Every operation keeps the table sound -/

theorem Wf.waiting_lt (h : Wf L) {f : Fut} (hp : L.phase t = .waiting k s f) : s < L.fresh := by
  by_contra hge
  have hmem := (h.mem_waiters s t).mpr ⟨k, f, hp⟩
  simp [h.unused s (Nat.not_lt.mp hge)] at hmem

/-- A new entry is a semaphore that is no other key's. -/
theorem Sound.apart_getitem [DecidableEq κ] (h : Sound L) (k : κ) : (L.getitem k).1.Apart := by
  unfold LockTable.getitem
  cases hd : L.dict k with
  | some s => exact h.apart
  | none =>
      have hother : ∀ {k' : κ} {s : Nat},
          Function.update L.dict k (some L.fresh) k' = some s →
            (k' = k ∧ s = L.fresh) ∨ L.dict k' = some s := by
        intro k' s hk'
        by_cases hkk : k' = k
        · subst hkk
          exact .inl ⟨rfl, by simpa using hk'.symm⟩
        · exact .inr (by simpa [hkk] using hk')
      have hlt : ∀ {k' : κ}, L.dict k' ≠ some L.fresh := fun hk' =>
        absurd (h.dict_lt _ _ hk') (Nat.lt_irrefl _)
      constructor
      · intro k₁ k₂ s h₁ h₂
        rcases hother h₁ with ⟨hk₁, hs₁⟩ | h₁ <;> rcases hother h₂ with ⟨hk₂, hs₂⟩ | h₂
        · rw [hk₁, hk₂]
        · exact absurd (hs₁ ▸ h₂) hlt
        · exact absurd (hs₂ ▸ h₁) hlt
        · exact h.apart.entries k₁ k₂ s h₁ h₂
      · intro u k₁ k₂ s f hp h₂
        rcases hother h₂ with ⟨-, rfl⟩ | h₂
        · exact absurd (h.waiting_lt hp) (Nat.lt_irrefl _)
        · exact h.apart.waits u k₁ k₂ s f hp h₂

theorem Sound.getitem [DecidableEq κ] (h : Sound L) (k : κ) : Sound (L.getitem k).1 := by
  refine ⟨(h.toWf.getitem k).1, ?_, h.apart_getitem k⟩
  unfold LockTable.getitem
  split <;> exact h.taken

theorem Sound.enter [DecidableEq κ] (h : Sound L) (hidle : L.phase t = .idle) (k : κ) :
    Sound (L.enter t k) := by
  refine ⟨h.toWf.enter hidle, ?_, ?_⟩
  · have hsound := h.getitem k
    have hphase := phase_getitem L k
    unfold LockTable.enter
    generalize L.getitem k = r at hsound hphase
    obtain ⟨M, s⟩ := r
    simp only at hsound hphase ⊢
    have hM : M.phase t = .idle := by rw [hphase, hidle]
    have habout : (M.phase t).About s := by
      rw [hM]
      trivial
    split
    · exact hsound.taken.set_same habout (by simp [hM, Phase.Owns]) rfl
    · exact hsound.taken.set habout fun _ => ⟨t, by simp [Phase.Owns]⟩
  · obtain ⟨-, hcur, -⟩ := h.toWf.getitem k
    have hapart := h.apart_getitem k
    unfold LockTable.enter
    generalize L.getitem k = r at hapart hcur
    obtain ⟨M, s⟩ := r
    simp only at hapart hcur ⊢
    have hset : ∀ (x : Semaphore) (p : Phase κ),
        (∀ k' s' f, p = .waiting k' s' f → k' = k ∧ s' = s) → (M.set s x t p).Apart := by
      intro x p hp
      refine ⟨hapart.entries, fun u k₁ k₂ s' f hu h₂ => ?_⟩
      by_cases hut : u = t
      · subst hut
        obtain ⟨rfl, rfl⟩ := hp k₁ s' f (by simpa using hu)
        exact hapart.entries k₂ k₁ s' h₂ hcur
      · rw [set_phase_ne M hut] at hu
        exact hapart.waits u k₁ k₂ s' f hu h₂
    split
    · refine hset _ _ fun k' s' f hp => ?_
      injection hp with hk hs
      exact ⟨hk.symm, hs.symm⟩
    · exact hset _ _ fun k' s' f hp => by cases hp

theorem Sound.exit (h : Sound L) (hexit : L.exit t = some M) : Sound M := by
  refine ⟨h.toWf.exit hexit, ?_, h.apart.exit hexit⟩
  unfold LockTable.exit at hexit
  split at hexit
  case h_2 => cases hexit
  case h_1 k s hp =>
    rw [← Option.some.inj hexit]
    have habout : (L.phase t).About s := by
      rw [hp]
      rfl
    exact (h.taken.set habout fun hzero => by simp at hzero).wakeUpNext
      (h.about_others fun _ hu => hu)

theorem Sound.resume (h : Sound L) (hres : L.resume t = some M) : Sound M := by
  refine ⟨h.toWf.resume hres, ?_, h.apart.resume hres⟩
  unfold LockTable.resume at hres
  split at hres
  case h_2 => cases hres
  case h_1 k s hp =>
    have hzero := h.value_eq_zero (t := t) (.inr ⟨k, hp⟩)
    obtain rfl : L.set s { L.sems s with waiters := (L.sems s).waiters.erase t } t
        (.holding k s) = M := by simpa [hzero] using hres
    have habout : (L.phase t).About s := by
      rw [hp]
      rfl
    exact h.taken.set habout fun _ => ⟨t, by simp [Phase.Owns]⟩

theorem Sound.cancel (h : Sound L) (t : Nat) : Sound (L.cancel t) := by
  refine ⟨h.toWf.cancel t, ?_, h.apart.cancel t⟩
  unfold LockTable.cancel
  split
  case h_2 => exact h.taken
  case h_1 k s hp =>
    have habout : (L.phase t).About s := by
      rw [hp]
      rfl
    exact h.taken.set_same habout (by simp [hp, Phase.Owns]) rfl

theorem Sound.unwind (h : Sound L) (hun : L.unwind t = some M) : Sound M := by
  refine ⟨h.toWf.unwind hun, ?_, h.apart.unwind hun⟩
  unfold LockTable.unwind at hun
  split at hun
  case h_3 => cases hun
  case h_1 k s hp =>
    rw [← Option.some.inj hun]
    have habout : (L.phase t).About s := by
      rw [hp]
      rfl
    exact h.taken.set_same habout (by simp [hp, Phase.Owns]) rfl
  case h_2 k s hp =>
    rw [← Option.some.inj hun]
    have habout : (L.phase t).About s := by
      rw [hp]
      rfl
    exact (h.taken.set habout fun hzero => by simp at hzero).wakeUpNext
      (h.about_others fun _ hu => List.mem_of_mem_erase hu)

theorem Sound.cleanup [DecidableEq κ] (h : Sound L) (k : κ) : Sound (L.cleanup k) := by
  refine ⟨h.toWf.cleanup k, ?_, ?_⟩
  · have hsound := h.getitem k
    unfold LockTable.cleanup
    generalize L.getitem k = r at hsound
    obtain ⟨M, s⟩ := r
    simp only at hsound ⊢
    split <;> exact hsound.taken
  · have hsound := h.getitem k
    unfold LockTable.cleanup
    generalize L.getitem k = r at hsound
    obtain ⟨M, s⟩ := r
    simp only at hsound ⊢
    split
    · exact hsound.apart
    · have hold : ∀ {k' : κ} {s' : Nat}, Function.update M.dict k none k' = some s' →
          M.dict k' = some s' := by
        intro k' s' hk'
        by_cases hkk : k' = k
        · simp [hkk] at hk'
        · simpa [hkk] using hk'
      exact ⟨fun k₁ k₂ s' h₁ h₂ => hsound.apart.entries k₁ k₂ s' (hold h₁) (hold h₂),
        fun u k₁ k₂ s' f hp h₂ => hsound.apart.waits u k₁ k₂ s' f hp (hold h₂)⟩

/-! ### Other keys are left alone -/

/-- The key that a task is at. -/
def Phase.key : Phase κ → Option κ
  | .idle => none
  | .waiting k _ _ => some k
  | .holding k _ => some k

@[simp] theorem Phase.key_wake (p : Phase κ) : p.wake.key = p.key := by
  cases p <;> rfl

/-- From `L` to `M` nothing changed at key `k`. -/
structure Aside (L M : LockTable κ) (k : κ) : Prop where
  entry : M.dict k = L.dict k
  sem : ∀ s, L.dict k = some s → M.sems s = L.sems s
  phase : ∀ u, (L.phase u).key = some k ∨ (M.phase u).key = some k → M.phase u = L.phase u

variable {N : LockTable κ}

theorem Aside.refl (L : LockTable κ) (k : κ) : Aside L L k := ⟨rfl, fun _ _ => rfl, fun _ _ => rfl⟩

theorem Aside.trans (h : Aside L M k) (h' : Aside M N k) : Aside L N k := by
  refine ⟨h'.entry.trans h.entry, fun s hs => ?_, fun u hu => ?_⟩
  · exact (h'.sem s (h.entry.trans hs)).trans (h.sem s hs)
  · rcases hu with hu | hu
    · have heq := h.phase u (.inl hu)
      exact (h'.phase u (.inl (heq ▸ hu))).trans heq
    · have heq := h'.phase u (.inr hu)
      exact heq.trans (h.phase u (.inr (heq ▸ hu)))

/-- A semaphore and a task of another key change. -/
theorem Aside.set {x : Semaphore} {p : Phase κ} (hs : L.dict k ≠ some s)
    (hbefore : (L.phase t).key ≠ some k) (hafter : p.key ≠ some k) :
    Aside L (L.set s x t p) k := by
  refine ⟨rfl, fun s' hs' => ?_, fun u hu => ?_⟩
  · have hne : s' ≠ s := by
      rintro rfl
      exact hs hs'
    exact set_sems_ne L hne _ _ _
  · have hut : u ≠ t := by
      rintro rfl
      rw [set_phase_self] at hu
      exact hu.elim hbefore hafter
    exact set_phase_ne L hut _ _ _

theorem Aside.wakeUpNext (hs : L.dict k ≠ some s)
    (hwaiters : ∀ w ∈ (L.sems s).waiters, (L.phase w).key ≠ some k) :
    Aside L (L.wakeUpNext s) k := by
  unfold LockTable.wakeUpNext
  cases hfind : (L.sems s).waiters.find? (fun t => (L.phase t).pending) with
  | none => exact .refl L k
  | some w =>
      have hw := hwaiters w (List.mem_of_find?_eq_some hfind)
      exact .set hs hw (by simpa using hw)

/-- A task leaves the semaphore of another key, and wakes one that waits for it. -/
theorem Sound.aside_leave (h : Sound L) {k' : κ} {x : Semaphore} (hk : k' ≠ k)
    (hkey : (L.phase t).key = some k') (hcur : L.dict k' = some s)
    (hx : ∀ u ∈ x.waiters, u ∈ (L.sems s).waiters) :
    Aside L ((L.set s x t .idle).wakeUpNext s) k := by
  have hs : L.dict k ≠ some s := fun hks => hk (h.apart.entries k' k s hcur hks)
  have hset : Aside L (L.set s x t .idle) k :=
    .set hs (fun hkk => hk (Option.some.inj (hkey.symm.trans hkk))) (by simp [Phase.key])
  refine hset.trans (.wakeUpNext hs fun w hw => ?_)
  by_cases hwt : w = t
  · subst hwt
    simp [Phase.key]
  · obtain ⟨k₁, f, hp⟩ := (h.mem_waiters s w).mp (hx w (by simpa using hw))
    obtain rfl : k' = k₁ := h.apart.waits w k₁ k' s f hp hcur
    rw [set_phase_ne L hwt, hp]
    simpa [Phase.key] using hk

theorem Sound.aside_exit (h : Sound L) {k' : κ} (hk : k' ≠ k)
    (hkey : (L.phase t).key = some k') (hexit : L.exit t = some M) : Aside L M k := by
  unfold LockTable.exit at hexit
  split at hexit
  case h_2 => cases hexit
  case h_1 k₁ s hp =>
    obtain rfl : k₁ = k' := by simpa [hp, Phase.key] using hkey
    rw [← Option.some.inj hexit]
    exact h.aside_leave hk hkey (h.current t k₁ s (.inl hp)) fun _ hu => hu

theorem Sound.aside_resume (h : Sound L) {k' : κ} (hk : k' ≠ k)
    (hkey : (L.phase t).key = some k') (hres : L.resume t = some M) : Aside L M k := by
  unfold LockTable.resume at hres
  split at hres
  case h_2 => cases hres
  case h_1 k₁ s hp =>
    obtain rfl : k₁ = k' := by simpa [hp, Phase.key] using hkey
    have hzero := h.value_eq_zero (t := t) (.inr ⟨k₁, hp⟩)
    obtain rfl : L.set s { L.sems s with waiters := (L.sems s).waiters.erase t } t
        (.holding k₁ s) = M := by simpa [hzero] using hres
    have hs : L.dict k ≠ some s := fun hks => hk (h.apart.waits t k₁ k s _ hp hks).symm
    exact .set hs (by simpa [hp, Phase.key] using hk) (by simpa [Phase.key] using hk)

theorem Sound.aside_unwind (h : Sound L) {k' : κ} (hk : k' ≠ k)
    (hkey : (L.phase t).key = some k') (hun : L.unwind t = some M) : Aside L M k := by
  unfold LockTable.unwind at hun
  split at hun
  case h_3 => cases hun
  case h_1 k₁ s hp =>
    obtain rfl : k₁ = k' := by simpa [hp, Phase.key] using hkey
    rw [← Option.some.inj hun]
    have hs : L.dict k ≠ some s := fun hks => hk (h.apart.waits t k₁ k s _ hp hks).symm
    exact .set hs (by simpa [hp, Phase.key] using hk) (by simp [Phase.key])
  case h_2 k₁ s hp =>
    obtain rfl : k₁ = k' := by simpa [hp, Phase.key] using hkey
    rw [← Option.some.inj hun]
    exact h.aside_leave hk hkey (h.current t k₁ s (.inr ⟨.woken, by simp, hp⟩))
      fun _ hu => List.mem_of_mem_erase hu

/-- A waiter under another key, or a task that does not wait at all, is cancelled. -/
theorem Sound.aside_cancel (h : Sound L) (hkey : (L.phase t).key ≠ some k) :
    Aside L (L.cancel t) k := by
  unfold LockTable.cancel
  split
  case h_2 => exact .refl L k
  case h_1 k₁ s hp =>
    have hk : k₁ ≠ k := by simpa [hp, Phase.key] using hkey
    have hs : L.dict k ≠ some s := fun hks => hk (h.apart.waits t k₁ k s _ hp hks).symm
    exact .set hs hkey (by simpa [Phase.key] using hk)

theorem aside_getitem [DecidableEq κ] (L : LockTable κ) {k' : κ} (hk : k' ≠ k) :
    Aside L (L.getitem k').1 k := by
  refine ⟨dict_getitem_ne L hk.symm, fun s _ => ?_, fun u _ => ?_⟩
  · unfold getitem
    split <;> rfl
  · rw [phase_getitem]

theorem Sound.aside_enter [DecidableEq κ] (h : Sound L) {k' : κ} (hk : k' ≠ k)
    (hkey : (L.phase t).key ≠ some k) : Aside L (L.enter t k') k := by
  have haside := aside_getitem L hk
  obtain ⟨-, hcur, hphase⟩ := h.toWf.getitem k'
  have hapart := h.apart_getitem k'
  unfold LockTable.enter
  generalize L.getitem k' = r at haside hcur hphase hapart
  obtain ⟨M, s⟩ := r
  simp only at haside hcur hphase hapart ⊢
  have hs : M.dict k ≠ some s := fun hks => hk (hapart.entries k' k s hcur hks)
  split <;> exact haside.trans (.set hs (by rwa [hphase]) (by simpa [Phase.key] using hk))

theorem aside_cleanup [DecidableEq κ] (L : LockTable κ) {k' : κ} (hk : k' ≠ k) :
    Aside L (L.cleanup k') k := by
  have haside := aside_getitem L hk
  unfold LockTable.cleanup
  generalize L.getitem k' = r at haside
  obtain ⟨M, s⟩ := r
  simp only at haside ⊢
  split
  · exact haside
  · exact haside.trans ⟨by simp [hk.symm], fun _ _ => rfl, fun _ _ => rfl⟩

/-! ### Futures and the tasks that they belong to

A program that keeps its tasks in a list, with a mark on those it cancelled. -/

variable {α : Type*} {c : α → Bool} {l : List α} {x y : α}

/-- A pending future is that of a task that is not cancelled, and a cancelled one that of a
task that is. -/
def Tended (c : α → Bool) (L : LockTable κ) (l : List α) : Prop :=
  ∀ (t : Nat) (x : α), l[t]? = some x → ∀ (k : κ) (s : Nat) (f : Fut),
    L.phase t = .waiting k s f → (f = .pending → c x = false) ∧ (f = .cancelled → c x = true)

theorem tended_empty (c : α → Bool) : Tended c (empty : LockTable κ) [] := by
  intro t x hx
  simp at hx

/-- The general step of a task: it and the table change, and no other future is cancelled or
made. -/
theorem Tended.set (h : Tended c L l)
    (hself : ∀ k s f, M.phase t = .waiting k s f →
      (f = .pending → c y = false) ∧ (f = .cancelled → c y = true))
    (hother : ∀ u k s f, u ≠ t → f ≠ .woken → M.phase u = .waiting k s f →
      L.phase u = .waiting k s f) : Tended c M (l.set t y) := by
  intro u z hz k s f hp
  rcases Objects.set_cases hz with ⟨rfl, rfl, -⟩ | ⟨hu, hold⟩
  · exact hself k s f hp
  · by_cases hf : f = .woken
    · subst hf
      exact ⟨fun hf => absurd hf (by simp), fun hf => absurd hf (by simp)⟩
    · exact h u z hold k s f (hother u k s f hu hf hp)

/-- A task goes on and stays at its future. -/
theorem Tended.stay (h : Tended c L l) (hx : l[t]? = some x) (hc : c y = c x) :
    Tended c L (l.set t y) := by
  refine h.set (fun k s f hp => ?_) fun u k s f _ _ hp => hp
  rw [hc]
  exact h t x hx k s f hp

theorem phase_enter_self [DecidableEq κ] (L : LockTable κ) (t : Nat) (k : κ) :
    ∃ s, (L.enter t k).phase t = .waiting k s .pending ∨ (L.enter t k).phase t = .holding k s := by
  unfold enter
  generalize L.getitem k = r
  obtain ⟨M, s⟩ := r
  simp only
  split
  · exact ⟨s, .inl (by simp)⟩
  · exact ⟨s, .inr (by simp)⟩

/-- A task that just asked for a lock has no cancelled future. -/
theorem pending_of_enter [DecidableEq κ] {k' : κ} {f : Fut}
    (hp : (L.enter t k).phase t = .waiting k' s f) : f = .pending := by
  obtain ⟨s', hs' | hs'⟩ := phase_enter_self L t k
  · rw [hs'] at hp
    injection hp with _ _ hf
    exact hf.symm
  · rw [hs'] at hp
    cases hp

/-- A task that is not cancelled asks for a lock. -/
theorem Tended.enter [DecidableEq κ] (h : Tended c L l) (hc : c y = false) (k : κ) :
    Tended c (L.enter t k) (l.set t y) := by
  refine h.set (fun k' s f hp => ⟨fun _ => hc, ?_⟩) fun u k' s f hu _ hp => ?_
  · rintro rfl
    exact absurd (pending_of_enter hp) (by simp)
  · rwa [phase_enter_ne L k hu] at hp

/-- A task that is created asks for a lock at once. -/
theorem Tended.enterNew [DecidableEq κ] (h : Tended c L l) (hc : c y = false) (k : κ) :
    Tended c (L.enter l.length k) (l ++ [y]) := by
  intro u z hz k' s f hp
  rcases Objects.append_cases hz with hold | ⟨rfl, rfl⟩
  · obtain ⟨hlt, -⟩ := List.getElem?_eq_some_iff.mp hold
    rw [phase_enter_ne L k (Nat.ne_of_lt hlt)] at hp
    exact h u z hold k' s f hp
  · refine ⟨fun _ => hc, ?_⟩
    rintro rfl
    exact absurd (pending_of_enter hp) (by simp)

/-- A task that is created outside. -/
theorem Tended.append (h : Tended c L l) (hidle : L.phase l.length = .idle) :
    Tended c L (l ++ [y]) := by
  intro u z hz k s f hp
  rcases Objects.append_cases hz with hold | ⟨rfl, rfl⟩
  · exact h u z hold k s f hp
  · rw [hidle] at hp
    cases hp

theorem Tended.exit (h : Tended c L l) (hexit : L.exit t = some M) : Tended c M (l.set t y) := by
  refine h.set (fun k s f hp => ?_) fun u k s f hu hf hp => waiting_of_exit hexit hf hu hp
  rw [(place_exit hexit).2.1] at hp
  cases hp

theorem Tended.resume (h : Tended c L l) (hres : L.resume t = some M) : Tended c M l := by
  intro u z hz k s f hp
  obtain ⟨⟨k', s', -, hholds⟩, -⟩ := place_resume hres
  by_cases hu : u = t
  · subst hu
    rw [hholds] at hp
    cases hp
  · by_cases hf : f = .woken
    · subst hf
      exact ⟨fun hf => absurd hf (by simp), fun hf => absurd hf (by simp)⟩
    · exact h u z hz k s f (waiting_of_resume hres hf hu hp)

theorem Tended.unwind (h : Tended c L l) (hun : L.unwind t = some M) :
    Tended c M (l.set t y) := by
  refine h.set (fun k s f hp => ?_) fun u k s f hu hf hp => waiting_of_unwind hun hf hu hp
  rw [(place_unwind hun).2.1] at hp
  cases hp

/-- A task is marked as cancelled along with its future. -/
theorem Tended.cancel (h : Tended c L l) (hc : c y = true) : Tended c (L.cancel t) (l.set t y) := by
  refine h.set (fun k s f hp => ⟨?_, fun _ => hc⟩) fun u k s f hu _ hp => ?_
  · rintro rfl
    exact absurd hp (not_pending_cancel L t k s)
  · rwa [phase_cancel_ne L hu] at hp

theorem Tended.cleanup [DecidableEq κ] (h : Tended c L l) (k : κ) : Tended c (L.cleanup k) l := by
  intro u z hz k' s f hp
  rw [phase_cleanup] at hp
  exact h u z hz k' s f hp

/-- **A waiting task is not forgotten**: it can take the lock, it can give up if it was
cancelled, or another task has the permit. -/
theorem Tended.goesOn (h : Tended c L l) (hsound : Sound L) (hx : l[t]? = some x) {f : Fut}
    (hp : L.phase t = .waiting k s f) :
    (c x = false ∧ (L.resume t).isSome) ∨ (c x = true ∧ (L.unwind t).isSome) ∨
      (f = .pending ∧ ∃ u, u ≠ t ∧ (L.phase u).Owns s) := by
  cases f with
  | pending => exact .inr (.inr ⟨rfl, hsound.owner_of_pending hp⟩)
  | cancelled => exact .inr (.inl ⟨(h t x hx k s _ hp).2 rfl, by simp [LockTable.unwind, hp]⟩)
  | woken =>
      cases hc : c x with
      | false => exact .inl ⟨rfl, by simp [LockTable.resume, hp]⟩
      | true => exact .inr (.inl ⟨rfl, by simp [LockTable.unwind, hp]⟩)

end LockTable
