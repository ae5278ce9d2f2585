import RayOnGolem.Lib.GuardedRun
import RayOnGolem.Lib.Objects

/-!
# The default ssh key of a cluster

`get_or_create_default_ssh_key` tests whether the private file exists, awaits `ssh-keygen`
if it does not, and reads both files.  It takes no lock, and `ssh-keygen` writes the private
file and then the public one while other requests go on.

The state is the two files and all calls for one cluster name; a step is a new call, a
write of some call's `ssh-keygen`, or a call that goes on when its `ssh-keygen` has ended.
Everything up to the next await of a call is one step.

A call that begins while an `ssh-keygen` has not written the public file either fails at
once or starts a second `ssh-keygen`, and then one of the two fails (`Doomed`).  Main
results:

* `concurrent_keys_agree` -- without such a call all calls agree on one matching pair, and
  with one some call fails;
* `second_call_fails` -- the two ways in which two calls go wrong.
-/

namespace DefaultSshKey

open Runs

/-- A pair of keys: each `ssh-keygen` makes another one, named by the call that runs it. -/
abbrev KeyPair := Nat

/-- Where a call is: `ssh-keygen` has written nothing, the private file, both files, or has
ended because the private file exists; or the call has ended. -/
inductive Stage
  | generating
  | privateWritten
  | written
  | refused
  | returned (privateKey publicKey : KeyPair)
  | fileNotFound
  | processFailed
  deriving DecidableEq, Repr

/-- The two files, by the pair that they are of, and the calls. -/
structure State where
  privateFile : Option KeyPair := none
  publicFile : Option KeyPair := none
  calls : List Stage := []
  deriving DecidableEq, Repr

/-- What can happen. -/
inductive Act
  | call
  | writePrivate (i : Nat)
  | writePublic (i : Nat)
  | resume (i : Nat)
  deriving DecidableEq, Repr

/-- Opening and reading both files. -/
def State.read (s : State) : Stage :=
  match s.privateFile, s.publicFile with
  | some privateKey, some publicKey => .returned privateKey publicKey
  | _, _ => .fileNotFound

/-- One step. -/
def step (s : State) : Act → Option State
  | .call =>
      -- the key exists: there is no await before both files are read
      if s.privateFile.isSome then some { s with calls := s.calls ++ [s.read] }
      else some { s with calls := s.calls ++ [.generating] }
  | .writePrivate i =>
      if s.calls[i]? = some .generating then
        if s.privateFile.isSome then some { s with calls := s.calls.set i .refused }
        else some { s with privateFile := some i, calls := s.calls.set i .privateWritten }
      else none
  | .writePublic i =>
      if s.calls[i]? = some .privateWritten then
        some { s with publicFile := some i, calls := s.calls.set i .written }
      else none
  | .resume i =>
      match s.calls[i]? with
      | some .written => some { s with calls := s.calls.set i s.read }
      | some .refused => some { s with calls := s.calls.set i .processFailed }
      | _ => none

/-- No key on disk, and no call. -/
def Initial (s : State) : Prop := s = {}

/-- The call has ended with an exception. -/
def Stage.failed : Stage → Bool
  | .fileNotFound | .processFailed => true
  | .generating | .privateWritten | .written | .refused | .returned _ _ => false

/-- The call has ended. -/
def Stage.ended : Stage → Bool
  | .returned _ _ | .fileNotFound | .processFailed => true
  | .generating | .privateWritten | .written | .refused => false

/-- `ssh-keygen` has the public file still to write. -/
def Stage.writing : Stage → Bool
  | .generating | .privateWritten => true
  | .written | .refused | .returned _ _ | .fileNotFound | .processFailed => false

/-- No call failed, and all calls that returned returned the files of one pair. -/
structure Agree (s : State) : Prop where
  none_failed : ∀ c ∈ s.calls, c.failed = false
  one_pair : ∃ k, ∀ privateKey publicKey, .returned privateKey publicKey ∈ s.calls →
    privateKey = k ∧ publicKey = k

/-- No call begins while an `ssh-keygen` has the public file still to write. -/
def besideWriting (s : State) (a : Act) : Bool :=
  a != .call || s.calls.all fun c => !c.writing

variable {s s' : State} {a : Act}

/-! ### One `ssh-keygen` at a time -/

/-- The states of runs in which no call begins too early: the first call makes the pair `0`. -/
inductive Orderly : State → Prop
  | start : Orderly {}
  | generating : Orderly { calls := [.generating] }
  | privateWritten : Orderly { privateFile := some 0, calls := [.privateWritten] }
  | done (calls : List Stage) (h : ∀ c ∈ calls, c = .written ∨ c = .returned 0 0) :
      Orderly { privateFile := some 0, publicFile := some 0, calls := calls }

theorem Orderly.agree (h : Orderly s) : Agree s := by
  cases h with
  | start => exact ⟨by simp, 0, by simp⟩
  | generating => exact ⟨by simp [Stage.failed], 0, by simp⟩
  | privateWritten => exact ⟨by simp [Stage.failed], 0, by simp⟩
  | done calls h =>
      refine ⟨fun c hc => ?_, 0, fun privateKey publicKey hmem => ?_⟩
      · rcases h c hc with rfl | rfl <;> rfl
      · rcases h _ hmem with heq | heq <;> cases heq
        exact ⟨rfl, rfl⟩

theorem orderly_initial (h : Initial s) : Orderly s := h ▸ .start

/-- Replacing one stage by one that the others have too. -/
theorem forall_mem_set {calls : List Stage} {p : Stage → Prop} {i : Nat} {c : Stage}
    (h : ∀ d ∈ calls, p d) (hc : p c) : ∀ d ∈ calls.set i c, p d := by
  intro d hd
  rcases List.mem_or_eq_of_mem_set hd with hold | rfl
  · exact h d hold
  · exact hc

theorem getElem?_singleton {c d : Stage} {i : Nat} (h : [c][i]? = some d) : i = 0 ∧ d = c := by
  cases i with
  | zero => exact ⟨rfl, by simpa using h.symm⟩
  | succ i => simp at h

/-- Every step without a call that begins too early. -/
theorem Orderly.step (h : Orderly s) (hok : besideWriting s a = true)
    (hs : step s a = some s') : Orderly s' := by
  cases h with
  | start =>
      cases a with
      | call =>
          cases hs
          exact .generating
      | writePrivate i => simp [DefaultSshKey.step] at hs
      | writePublic i => simp [DefaultSshKey.step] at hs
      | resume i => simp [DefaultSshKey.step] at hs
  | generating =>
      cases a with
      | call => simp [besideWriting, Stage.writing] at hok
      | writePrivate i =>
          obtain ⟨hi, hs⟩ := Option.ite_none_right_eq_some.mp hs
          obtain ⟨rfl, -⟩ := getElem?_singleton hi
          cases hs
          exact .privateWritten
      | writePublic i =>
          obtain ⟨hi, hs⟩ := Option.ite_none_right_eq_some.mp hs
          cases (getElem?_singleton hi).2
      | resume i =>
          cases i with
          | zero => cases hs
          | succ i => simp [DefaultSshKey.step] at hs
  | privateWritten =>
      cases a with
      | call => simp [besideWriting, Stage.writing] at hok
      | writePrivate i =>
          obtain ⟨hi, hs⟩ := Option.ite_none_right_eq_some.mp hs
          cases (getElem?_singleton hi).2
      | writePublic i =>
          obtain ⟨hi, hs⟩ := Option.ite_none_right_eq_some.mp hs
          obtain ⟨rfl, -⟩ := getElem?_singleton hi
          cases hs
          exact .done [.written] (by simp)
      | resume i =>
          cases i with
          | zero => cases hs
          | succ i => simp [DefaultSshKey.step] at hs
  | done calls h =>
      -- no `ssh-keygen` is left that writes
      have hnone : ∀ {i : Nat} {c : Stage}, calls[i]? = some c →
          c = .written ∨ c = .returned 0 0 :=
        fun hi => h _ (List.mem_of_getElem? hi)
      cases a with
      | call =>
          cases hs
          refine .done _ fun c hc => ?_
          rcases List.mem_append.mp hc with hold | hnew
          · exact h c hold
          · exact .inr (List.mem_singleton.mp hnew)
      | writePrivate i =>
          obtain ⟨hi, -⟩ := Option.ite_none_right_eq_some.mp hs
          rcases hnone hi with heq | heq <;> cases heq
      | writePublic i =>
          obtain ⟨hi, -⟩ := Option.ite_none_right_eq_some.mp hs
          rcases hnone hi with heq | heq <;> cases heq
      | resume i =>
          simp only [DefaultSshKey.step] at hs
          split at hs
          · cases hs
            exact .done _ (forall_mem_set h (.inr rfl))
          · rename_i hi
            rcases hnone hi with heq | heq <;> cases heq
          · cases hs

/-! ### Two of them -/

/-- Some call has failed, or will when its `ssh-keygen` ends: the `ssh-keygen` was refused, it
comes behind the private file, or there are two that have written nothing. -/
inductive Doomed (s : State) : Prop
  | failed (i : Nat) (c : Stage) (hi : s.calls[i]? = some c) (hc : c.failed = true)
  | refused (i : Nat) (hi : s.calls[i]? = some .refused)
  | behind (i : Nat) (hi : s.calls[i]? = some .generating) (hfile : s.privateFile.isSome = true)
  | two (i j : Nat) (hne : i ≠ j) (hi : s.calls[i]? = some .generating)
      (hj : s.calls[j]? = some .generating)

/-- A call changes by its own steps only. -/
theorem step_call (hs : step s a = some s') {i : Nat} {c : Stage} (hi : s.calls[i]? = some c) :
    s'.calls[i]? = some c ∨ (a = .writePrivate i ∧ c = .generating) ∨
      (a = .writePublic i ∧ c = .privateWritten) ∨
        (a = .resume i ∧ (c = .written ∨ c = .refused)) := by
  have hset : ∀ {j : Nat} (d : Stage), i ≠ j → (s.calls.set j d)[i]? = some c := by
    intro j d hne
    exact Objects.set_old hne hi
  cases a with
  | call =>
      simp only [step] at hs
      split at hs <;> cases hs <;> exact .inl (Objects.append_old hi)
  | writePrivate j =>
      obtain ⟨hj, hs⟩ := Option.ite_none_right_eq_some.mp hs
      by_cases hij : i = j
      · subst hij
        exact .inr (.inl ⟨rfl, Option.some.inj (hi.symm.trans hj)⟩)
      · split at hs <;> cases hs <;> exact .inl (hset _ hij)
  | writePublic j =>
      obtain ⟨hj, hs⟩ := Option.ite_none_right_eq_some.mp hs
      by_cases hij : i = j
      · subst hij
        exact .inr (.inr (.inl ⟨rfl, Option.some.inj (hi.symm.trans hj)⟩))
      · cases hs
        exact .inl (hset _ hij)
  | resume j =>
      simp only [step] at hs
      by_cases hij : i = j
      · subst hij
        refine .inr (.inr (.inr ⟨rfl, ?_⟩))
        split at hs
        · exact .inl (Option.some.inj (hi.symm.trans ‹_›))
        · exact .inr (Option.some.inj (hi.symm.trans ‹_›))
        · cases hs
      · split at hs
        · cases hs
          exact .inl (hset _ hij)
        · cases hs
          exact .inl (hset _ hij)
        · cases hs

/-- The private file stays. -/
theorem step_privateFile (hs : step s a = some s') (h : s.privateFile.isSome = true) :
    s'.privateFile.isSome = true := by
  cases a with
  | call =>
      simp only [step] at hs
      split at hs <;> cases hs <;> exact h
  | writePrivate i =>
      obtain ⟨-, hs⟩ := Option.ite_none_right_eq_some.mp hs
      rw [if_pos h] at hs
      cases hs
      exact h
  | writePublic i =>
      obtain ⟨-, hs⟩ := Option.ite_none_right_eq_some.mp hs
      cases hs
      exact h
  | resume i =>
      simp only [step] at hs
      split at hs <;> cases hs <;> exact h

/-- What becomes of an `ssh-keygen` that comes to write the private file. -/
theorem step_writePrivate {i : Nat} (hs : step s (.writePrivate i) = some s') :
    s.calls[i]? = some .generating ∧
      if s.privateFile.isSome then s'.calls[i]? = some .refused
      else s'.privateFile.isSome = true := by
  obtain ⟨hi, hs⟩ := Option.ite_none_right_eq_some.mp hs
  refine ⟨hi, ?_⟩
  split at hs
  · rename_i hfile
    cases hs
    rw [if_pos hfile]
    exact Objects.set_self hi
  · rename_i hfile
    cases hs
    rw [if_neg hfile]
    rfl

/-- **What is doomed stays so**, whatever goes on. -/
theorem Doomed.step (h : Doomed s) (hs : DefaultSshKey.step s a = some s') : Doomed s' := by
  cases h with
  | failed i c hi hc =>
      rcases step_call hs hi with hi' | ⟨-, rfl⟩ | ⟨-, rfl⟩ | ⟨-, rfl | rfl⟩
      · exact .failed i c hi' hc
      · cases hc
      · cases hc
      · cases hc
      · cases hc
  | refused i hi =>
      rcases step_call hs hi with hi' | ⟨-, heq⟩ | ⟨-, heq⟩ | ⟨rfl, -⟩
      · exact .refused i hi'
      · cases heq
      · cases heq
      · simp only [DefaultSshKey.step, hi] at hs
        cases hs
        exact .failed i .processFailed (Objects.set_self hi) rfl
  | behind i hi hfile =>
      rcases step_call hs hi with hi' | ⟨rfl, -⟩ | ⟨-, heq⟩ | ⟨-, heq | heq⟩
      · exact .behind i hi' (step_privateFile hs hfile)
      · have hrefused := (step_writePrivate hs).2
        rw [if_pos hfile] at hrefused
        exact .refused i hrefused
      · cases heq
      · cases heq
      · cases heq
  | two i j hne hi hj =>
      -- the first of the two that writes leaves the other one behind
      have hone : ∀ {i j : Nat}, i ≠ j → s.calls[j]? = some .generating →
          a = .writePrivate i → Doomed s' := by
        rintro i j hne hj rfl
        obtain ⟨hi, hwrite⟩ := step_writePrivate hs
        by_cases hfile : s.privateFile.isSome = true
        · rw [if_pos hfile] at hwrite
          exact .refused i hwrite
        · rw [if_neg hfile] at hwrite
          refine .behind j ?_ hwrite
          rcases step_call hs hj with hj' | ⟨heq, -⟩ | ⟨heq, -⟩ | ⟨heq, -⟩
          · exact hj'
          · cases heq
            exact absurd rfl hne
          · cases heq
          · cases heq
      rcases step_call hs hi with hi' | ⟨ha, -⟩ | ⟨-, heq⟩ | ⟨-, heq | heq⟩
      · rcases step_call hs hj with hj' | ⟨ha, -⟩ | ⟨-, heq⟩ | ⟨-, heq | heq⟩
        · exact .two i j hne hi' hj'
        · exact hone (Ne.symm hne) hi ha
        · cases heq
        · cases heq
        · cases heq
      · exact hone hne hj ha
      · cases heq
      · cases heq
      · cases heq

/-- When all calls have ended, one of them has failed. -/
theorem Doomed.not_agree (h : Doomed s) (hended : ∀ c ∈ s.calls, c.ended = true) :
    ¬ Agree s := by
  intro hagree
  cases h with
  | failed i c hi hc =>
      rw [hagree.none_failed c (List.mem_of_getElem? hi)] at hc
      cases hc
  | refused i hi => cases hended _ (List.mem_of_getElem? hi)
  | behind i hi hfile => cases hended _ (List.mem_of_getElem? hi)
  | two i j hne hi hj => cases hended _ (List.mem_of_getElem? hi)

/-- A call that begins too early. -/
theorem Orderly.doomed (h : Orderly s) (hok : besideWriting s a = false)
    (hs : DefaultSshKey.step s a = some s') : Doomed s' := by
  obtain ⟨hcall, hwriting⟩ := Bool.or_eq_false_iff.mp hok
  obtain rfl : a = .call := by simpa using hcall
  cases h with
  | start => cases hwriting
  | generating =>
      cases hs
      exact .two 0 1 (by simp) rfl rfl
  | privateWritten =>
      cases hs
      exact .failed 1 .fileNotFound rfl rfl
  | done calls h =>
      obtain ⟨c, hc, hcwriting⟩ : ∃ c ∈ calls, c.writing = true := by simpa using hwriting
      rcases h c hc with rfl | rfl <;> cases hcwriting

/-! ### The runs -/

/-- **Concurrent requests for the default key agree as long as none begins while an
`ssh-keygen` has the public file still to write.**  Whatever the order of the writes and of
the calls, then no call fails and all return the files of one pair.  A call that does begin
so makes some call fail: whatever follows, when all calls have ended they do not agree. -/
theorem concurrent_keys_agree (s : State)
    (h : Reach Initial step (fun s a => besideWriting s a) s) :
    Agree s ∧ ∀ a s', step s a = some s' →
      (besideWriting s a = true → Agree s') ∧
        (besideWriting s a = false → ∀ t, Reachable (· = s') step t →
          (∀ c ∈ t.calls, c.ended = true) → ¬ Agree t) := by
  have horderly : Orderly s :=
    Reach.invariant (fun _ => orderly_initial) (fun _ _ _ hi hok hstep => hi.step hok hstep) h
  refine ⟨horderly.agree, fun a s' hs => ⟨fun hok => (horderly.step hok hs).agree, ?_⟩⟩
  intro hok t ht hended
  have hdoomed : Doomed t :=
    Reach.invariant (I := Doomed) (fun r (hr : r = s') => hr ▸ horderly.doomed hok hs)
      (fun _ _ _ hi _ hstep => hi.step hstep) ht
  exact hdoomed.not_agree hended

/-- The second call begins between the write of the public file and the end of the first. -/
def orderlyCalls : List Act := [.call, .writePrivate 0, .writePublic 0, .call, .resume 0]

theorem concurrent_keys_agree_orderlyCalls :
    ∃ s, exec step orderlyCalls {} = some s ∧ s.calls = [.returned 0 0, .returned 0 0] ∧
      Agree s := by
  have hrun : exec (guarded step besideWriting) orderlyCalls {} =
      some ⟨some 0, some 0, [.returned 0 0, .returned 0 0]⟩ := rfl
  exact ⟨⟨some 0, some 0, [.returned 0 0, .returned 0 0]⟩, rfl, rfl,
    (concurrent_keys_agree _ (Reach.execGuarded orderlyCalls (.start rfl) hrun)).1⟩

/-- **A second call fails**: it finds the private file without the public one; or it starts
an `ssh-keygen` of its own, which finds the private file of the first. -/
theorem second_call_fails :
    (∃ s, Reachable Initial step s ∧ s.calls = [.privateWritten, .fileNotFound] ∧ ¬ Agree s) ∧
      ∃ s, Reachable Initial step s ∧ s.calls = [.returned 0 0, .processFailed] ∧ ¬ Agree s := by
  refine ⟨⟨⟨some 0, none, [.privateWritten, .fileNotFound]⟩, ?_, rfl, fun h => ?_⟩,
    ⟨⟨some 0, some 0, [.returned 0 0, .processFailed]⟩, ?_, rfl, fun h => ?_⟩⟩
  · exact Reach.exec [.call, .writePrivate 0, .call] (.start rfl) rfl
  · cases h.none_failed .fileNotFound (by simp)
  · exact Reach.exec [.call, .call, .writePrivate 0, .writePrivate 1, .writePublic 0,
      .resume 0, .resume 1] (.start rfl) rfl
  · cases h.none_failed .processFailed (by simp)

end DefaultSshKey
