import Mathlib.Data.List.Basic
import Mathlib.Data.List.Count
import Mathlib.Data.List.Induction

/-!
# Splitting a text into words

A `Scanner` reads a text one character at a time.  Its mode says how the next character is
taken, and a step keeps the character as a part of the current word, begins a word without it,
drops it, or ends the word.  `split` gives the words of a whole text, or `none` where the
scanner refuses it.

The two rules that the uses rest on:

* `split_join`: texts that a scanner `Reads` as words, joined by a character that cuts, split
  into these words;
* `chars_of_scan`: the characters of the words are a sublist of those of the text, so a
  character that some step does not keep is missing.
-/

namespace WordScanner

variable {α μ : Type*}

/-- What a step does with its character. -/
inductive Effect
  | keep
  | start
  | drop
  | cut
  deriving DecidableEq, Repr

/-- A scanner: where each step leads and what it does, and where a text may end. -/
structure Scanner (α μ : Type*) where
  step : μ → α → Option (μ × Effect)
  final : μ → Bool

/-- A scan under way; `word` is the word that has begun. -/
structure Scan (α μ : Type*) where
  mode : μ
  word : Option (List α) := none
  words : List (List α) := []
  deriving DecidableEq, Repr

namespace Scan

/-- The scan after a step. -/
def apply (s : Scan α μ) (m : μ) (c : α) : Effect → Scan α μ
  | .keep => { mode := m, word := some (s.word.getD [] ++ [c]), words := s.words }
  | .start => { mode := m, word := some (s.word.getD []), words := s.words }
  | .drop => { s with mode := m }
  | .cut => { mode := m, word := none, words := s.words ++ s.word.toList }

/-- The words, with the one that has begun. -/
def all (s : Scan α μ) : List (List α) := s.words ++ s.word.toList

/-- The characters kept so far. -/
def chars (s : Scan α μ) : List α := s.all.flatten

@[simp] theorem chars_keep (s : Scan α μ) (m : μ) (c : α) :
    (s.apply m c .keep).chars = s.chars ++ [c] := by
  cases h : s.word <;> simp [chars, all, apply, h]

@[simp] theorem chars_start (s : Scan α μ) (m : μ) (c : α) :
    (s.apply m c .start).chars = s.chars := by
  cases h : s.word <;> simp [chars, all, apply, h]

@[simp] theorem chars_drop (s : Scan α μ) (m : μ) (c : α) :
    (s.apply m c .drop).chars = s.chars := rfl

@[simp] theorem chars_cut (s : Scan α μ) (m : μ) (c : α) :
    (s.apply m c .cut).chars = s.chars := by
  simp [chars, all, apply]

@[simp] theorem mode_apply (s : Scan α μ) (m : μ) (c : α) (e : Effect) :
    (s.apply m c e).mode = m := by
  cases e <;> rfl

/-- Only `keep` adds a character. -/
theorem chars_apply (s : Scan α μ) (m : μ) (c : α) (e : Effect) :
    (s.apply m c e).chars = s.chars ++ if e = .keep then [c] else [] := by
  cases e <;> simp

end Scan

namespace Scanner

variable (S : Scanner α μ)

/-- The next character. -/
def next (s : Scan α μ) (c : α) : Option (Scan α μ) :=
  (S.step s.mode c).map fun r => s.apply r.1 c r.2

/-- A whole text. -/
def scan (s : Scan α μ) (text : List α) : Option (Scan α μ) := text.foldlM S.next s

/-- The words of a text that is read from mode `m` on. -/
def split (m : μ) (text : List α) : Option (List (List α)) :=
  match S.scan { mode := m } text with
  | some s => if S.final s.mode then some s.all else none
  | none => none

@[simp] theorem scan_nil (s : Scan α μ) : S.scan s [] = some s := rfl

@[simp] theorem scan_cons (s : Scan α μ) (c : α) (text : List α) :
    S.scan s (c :: text) = (S.next s c).bind fun s' => S.scan s' text := rfl

theorem scan_append (s : Scan α μ) (t u : List α) :
    S.scan s (t ++ u) = (S.scan s t).bind fun s' => S.scan s' u := by
  simp [scan, List.foldlM_append]

variable {S}

theorem next_eq_some {s s' : Scan α μ} {c : α} :
    S.next s c = some s' ↔ ∃ m e, S.step s.mode c = some (m, e) ∧ s.apply m c e = s' := by
  simp [next]

/-- A scan of two texts passes through a scan of the first one. -/
theorem exists_scan_of_append {s s' : Scan α μ} {t u : List α}
    (h : S.scan s (t ++ u) = some s') :
    ∃ r, S.scan s t = some r ∧ S.scan r u = some s' := by
  rw [scan_append] at h
  exact Option.bind_eq_some_iff.mp h

theorem split_eq_some {m : μ} {text : List α} {ws : List (List α)} :
    S.split m text = some ws ↔
      ∃ s, S.scan { mode := m } text = some s ∧ S.final s.mode = true ∧ s.all = ws := by
  unfold split
  cases S.scan { mode := m } text with
  | none => simp
  | some s => by_cases hf : S.final s.mode = true <;> simp [hf]

/-! ### Reading words -/

/-- From mode `m`, reading `text` adds `w` to the current word and leads to `m'`. -/
def Reads (S : Scanner α μ) (m m' : μ) (text w : List α) : Prop :=
  ∀ word words, S.scan ⟨m, word, words⟩ text = some ⟨m', some (word.getD [] ++ w), words⟩

theorem Reads.append {m m' m'' : μ} {t u v w : List α} (ht : Reads S m m' t v)
    (hu : Reads S m' m'' u w) : Reads S m m'' (t ++ u) (v ++ w) := by
  intro word words
  rw [scan_append, ht word words]
  simpa using hu (some (word.getD [] ++ v)) words

theorem reads_keep {m m' : μ} {c : α} (h : S.step m c = some (m', .keep)) :
    Reads S m m' [c] [c] := by
  intro word words
  simp [next, h, Scan.apply]

theorem reads_start {m m' : μ} {c : α} (h : S.step m c = some (m', .start)) :
    Reads S m m' [c] [] := by
  intro word words
  simp [next, h, Scan.apply]

/-- Characters that are kept where they stand are added to the word. -/
theorem Reads.keep {m m' : μ} {t w text : List α} (ht : Reads S m m' t w)
    (h : ∀ c ∈ text, S.step m' c = some (m', .keep)) : Reads S m m' (t ++ text) (w ++ text) := by
  induction text generalizing t w with
  | nil => simpa using ht
  | cons c text ih =>
      have hc : Reads S m m' (t ++ [c]) (w ++ [c]) := ht.append (reads_keep (h c (by simp)))
      simpa using ih hc fun d hd => h d (by simp [hd])

/-- A text of such characters reads as itself. -/
theorem reads_self {m : μ} {text : List α} (hne : text ≠ [])
    (h : ∀ c ∈ text, S.step m c = some (m, .keep)) : Reads S m m text text := by
  cases text with
  | nil => exact absurd rfl hne
  | cons c text =>
      have hc : Reads S m m [c] [c] := reads_keep (h c (by simp))
      exact hc.keep fun d hd => h d (by simp [hd])

/-- What is dropped after a word has begun changes the mode only. -/
theorem Reads.drop {m m' m'' : μ} {c : α} {t w : List α} (ht : Reads S m m' t w)
    (h : S.step m' c = some (m'', .drop)) : Reads S m m'' (t ++ [c]) w := by
  intro word words
  rw [scan_append, ht word words]
  simp [next, h, Scan.apply]

/-- `text` reads as `w` where a cut by `c`, or the end, follows. -/
def ReadsWord (S : Scanner α μ) (m : μ) (c : α) (text w : List α) : Prop :=
  ∃ m', Reads S m m' text w ∧ S.step m' c = some (m, .cut) ∧ S.final m' = true

variable {m : μ} {c : α} {q : List α → List α}

/-- Words with a cut after each. -/
theorem scan_words {ws : List (List α)} (hreads : ∀ w ∈ ws, ReadsWord S m c (q w) w)
    (words : List (List α)) :
    S.scan ⟨m, none, words⟩ ((ws.map q).flatMap (· ++ [c])) = some ⟨m, none, words ++ ws⟩ := by
  induction ws generalizing words with
  | nil => simp
  | cons w ws ih =>
      obtain ⟨m', hw, hcut, -⟩ := hreads w (by simp)
      rw [List.map_cons, List.flatMap_cons, List.append_assoc, scan_append, hw, Option.bind_some,
        List.singleton_append, scan_cons]
      simpa [next, hcut, Scan.apply] using
        ih (fun u hu => hreads u (by simp [hu])) (words ++ [w])

/-- A joined text has a separator after each part but the last. -/
theorem intercalate_append (c : α) (xs : List (List α)) (y : List α) (ys : List (List α)) :
    [c].intercalate (xs ++ y :: ys) = xs.flatMap (· ++ [c]) ++ [c].intercalate (y :: ys) := by
  induction xs with
  | nil => simp
  | cons x xs ih =>
      have hcons : [c].intercalate (x :: (xs ++ y :: ys)) =
          x ++ ([c] ++ [c].intercalate (xs ++ y :: ys)) := by
        cases xs <;> simp [List.intercalate_cons_cons]
      rw [List.cons_append, hcons, ih]
      simp

/-- Words that are cut, and a last one. -/
theorem split_words {ws : List (List α)} (hreads : ∀ w ∈ ws, ReadsWord S m c (q w) w) {m' : μ}
    {text w : List α} (hlast : Reads S m m' text w) (hfinal : S.final m' = true) :
    S.split m ((ws.map q).flatMap (· ++ [c]) ++ text) = some (ws ++ [w]) := by
  rw [split_eq_some]
  refine ⟨⟨m', some w, ws⟩, ?_, hfinal, by simp [Scan.all]⟩
  rw [scan_append, scan_words hreads]
  simpa using hlast none ws

/-- Words written so that each reads as itself, with a character that cuts between them,
split into these words. -/
theorem split_join (hfinal : S.final m = true) {ws : List (List α)}
    (hreads : ∀ w ∈ ws, ReadsWord S m c (q w) w) :
    S.split m ([c].intercalate (ws.map q)) = some ws := by
  cases ws using List.reverseRecOn with
  | nil => simp [split, hfinal, Scan.all]
  | append_singleton ws w =>
      obtain ⟨m', hw, -, hend⟩ := hreads w (by simp)
      rw [List.map_append, List.map_singleton, intercalate_append, List.intercalate_singleton]
      exact split_words (fun v hv => hreads v (by simp [hv])) hw hend

/-! ### Characters that are kept -/

/-- The characters of the words are among those of the text, in its order. -/
theorem chars_of_scan {s s' : Scan α μ} {text : List α} (h : S.scan s text = some s') :
    ∃ kept, kept.Sublist text ∧ s'.chars = s.chars ++ kept := by
  induction text generalizing s with
  | nil =>
      obtain rfl : s = s' := by simpa using h
      exact ⟨[], List.Sublist.refl _, by simp⟩
  | cons c text ih =>
      obtain ⟨r, hr, hrest⟩ := Option.bind_eq_some_iff.mp (S.scan_cons s c text ▸ h)
      obtain ⟨m, e, -, rfl⟩ := next_eq_some.mp hr
      obtain ⟨kept, hsub, hchars⟩ := ih hrest
      rw [Scan.chars_apply, List.append_assoc] at hchars
      refine ⟨_, ?_, hchars⟩
      split
      · exact hsub.cons_cons c
      · exact hsub.cons c

/-- A character that every step keeps is never lost. -/
theorem count_of_scan [DecidableEq α] {x : α}
    (hkeep : ∀ m m' e, S.step m x = some (m', e) → e = .keep) {s s' : Scan α μ} {text : List α}
    (h : S.scan s text = some s') : s'.chars.count x = s.chars.count x + text.count x := by
  induction text generalizing s with
  | nil =>
      obtain rfl : s = s' := by simpa using h
      simp
  | cons c text ih =>
      obtain ⟨r, hr, hrest⟩ := Option.bind_eq_some_iff.mp (S.scan_cons s c text ▸ h)
      obtain ⟨m, e, hstep, rfl⟩ := next_eq_some.mp hr
      rw [ih hrest, Scan.chars_apply, List.count_append, Nat.add_assoc]
      congr 1
      by_cases hc : c = x
      · subst hc
        simp [hkeep _ _ _ hstep, Nat.add_comm]
      · by_cases he : e = .keep <;> simp [he, hc]

/-- Where a step that keeps does not change the mode, a text of which everything is kept is
read in that mode. -/
theorem steps_of_chars {m : μ} (hmode : ∀ c m', S.step m c = some (m', .keep) → m' = m)
    {s s' : Scan α μ} {text : List α} (hm : s.mode = m) (h : S.scan s text = some s')
    (hall : s'.chars = s.chars ++ text) : ∀ c ∈ text, S.step m c = some (m, .keep) := by
  induction text generalizing s with
  | nil => simp
  | cons c text ih =>
      obtain ⟨r, hr, hrest⟩ := Option.bind_eq_some_iff.mp (S.scan_cons s c text ▸ h)
      obtain ⟨m', e, hstep, rfl⟩ := next_eq_some.mp hr
      obtain ⟨kept, hsub, hchars⟩ := chars_of_scan hrest
      rw [Scan.chars_apply, List.append_assoc, hall] at hchars
      have heq := List.append_cancel_left hchars
      by_cases he : e = .keep
      · subst he
        rw [hm] at hstep
        obtain rfl := hmode c m' hstep
        have hkept : kept = text := by simpa using heq.symm
        intro d hd
        rcases List.mem_cons.mp hd with rfl | hd
        · exact hstep
        · exact ih (by simp) hrest (by rw [Scan.chars_apply, hall]; simp) d hd
      · have hlength := hsub.length_le
        rw [if_neg he, List.nil_append] at heq
        rw [← heq, List.length_cons] at hlength
        omega

end Scanner

end WordScanner
