import Mathlib.Algebra.Order.BigOperators.Group.List
import Mathlib.Algebra.Order.Group.Nat
import RayOnGolem.Lib.WordScanner

/-!
# Remote shell commands

`list2cmdline` is that of `subprocess`: it writes arguments by the rules of the C runtime of
Windows.  `rsh` is the rule that the manual of rsync gives for the command of its option
`--rsh`: it is split at blanks, with single and double quotes, where a doubled quote stands for
itself, and without backslashes.

The rules differ, and `splits_iff` says for which arguments they agree.
-/

namespace RemoteShell

open WordScanner WordScanner.Scanner

/-- The quotes of a remote shell command. -/
inductive Quote
  | single
  | double
  deriving DecidableEq, Repr

/-- The character that opens and closes. -/
def Quote.char : Quote → Char
  | .single => '\''
  | .double => '"'

/-- Where the reader stands: inside quotes, or just after a quote that may be the first of two. -/
inductive Mode
  | plain
  | quoted (q : Quote)
  | closing (q : Quote)
  deriving DecidableEq, Repr

/-- A character outside quotes. -/
def stepPlain (c : Char) : Mode × Effect :=
  if c = ' ' then (.plain, .cut)
  else if c = '\'' then (.quoted .single, .start)
  else if c = '"' then (.quoted .double, .start)
  else (.plain, .keep)

/-- One character. -/
def step : Mode → Char → Option (Mode × Effect)
  | .plain, c => some (stepPlain c)
  | .quoted q, c => if c = q.char then some (.closing q, .drop) else some (.quoted q, .keep)
  | .closing q, c => if c = q.char then some (.quoted q, .keep) else some (stepPlain c)

/-- The scanner; a quote has to be closed. -/
def rsh : Scanner Char Mode where
  step := step
  final
    | .quoted _ => false
    | _ => true

/-- The words of a remote shell command. -/
def rshWords (command : List Char) : Option (List (List Char)) := rsh.split .plain command

/-- A program that splits a remote shell command as the manual says. -/
def FollowsManual (words : List Char → Option (List (List Char))) : Prop :=
  ∀ command, words command = rshWords command

/-- The loop of `list2cmdline`; `bs` backslashes are held back. -/
def cmdlineChars (needquote : Bool) : Nat → List Char → List Char
  | bs, [] =>
      List.replicate bs '\\' ++ if needquote then List.replicate bs '\\' ++ ['"'] else []
  | bs, c :: cs =>
      if c = '\\' then cmdlineChars needquote (bs + 1) cs
      else if c = '"' then
        List.replicate (bs * 2) '\\' ++ '\\' :: '"' :: cmdlineChars needquote 0 cs
      else List.replicate bs '\\' ++ c :: cmdlineChars needquote 0 cs

/-- The argument has a blank or is empty. -/
def needquote (arg : List Char) : Bool := arg.contains ' ' || arg.contains '\t' || arg.isEmpty

/-- One argument. -/
def cmdlineArg (arg : List Char) : List Char :=
  (if needquote arg then ['"'] else []) ++ cmdlineChars (needquote arg) 0 arg

/-- `subprocess.list2cmdline`. -/
def list2cmdline (args : List (List Char)) : List Char := [' '].intercalate (args.map cmdlineArg)

/-- An argument that the rule reads as `list2cmdline` means it. -/
def Portable (arg : List Char) : Prop :=
  '"' ∉ arg ∧ (needquote arg = true → arg.getLast? ≠ some '\\') ∧
    (needquote arg = false → '\'' ∉ arg)

instance (arg : List Char) : Decidable (Portable arg) := inferInstanceAs (Decidable (_ ∧ _ ∧ _))

/-! ### What `list2cmdline` writes -/

/-- Without double quotes only the backslashes at the end are written differently. -/
theorem cmdlineChars_of_not_mem {nq : Bool} {bs : Nat} {cs : List Char} (hquote : '"' ∉ cs)
    (hlast : nq = true → (List.replicate bs '\\' ++ cs).getLast? ≠ some '\\') :
    cmdlineChars nq bs cs = List.replicate bs '\\' ++ cs ++ if nq then ['"'] else [] := by
  induction cs generalizing bs with
  | nil =>
      cases nq with
      | false => simp [cmdlineChars]
      | true =>
          cases bs with
          | zero => simp [cmdlineChars]
          | succ bs => simp [List.replicate_succ'] at hlast
  | cons c cs ih =>
      have htail : '"' ∉ cs := fun hmem => hquote (by simp [hmem])
      unfold cmdlineChars
      split
      case isTrue hc =>
        subst hc
        rw [ih htail (by simpa [List.replicate_succ'] using hlast)]
        simp [List.replicate_succ']
      case isFalse hc =>
        rw [if_neg fun heq => hquote (by simp [heq])]
        cases cs with
        | nil => cases nq <;> simp [cmdlineChars]
        | cons d cs =>
            rw [ih htail (by simpa using hlast)]
            simp

/-- Backslashes are only added, and none is only where a portable argument needs none. -/
theorem count_cmdlineChars (nq : Bool) (bs : Nat) (cs : List Char) :
    bs + cs.count '\\' ≤ (cmdlineChars nq bs cs).count '\\' ∧
      ((cmdlineChars nq bs cs).count '\\' = bs + cs.count '\\' →
        '"' ∉ cs ∧ (nq = true → (List.replicate bs '\\' ++ cs).getLast? ≠ some '\\')) := by
  induction cs generalizing bs with
  | nil =>
      cases nq with
      | false => simp [cmdlineChars]
      | true =>
          refine ⟨by simp [cmdlineChars], ?_⟩
          intro heq
          obtain rfl : bs = 0 := by
            simp [cmdlineChars] at heq
            omega
          simp
  | cons c cs ih =>
      unfold cmdlineChars
      split
      case isTrue hc =>
        subst hc
        obtain ⟨hle, hclean⟩ := ih (bs + 1)
        rw [List.count_cons_self]
        refine ⟨by omega, fun heq => ?_⟩
        obtain ⟨hquote, hlast⟩ := hclean (by omega)
        exact ⟨by simpa using hquote, by simpa [List.replicate_succ'] using hlast⟩
      case isFalse hc =>
        obtain ⟨hle, hclean⟩ := ih 0
        split
        case isTrue hq =>
          subst hq
          simp only [List.count_append, List.count_replicate_self, List.count_cons_self,
            List.count_cons_of_ne (by decide : ('"' : Char) ≠ '\\')]
          exact ⟨by omega, fun heq => by omega⟩
        case isFalse hq =>
          simp only [List.count_append, List.count_replicate_self, List.count_cons_of_ne hc]
          refine ⟨by omega, fun heq => ?_⟩
          obtain ⟨hquote, hlast⟩ := hclean (by omega)
          refine ⟨by simp [hquote, Ne.symm hq], fun hnq => ?_⟩
          cases cs with
          | nil => simpa using hc
          | cons d cs => simpa using hlast hnq

theorem count_cmdlineArg (arg : List Char) :
    arg.count '\\' ≤ (cmdlineArg arg).count '\\' ∧
      ((cmdlineArg arg).count '\\' = arg.count '\\' →
        '"' ∉ arg ∧ (needquote arg = true → arg.getLast? ≠ some '\\')) := by
  have hcount := count_cmdlineChars (needquote arg) 0 arg
  have hopen : (if needquote arg then ['"'] else []).count '\\' = 0 := by split <;> rfl
  simpa [cmdlineArg, hopen] using hcount

/-- Where no backslash is added, an argument is written as it is, in double quotes if these are
needed. -/
theorem cmdlineArg_eq {arg : List Char} (hquote : '"' ∉ arg)
    (hlast : needquote arg = true → arg.getLast? ≠ some '\\') :
    cmdlineArg arg = if needquote arg then '"' :: (arg ++ ['"']) else arg := by
  unfold cmdlineArg
  rw [cmdlineChars_of_not_mem hquote (by simpa using hlast)]
  split <;> simp

/-! ### What the rule reads -/

/-- Every backslash is kept. -/
theorem keep_backslash (m m' : Mode) (e : Effect) (h : rsh.step m '\\' = some (m', e)) :
    e = .keep := by
  cases m with
  | plain => simp [rsh, step, stepPlain] at h; exact h.2.symm
  | quoted q => cases q <;> simp [rsh, step, Quote.char] at h <;> exact h.2.symm
  | closing q => cases q <;> simp [rsh, step, stepPlain, Quote.char] at h <;> exact h.2.symm

/-- What is kept outside quotes. -/
theorem step_plain {c : Char} (hblank : c ≠ ' ') (hsingle : c ≠ '\'') (hdouble : c ≠ '"') :
    rsh.step .plain c = some (.plain, .keep) := by
  simp [rsh, step, stepPlain, hblank, hsingle, hdouble]

theorem needquote_of_blank {arg : List Char} (h : ' ' ∈ arg) : needquote arg = true := by
  simp [needquote, h]

theorem ne_blank_of_needquote {arg : List Char} (h : needquote arg = false) {c : Char}
    (hc : c ∈ arg) : c ≠ ' ' := by
  rintro rfl
  rw [needquote_of_blank hc] at h
  cases h

/-- A portable argument is read as it was given. -/
theorem readsWord_of_portable {arg : List Char} (h : Portable arg) :
    ReadsWord rsh .plain ' ' (cmdlineArg arg) arg := by
  obtain ⟨hquote, hlast, hsingle⟩ := h
  rw [cmdlineArg_eq hquote hlast]
  cases hneed : needquote arg with
  | true =>
      have hopen : Reads rsh .plain (.quoted .double) ['"'] [] := reads_start rfl
      have hkeep : ∀ c ∈ arg, rsh.step (.quoted .double) c = some (.quoted .double, .keep) := by
        intro c hc
        have hne : c ≠ '"' := fun heq => hquote (heq ▸ hc)
        simp [rsh, step, Quote.char, hne]
      exact ⟨.closing .double, (hopen.keep hkeep).drop rfl, rfl, rfl⟩
  | false =>
      have hne : arg ≠ [] := by
        rintro rfl
        simp [needquote] at hneed
      refine ⟨.plain, reads_self hne fun c hc => ?_, rfl, rfl⟩
      exact step_plain (ne_blank_of_needquote hneed hc) (fun heq => hsingle hneed (heq ▸ hc))
        (fun heq => hquote (heq ▸ hc))

theorem count_intercalate {c x : Char} (hne : c ≠ x) (l : List (List Char)) :
    ([c].intercalate l).count x = l.flatten.count x := by
  induction l with
  | nil => simp
  | cons y l ih =>
      cases l with
      | nil => simp
      | cons z l =>
          rw [List.intercalate_cons_cons, List.flatten_cons, List.count_append, List.count_append,
            List.count_append, ih, List.count_singleton, if_neg (by simpa using hne)]
          omega

/-- What follows the first part of a joined text. -/
theorem exists_rest (y : List Char) (l : List (List Char)) :
    ∃ rest, [' '].intercalate (y :: l) = y ++ rest ∧
      ∀ x, ' ' ≠ x → rest.count x = l.flatten.count x := by
  cases l with
  | nil => exact ⟨[], by simp, by simp⟩
  | cons z l =>
      refine ⟨[' '] ++ [' '].intercalate (z :: l), by simp [List.intercalate_cons_cons], ?_⟩
      intro x hx
      rw [List.count_append, count_intercalate hx, List.count_singleton,
        if_neg (by simpa using hx), Nat.zero_add]

/-- If the arguments are read as they were given, no backslash was added to any. -/
theorem no_backslash_added {args : List (List Char)}
    (h : rshWords (list2cmdline args) = some args) :
    ∀ a ∈ args, '"' ∉ a ∧ (needquote a = true → a.getLast? ≠ some '\\') := by
  obtain ⟨s, hs, -, hall⟩ := split_eq_some.mp h
  have hcount := count_of_scan keep_backslash hs
  rw [list2cmdline, count_intercalate (by decide), Scan.chars, hall] at hcount
  have hsum : (args.map fun a => a.count '\\').sum =
      (args.map fun a => (cmdlineArg a).count '\\').sum := by
    simpa [Scan.chars, Scan.all, List.count_flatten, Function.comp_def] using hcount
  have hle : ∀ a ∈ args, a.count '\\' ≤ (cmdlineArg a).count '\\' := by
    intro a _
    simpa [cmdlineArg] using (count_cmdlineArg a).1
  intro a ha
  refine (count_cmdlineArg a).2 (le_antisymm ?_ (hle a ha))
  by_contra hlt
  exact absurd hsum (List.sum_lt_sum _ _ hle ⟨a, ha, not_le.mp hlt⟩).ne

/-- A rule for lists: what holds of an element after elements of which it holds, holds of all. -/
theorem forall_of_prefix {α : Type*} {p : α → Prop} {l : List α}
    (h : ∀ xs x ys, l = xs ++ x :: ys → (∀ y ∈ xs, p y) → p x) : ∀ x ∈ l, p x := by
  induction l using List.reverseRecOn with
  | nil => simp
  | append_singleton l x ih =>
      have hl : ∀ y ∈ l, p y := ih fun xs y ys heq hxs =>
        h xs y (ys ++ [x]) (by simp [heq]) hxs
      intro y hy
      rcases List.mem_append.mp hy with hy | hy
      · exact hl y hy
      · obtain rfl : y = x := by simpa using hy
        exact h l y [] rfl hl

/-- Outside double quotes a single quote is not read as it was given. -/
theorem not_mem_single {as bs : List (List Char)} {a : List Char}
    (hclean : ∀ b ∈ as ++ a :: bs, '"' ∉ b ∧ (needquote b = true → b.getLast? ≠ some '\\'))
    (has : ∀ b ∈ as, Portable b) (hneed : needquote a = false)
    (h : rshWords (list2cmdline (as ++ a :: bs)) = some (as ++ a :: bs)) : '\'' ∉ a := by
  intro hmem
  obtain ⟨s, hs, -, hall⟩ := split_eq_some.mp h
  have ha := hclean a (by simp)
  have harg : cmdlineArg a = a := by
    rw [cmdlineArg_eq ha.1 ha.2, hneed]
    rfl
  obtain ⟨rest, hrest, hcount⟩ := exists_rest a (bs.map cmdlineArg)
  obtain ⟨a₁, a₂, rfl, ha₁⟩ := List.eq_append_cons_of_mem hmem
  -- the scan comes to the first single quote, which opens quotes
  have hopen : Reads rsh .plain (.quoted .single) (a₁ ++ ['\'']) a₁ := by
    have hstep : ∀ c ∈ a₁, rsh.step .plain c = some (.plain, .keep) := fun c hc =>
      step_plain (ne_blank_of_needquote hneed (by simp [hc])) (fun heq => ha₁ (heq ▸ hc))
        (fun heq => ha.1 (List.mem_append_left _ (heq ▸ hc)))
    cases a₁ with
    | nil => exact reads_start rfl
    | cons c a₁ => simpa using (reads_self (by simp) hstep).append (reads_start rfl)
  have htext : list2cmdline (as ++ (a₁ ++ '\'' :: a₂) :: bs) =
      (as.map cmdlineArg).flatMap (· ++ [' ']) ++ ((a₁ ++ ['\'']) ++ (a₂ ++ rest)) := by
    rw [list2cmdline, List.map_append, List.map_cons, intercalate_append, harg, hrest]
    simp
  rw [htext, scan_append, scan_words fun b hb => readsWord_of_portable (has b hb),
    Option.bind_some, scan_append, hopen, Option.bind_some] at hs
  -- so it is missing among what the words have kept
  obtain ⟨kept, hsub, hkept⟩ := chars_of_scan hs
  have heq : kept = '\'' :: (a₂ ++ bs.flatten) := by
    rw [Scan.chars, hall] at hkept
    simpa [Scan.chars, Scan.all] using hkept.symm
  have hle := hsub.count_le '\''
  have hbs : ∀ b ∈ bs, (cmdlineArg b).count '\'' = b.count '\'' := by
    intro b hb
    obtain ⟨hquote, hlast⟩ := hclean b (by simp [hb])
    rw [cmdlineArg_eq hquote hlast]
    split <;> simp
  have hsum : rest.count '\'' = bs.flatten.count '\'' := by
    rw [hcount '\'' (by decide), List.count_flatten, List.count_flatten, List.map_map]
    congr 1
    exact List.map_congr_left hbs
  rw [heq, List.count_cons_self, List.count_append, List.count_append, hsum] at hle
  omega

/-- **When the rules agree.**  What `list2cmdline` writes is read as the arguments that were
given if and only if each of them is portable. -/
theorem splits_iff (args : List (List Char)) :
    rshWords (list2cmdline args) = some args ↔ ∀ a ∈ args, Portable a := by
  constructor
  · intro h
    have hclean := no_backslash_added h
    refine forall_of_prefix fun as a bs hargs has => ?_
    subst hargs
    obtain ⟨hquote, hlast⟩ := hclean a (by simp)
    exact ⟨hquote, hlast, fun hneed => not_mem_single hclean has hneed h⟩
  · intro h
    exact split_join rfl fun a ha => readsWord_of_portable (h a ha)

end RemoteShell
