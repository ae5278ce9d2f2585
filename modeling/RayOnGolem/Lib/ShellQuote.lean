import RayOnGolem.Lib.WordScanner

/-!
# The words of a shell command

`shell` splits a command into words and removes the quotes, as a POSIX shell does.  It refuses
a text in which the shell would do more than that: an unquoted character that is expanded, is
matched against files or ends the command, and a backslash in double quotes before a character
that it does not escape.  `quote` is `shlex.quote`.

`shell` is a specification, written after the standard.  Texts have no character NUL, which no
command line can hold.
-/

namespace ShellQuote

open WordScanner WordScanner.Scanner

/-- How a shell takes the next character. -/
inductive Mode
  | plain
  | escaped
  | single
  | double
  | doubleEscaped
  deriving DecidableEq, Repr

/-- Characters that a shell may act on unless they are quoted. -/
def special : List Char :=
  ['|', '&', ';', '<', '>', '(', ')', '$', '`', '*', '?', '[', '#', '~', '!', '{', '}', '^', '\n']

/-- One character. -/
def step : Mode → Char → Option (Mode × Effect)
  | .plain, c =>
      if c = ' ' ∨ c = '\t' then some (.plain, .cut)
      else if c = '\'' then some (.single, .start)
      else if c = '"' then some (.double, .start)
      else if c = '\\' then some (.escaped, .drop)
      else if c ∈ special then none
      else some (.plain, .keep)
  | .escaped, c => if c = '\n' then some (.plain, .drop) else some (.plain, .keep)
  | .single, c => if c = '\'' then some (.plain, .drop) else some (.single, .keep)
  | .double, c =>
      if c = '"' then some (.plain, .drop)
      else if c = '\\' then some (.doubleEscaped, .drop)
      else if c = '$' ∨ c = '`' then none
      else some (.double, .keep)
  | .doubleEscaped, c =>
      if c = '\n' then some (.double, .drop)
      else if c ∈ ['$', '`', '"', '\\'] then some (.double, .keep)
      else none

/-- The scanner; a quote has to be closed. -/
def shell : Scanner Char Mode where
  step := step
  final m := m == .plain

/-- The words of a command. -/
def shellWords (command : List Char) : Option (List (List Char)) := shell.split .plain command

/-- A character that stands for itself outside quotes. -/
def literal (c : Char) : Bool := c ∉ [' ', '\t', '\'', '"', '\\'] && c ∉ special

/-- What `shlex` leaves unquoted. -/
def safe (c : Char) : Bool :=
  c.isAlphanum || c ∈ ['_', '@', '%', '+', '=', ':', ',', '.', '/', '-']

/-- `replace` puts a single quote between double quotes, outside the single ones. -/
def replaced (c : Char) : List Char := if c = '\'' then ['\'', '"', '\'', '"', '\''] else [c]

/-- `shlex.quote`. -/
def quote (s : List Char) : List Char :=
  if s = [] then ['\'', '\'']
  else if s.all safe then s
  else '\'' :: s.flatMap replaced ++ ['\'']

theorem step_literal {c : Char} (h : literal c = true) :
    shell.step .plain c = some (.plain, .keep) := by
  simp [literal] at h
  simp [shell, step, h]

/-- Nothing that a shell acts on is left unquoted. -/
theorem literal_of_safe {c : Char} (h : safe c = true) : literal c = true := by
  have hall : ([' ', '\t', '\'', '"', '\\'] ++ special).all (fun d => !safe d) = true := by decide
  have hnot : c ∉ [' ', '\t', '\'', '"', '\\'] ++ special := by
    intro hmem
    simpa [h] using List.all_eq_true.mp hall c hmem
  rw [List.mem_append, not_or] at hnot
  simp only [literal, hnot, not_false_eq_true, decide_true, Bool.and_self]

/-- Literal characters read as themselves. -/
theorem reads_literal {w : List Char} (hne : w ≠ []) (h : w.all literal = true) :
    Reads shell .plain .plain w w :=
  reads_self hne fun c hc => step_literal (List.all_eq_true.mp h c hc)

/-- Inside single quotes every other character reads as itself. -/
theorem reads_single {m : Mode} {t w b : List Char} (ht : Reads shell m .single t w)
    (hb : '\'' ∉ b) : Reads shell m .single (t ++ b) (w ++ b) := by
  refine ht.keep fun c hc => ?_
  have hne : c ≠ '\'' := fun heq => hb (heq ▸ hc)
  simp [shell, step, hne]

/-- `quote` closes the quotes for a single quote and opens them again after it. -/
theorem reads_replaced {t w : List Char} (ht : Reads shell .plain .single t w) (s : List Char) :
    Reads shell .plain .single (t ++ s.flatMap replaced) (w ++ s) := by
  induction s generalizing t w with
  | nil => simpa using ht
  | cons c s ih =>
      rw [List.flatMap_cons, ← List.append_assoc, List.append_cons w c s]
      apply ih
      by_cases hc : c = '\''
      · subst hc
        have hclosed : Reads shell .plain .plain (t ++ ['\'']) w := ht.drop rfl
        have hopened : Reads shell .plain .double (t ++ ['\''] ++ ['"']) (w ++ []) :=
          hclosed.append (reads_start rfl)
        have hkept : Reads shell .plain .double (t ++ ['\''] ++ ['"'] ++ ['\''])
            (w ++ [] ++ ['\'']) := hopened.append (reads_keep rfl)
        have hback : Reads shell .plain .plain (t ++ ['\''] ++ ['"'] ++ ['\''] ++ ['"'])
            (w ++ [] ++ ['\'']) := hkept.drop rfl
        simpa [replaced] using hback.append (reads_start rfl)
      · rw [replaced, if_neg hc]
        exact reads_single ht (by simpa using fun heq => hc heq.symm)

/-- A quoted text reads as the text. -/
theorem reads_quote (w : List Char) : Reads shell .plain .plain (quote w) w := by
  have hopen : Reads shell .plain .single ['\''] [] := reads_start rfl
  unfold quote
  split
  case isTrue h =>
    subst h
    exact hopen.drop rfl
  case isFalse h =>
    split
    case isTrue hsafe =>
      refine reads_literal h (List.all_eq_true.mpr fun c hc => ?_)
      exact literal_of_safe (List.all_eq_true.mp hsafe c hc)
    case isFalse => exact (reads_replaced hopen w).drop rfl

/-- Quoted texts with blanks between them split into the texts. -/
theorem shellWords_quote (ws : List (List Char)) :
    shellWords ([' '].intercalate (ws.map quote)) = some ws :=
  split_join rfl fun w _ => ⟨.plain, reads_quote w, rfl, rfl⟩

/-- Outside quotes, a step that keeps its character stays outside. -/
theorem mode_of_keep {c : Char} {m : Mode} (h : shell.step .plain c = some (m, .keep)) :
    m = .plain := by
  simp only [shell, step] at h
  grind

/-- A single quote that ends a text and is kept with all that is read before it since the last
quotes cannot be: it would have to be quoted. -/
theorem not_chars_quote {s s' : Scan Char Mode} {t : List Char} (hm : s.mode = .plain)
    (h : shell.scan s (t ++ ['\'']) = some s') : s'.chars ≠ s.chars ++ (t ++ ['\'']) := by
  intro hall
  have hsteps := steps_of_chars (fun c m => mode_of_keep) hm h hall '\'' (by simp)
  simp [shell, step] at hsteps

/-- A text that ends in single quotes around `k` gives the characters of `k` only if none of
these is a single quote. -/
theorem not_mem_of_chars {t k w : List Char} {ws : List (List Char)}
    (ht : Reads shell .plain .single t w) {before : List (List Char)} {pre : List Char}
    (hpre : shell.scan { mode := .plain } pre = some ⟨.plain, none, before⟩)
    (h : shellWords (pre ++ (t ++ (k ++ ['\'']))) = some ws)
    (hws : ws.flatten = before.flatten ++ (w ++ k)) : '\'' ∉ k := by
  intro hmem
  obtain ⟨k₁, k₂, rfl, hk₁⟩ := List.eq_append_cons_of_mem hmem
  obtain ⟨s, hs, -, hall⟩ := split_eq_some.mp h
  -- up to the first quote in `k` everything reads as it stands
  have hclosed : Reads shell .plain .plain (t ++ k₁ ++ ['\'']) (w ++ k₁) :=
    (reads_single ht hk₁).drop rfl
  obtain ⟨r, hr, hrest⟩ := exists_scan_of_append hs
  obtain rfl := Option.some.inj (hpre.symm.trans hr)
  have htext : t ++ ((k₁ ++ '\'' :: k₂) ++ ['\'']) = t ++ k₁ ++ ['\''] ++ (k₂ ++ ['\'']) := by simp
  rw [htext, scan_append, hclosed, Option.bind_some] at hrest
  -- from there on nothing could be lost, yet the last quote is
  have hchars : s.chars = before.flatten ++ (w ++ k₁) ++ '\'' :: k₂ := by
    rw [Scan.chars, hall, hws]
    simp
  obtain ⟨kept, hsub, hkept⟩ := chars_of_scan hrest
  have heq : kept = '\'' :: k₂ := by
    rw [hchars] at hkept
    simpa [Scan.chars, Scan.all] using hkept.symm
  have hlength : (k₂ ++ ['\'']).length ≤ kept.length := by simp [heq]
  rw [hsub.eq_of_length_le hlength] at hkept
  exact not_chars_quote rfl hrest hkept

end ShellQuote
