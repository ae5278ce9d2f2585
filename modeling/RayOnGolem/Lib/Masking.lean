import Mathlib.Data.List.Basic

/-!
# Masking what stands in brackets

`re.sub(r"\[.*?\]", "[***]", text)` over any letters: from left to right, each bracket that is
opened and closed on one line, and what stands up to the first closing bracket, is replaced by
brackets around `stars`.

No line of the result has anything but `stars` in brackets (`hidden_sub`), masking again
changes nothing (`sub_sub`), and the result does not depend on what was replaced
(`sub_replace`).
-/

namespace Masking

variable {α : Type*} [DecidableEq α]

section

variable (opened closed newline : α) (stars : List α)

/-- How long the match of `.*?\]` is. -/
def closing : List α → Option Nat
  | [] => none
  | c :: cs =>
      if c = closed then some 1
      else if c = newline then none
      else (closing cs).map (· + 1)

/-- The substitution, with this many letters of a match left. -/
def subFrom : Nat → List α → List α
  | _, [] => []
  | skip + 1, _ :: cs => subFrom skip cs
  | 0, c :: cs =>
      if c = opened then
        match closing closed newline cs with
        | some n => opened :: (stars ++ closed :: subFrom n cs)
        | none => c :: subFrom 0 cs
      else c :: subFrom 0 cs

def sub (text : List α) : List α := subFrom opened closed newline stars 0 text

omit [DecidableEq α] in
/-- The letters are different, and `stars` has none of them. -/
structure Proper : Prop where
  closed_ne : closed ≠ opened
  newline_ne : newline ≠ opened
  opened_notMem : opened ∉ stars
  closed_notMem : closed ∉ stars
  newline_notMem : newline ∉ stars

/-- What stands in brackets on one line is `stars`. -/
def Hidden (text : List α) : Prop :=
  ∀ before inside after, text = before ++ opened :: (inside ++ closed :: after) →
    closed ∉ inside → newline ∉ inside → inside = stars

end

variable {opened closed newline : α} {stars : List α} {text inside inside' before after : List α}

/-! ### Matches -/

theorem closing_append (hclosed : closed ∉ inside) (hline : newline ∉ inside) (after : List α) :
    closing closed newline (inside ++ closed :: after) = some (inside.length + 1) := by
  induction inside with
  | nil => exact if_pos rfl
  | cons c cs ih =>
      rw [List.mem_cons, not_or] at hclosed hline
      rw [List.cons_append, closing, if_neg (Ne.symm hclosed.1), if_neg (Ne.symm hline.1),
        ih hclosed.2 hline.2]
      rfl

theorem exists_of_closing {n : Nat} (h : closing closed newline text = some n) :
    ∃ inside after, text = inside ++ closed :: after ∧ closed ∉ inside ∧ newline ∉ inside := by
  induction text generalizing n with
  | nil => cases h
  | cons c cs ih =>
      rw [closing] at h
      split at h
      · rename_i hc
        exact ⟨[], cs, by rw [hc, List.nil_append], List.not_mem_nil, List.not_mem_nil⟩
      · rename_i hc
        split at h
        · cases h
        · rename_i hline
          obtain ⟨m, hm, -⟩ := Option.map_eq_some_iff.mp h
          obtain ⟨inside, after, rfl, hclosed, hnewline⟩ := ih hm
          refine ⟨c :: inside, after, rfl, ?_, ?_⟩
          · exact List.mem_cons.not.mpr (not_or.mpr ⟨Ne.symm hc, hclosed⟩)
          · exact List.mem_cons.not.mpr (not_or.mpr ⟨Ne.symm hline, hnewline⟩)

/-- The end of a line hides what comes after it. -/
theorem closing_append_none (h : closing closed newline text = none) (hmem : newline ∈ text)
    (after : List α) : closing closed newline (text ++ after) = none := by
  induction text with
  | nil => cases hmem
  | cons c cs ih =>
      rw [closing] at h
      rw [List.cons_append, closing]
      split at h
      · cases h
      · rename_i hc
        rw [if_neg hc]
        split at h
        · rename_i hline
          exact if_pos hline
        · rename_i hline
          rw [if_neg hline, ih (Option.map_eq_none_iff.mp h)
            ((List.mem_cons.mp hmem).resolve_left (Ne.symm hline))]
          rfl

theorem not_mem_of_closing (h : closing closed newline text = none) (hline : newline ∉ text) :
    closed ∉ text := by
  intro hmem
  obtain ⟨inside, after, rfl, hclosed⟩ := List.eq_append_cons_of_mem hmem
  have hinside : newline ∉ inside := fun hin => hline (List.mem_append_left _ hin)
  rw [closing_append hclosed hinside] at h
  cases h

/-! ### The substitution, case by case -/

theorem subFrom_eq_sub (n : Nat) (text : List α) :
    subFrom opened closed newline stars n text =
      sub opened closed newline stars (text.drop n) := by
  induction text generalizing n with
  | nil => cases n <;> rfl
  | cons c cs ih =>
      cases n with
      | zero => rfl
      | succ n => exact ih n

theorem sub_cons {c : α} (hc : c ≠ opened) (cs : List α) :
    sub opened closed newline stars (c :: cs) = c :: sub opened closed newline stars cs :=
  if_neg hc

theorem sub_unmatched (h : closing closed newline text = none) :
    sub opened closed newline stars (opened :: text) =
      opened :: sub opened closed newline stars text := by
  rw [sub, subFrom, if_pos rfl, h]
  rfl

theorem sub_matched (hclosed : closed ∉ inside) (hline : newline ∉ inside) (after : List α) :
    sub opened closed newline stars (opened :: (inside ++ closed :: after)) =
      opened :: (stars ++ closed :: sub opened closed newline stars after) := by
  rw [sub, subFrom, if_pos rfl, closing_append hclosed hline after]
  have hdrop : (inside ++ closed :: after).drop (inside.length + 1) = after := by
    rw [List.append_cons, List.drop_left']
    exact List.length_append
  simp only [subFrom_eq_sub, hdrop]

/-- Induction on how the substitution goes through a text. -/
theorem masking_induction (opened closed newline : α) {P : List α → Prop} (hnil : P [])
    (hcons : ∀ c cs, c ≠ opened → P cs → P (c :: cs))
    (hunmatched : ∀ cs, closing closed newline cs = none → P cs → P (opened :: cs))
    (hmatched : ∀ inside after, closed ∉ inside → newline ∉ inside → P after →
      P (opened :: (inside ++ closed :: after)))
    (text : List α) : P text := by
  induction hlen : text.length using Nat.strongRecOn generalizing text with
  | ind n ih =>
      cases text with
      | nil => exact hnil
      | cons c cs =>
          have hcs : ∀ after : List α, after.length ≤ cs.length → P after := fun after hle =>
            ih after.length (by rw [← hlen, List.length_cons]; omega) after rfl
          by_cases hc : c = opened
          · subst hc
            cases hclosing : closing closed newline cs with
            | none => exact hunmatched cs hclosing (hcs cs (Nat.le_refl _))
            | some n =>
                obtain ⟨inside, after, rfl, hclosed, hline⟩ := exists_of_closing hclosing
                refine hmatched inside after hclosed hline (hcs after ?_)
                rw [List.length_append, List.length_cons]
                omega
          · exact hcons c cs hc (hcs cs (Nat.le_refl _))

/-! ### What the result hides -/

section Hidden

omit [DecidableEq α]

theorem hidden_nil : Hidden opened closed newline stars ([] : List α) := by
  intro before inside after h
  cases before <;> cases h

/-- A letter in front that opens nothing. -/
theorem Hidden.cons {c : α} (h : Hidden opened closed newline stars text) (hc : c ≠ opened) :
    Hidden opened closed newline stars (c :: text) := by
  intro before inside after heq
  cases before with
  | nil => exact absurd (List.cons.inj heq).1 hc
  | cons b before => exact h before inside after (List.cons.inj heq).2

theorem Hidden.append (h : Hidden opened closed newline stars text) (hfront : opened ∉ before) :
    Hidden opened closed newline stars (before ++ text) := by
  induction before with
  | nil => exact h
  | cons c cs ih =>
      rw [List.mem_cons, not_or] at hfront
      exact (ih hfront.2).cons (Ne.symm hfront.1)

/-- A bracket in front. -/
theorem Hidden.cons_opened (h : Hidden opened closed newline stars text)
    (hfirst : ∀ inside after, text = inside ++ closed :: after → closed ∉ inside →
      newline ∉ inside → inside = stars) :
    Hidden opened closed newline stars (opened :: text) := by
  intro before inside after heq
  cases before with
  | nil => exact hfirst inside after (List.cons.inj heq).2
  | cons b before => exact h before inside after (List.cons.inj heq).2

theorem Hidden.of_append (before : List α)
    (h : Hidden opened closed newline stars (before ++ text)) :
    Hidden opened closed newline stars text := by
  intro before' inside after heq
  apply h (before ++ before') inside after
  rw [heq, List.append_assoc]

end Hidden

/-- The substitution closes no bracket that was not closed. -/
theorem closing_sub (hp : Proper opened closed newline stars)
    (h : closing closed newline text = none) :
    closing closed newline (sub opened closed newline stars text) = none := by
  induction text with
  | nil => rfl
  | cons c cs ih =>
      rw [closing] at h
      split at h
      · cases h
      rename_i hclosed
      by_cases hline : c = newline
      · rw [sub_cons (hline ▸ hp.newline_ne), closing, if_neg hclosed, if_pos hline]
      · rw [if_neg hline] at h
        have hcs := Option.map_eq_none_iff.mp h
        have hsub : sub opened closed newline stars (c :: cs) =
            c :: sub opened closed newline stars cs := by
          by_cases hc : c = opened
          · rw [hc]
            exact sub_unmatched hcs
          · exact sub_cons hc cs
        rw [hsub, closing, if_neg hclosed, if_neg hline, ih hcs]
        rfl

/-- **Nothing but stars** stands in brackets on a line of the result. -/
theorem hidden_sub (hp : Proper opened closed newline stars) (text : List α) :
    Hidden opened closed newline stars (sub opened closed newline stars text) := by
  induction text using masking_induction opened closed newline with
  | hnil => exact hidden_nil
  | hcons c cs hc ih =>
      rw [sub_cons hc]
      exact ih.cons hc
  | hunmatched cs hclosing ih =>
      rw [sub_unmatched hclosing]
      refine ih.cons_opened fun inside after heq hclosed hline => ?_
      have hnone := closing_sub hp hclosing
      rw [heq, closing_append hclosed hline] at hnone
      cases hnone
  | hmatched inside after hclosed hline ih =>
      rw [sub_matched hclosed hline]
      refine ((ih.cons hp.closed_ne).append hp.opened_notMem).cons_opened fun inside' after' heq
        hclosed' hline' => ?_
      have hlen : closing closed newline (inside' ++ closed :: after') =
          some (inside'.length + 1) := closing_append hclosed' hline' after'
      rw [← heq, closing_append hp.closed_notMem hp.newline_notMem] at hlen
      obtain hlen : stars.length = inside'.length := by simpa using hlen
      exact (List.append_inj_left heq hlen).symm

/-- A text that hides what is in its brackets is not changed. -/
theorem sub_of_hidden (h : Hidden opened closed newline stars text) :
    sub opened closed newline stars text = text := by
  induction text using masking_induction opened closed newline with
  | hnil => rfl
  | hcons c cs hc ih => rw [sub_cons hc, ih (h.of_append [c])]
  | hunmatched cs hclosing ih =>
      rw [sub_unmatched hclosing, ih (h.of_append [opened])]
  | hmatched inside after hclosed hline ih =>
      obtain rfl := h [] inside after rfl hclosed hline
      have hafter : Hidden opened closed newline inside after := by
        rw [List.append_cons] at h
        exact h.of_append (opened :: (inside ++ [closed]))
      rw [sub_matched hclosed hline, ih hafter]

/-- **Masking again changes nothing.** -/
theorem sub_sub (hp : Proper opened closed newline stars) (text : List α) :
    sub opened closed newline stars (sub opened closed newline stars text) =
      sub opened closed newline stars text :=
  sub_of_hidden (hidden_sub hp text)

/-- **The result does not depend** on what stands in a pair of brackets. -/
theorem sub_replace (hp : Proper opened closed newline stars) (hclosed : closed ∉ inside)
    (hline : newline ∉ inside) (hclosed' : closed ∉ inside') (hline' : newline ∉ inside')
    (before after : List α) :
    sub opened closed newline stars (before ++ opened :: (inside ++ closed :: after)) =
      sub opened closed newline stars (before ++ opened :: (inside' ++ closed :: after)) := by
  induction before using masking_induction opened closed newline with
  | hnil =>
      rw [List.nil_append, List.nil_append, sub_matched hclosed hline, sub_matched hclosed' hline']
  | hcons c cs hc ih => rw [List.cons_append, List.cons_append, sub_cons hc, sub_cons hc, ih]
  | hunmatched cs hclosing ih =>
      by_cases hmem : newline ∈ cs
      · rw [List.cons_append, List.cons_append, sub_unmatched (closing_append_none hclosing hmem _),
          sub_unmatched (closing_append_none hclosing hmem _), ih]
      · -- the bracket before is closed by the same one
        have hcs := not_mem_of_closing hclosing hmem
        have hlonger : ∀ inside, closed ∉ inside → newline ∉ inside →
            sub opened closed newline stars
                (opened :: cs ++ opened :: (inside ++ closed :: after)) =
              opened :: (stars ++ closed :: sub opened closed newline stars after) := by
          intro inside hclosed hline
          have hassoc : opened :: cs ++ opened :: (inside ++ closed :: after) =
              opened :: ((cs ++ opened :: inside) ++ closed :: after) := by
            rw [List.append_assoc, List.cons_append, List.cons_append]
          rw [hassoc, sub_matched]
          · rw [List.mem_append, List.mem_cons]
            exact not_or.mpr ⟨hcs, not_or.mpr ⟨hp.closed_ne, hclosed⟩⟩
          · rw [List.mem_append, List.mem_cons]
            exact not_or.mpr ⟨hmem, not_or.mpr ⟨hp.newline_ne, hline⟩⟩
        rw [hlonger inside hclosed hline, hlonger inside' hclosed' hline']
  | hmatched between rest hbetween hsame ih =>
      simp only [List.cons_append, List.append_assoc]
      rw [sub_matched hbetween hsame, sub_matched hbetween hsame, ih]

end Masking
