import Mathlib
import TypeScriptComposer.Proofs.Text.Margins

/-!
# Where comments end

A comment ends at the first `*/` behind its beginning, so the places of a text where `*/` stands are
counted. Two texts end a comment together only where a star meets a slash. Line breaks therefore
separate the ends in a text, and blanks in front of its lines neither add nor remove one.
-/

set_option autoImplicit false

namespace TypeScriptComposer

/-- At how many places of a text a comment ends. -/
def commentEnds : List Char → Nat
  | [] => 0
  | c :: cs => (if c = '*' ∧ cs.head? = some '/' then 1 else 0) + commentEnds cs

theorem commentEnds_cons_of_ne {c : Char} (h : c ≠ '*') (cs : List Char) :
    commentEnds (c :: cs) = commentEnds cs := by
  simp [commentEnds, h]

theorem commentEnds_eq_zero_iff (cs : List Char) : commentEnds cs = 0 ↔ ¬ ['*', '/'] <:+: cs := by
  induction cs with
  | nil => simp [commentEnds]
  | cons c cs ih =>
    have hprefix : ['*', '/'] <+: c :: cs ↔ c = '*' ∧ cs.head? = some '/' := by
      cases cs <;> simp [eq_comm]
    rw [List.infix_cons_iff, hprefix, not_or, ← ih, commentEnds]
    split <;> simp_all

/-- Two texts end no comment together when the first ends without a star or the second begins
without a slash. -/
theorem commentEnds_append {a b : List Char} (h : a.getLast? = some '*' → b.head? ≠ some '/') :
    commentEnds (a ++ b) = commentEnds a + commentEnds b := by
  induction a with
  | nil => simp [commentEnds]
  | cons c cs ih =>
    have hrest : cs.getLast? = some '*' → b.head? ≠ some '/' := by
      intro hlast
      apply h
      rw [List.getLast?_cons, hlast]
      rfl
    have hfirst : (c = '*' ∧ (cs ++ b).head? = some '/') ↔ (c = '*' ∧ cs.head? = some '/') := by
      cases cs with
      | nil =>
        constructor
        · rintro ⟨rfl, hhead⟩
          exact (h rfl hhead).elim
        · simp
      | cons => simp
    rw [List.cons_append, commentEnds, commentEnds, ih hrest, Nat.add_assoc]
    simp only [hfirst]

theorem commentEnds_append_of_not_mem {a b : List Char} (ha : '*' ∉ a) :
    commentEnds (a ++ b) = commentEnds b := by
  induction a with
  | nil => rfl
  | cons c cs ih =>
    obtain ⟨hc, hcs⟩ := not_or.mp (mt List.mem_cons.mpr ha)
    rw [List.cons_append, commentEnds_cons_of_ne (Ne.symm hc), ih hcs]

/-- What has neither a star nor a slash can be put behind any text. -/
theorem commentEnds_append_plain (a : List Char) {b : List Char} (hstar : '*' ∉ b)
    (hslash : '/' ∉ b) : commentEnds (a ++ b) = commentEnds a := by
  have hzero : commentEnds b = 0 := by
    have happend := commentEnds_append_of_not_mem (b := []) hstar
    rwa [List.append_nil] at happend
  rw [commentEnds_append, hzero, Nat.add_zero]
  intro _ hhead
  exact hslash (List.mem_of_mem_head? hhead)

theorem commentEnds_glue (ls : List (List Char)) :
    commentEnds (glue '\n' ls) = (ls.map commentEnds).sum := by
  induction ls with
  | nil => rfl
  | cons l ls ih =>
    cases ls with
    | nil => simp [glue]
    | cons l' ls =>
      rw [glue, commentEnds_append (by simp), commentEnds_cons_of_ne (by decide), ih, List.map_cons,
        List.sum_cons]
      · simp
      · exact List.cons_ne_nil l' ls

theorem sum_commentEnds_lines (cs : List Char) :
    ((lines cs).map commentEnds).sum = commentEnds cs := by
  rw [← commentEnds_glue, lines, glue_pieces]

theorem commentEnds_withMargin {margin : List Char} (hmargin : '*' ∉ margin) (cs : List Char) :
    commentEnds (withMargin margin cs) = commentEnds cs := by
  have hline (l : List Char) : commentEnds (marginBefore margin l) = commentEnds l := by
    unfold marginBefore
    split
    · rename_i hempty
      rw [List.isEmpty_iff.mp hempty]
    · exact commentEnds_append_of_not_mem hmargin
  rw [withMargin, commentEnds_glue, List.map_map, ← sum_commentEnds_lines]
  simp only [Function.comp_def, hline]

end TypeScriptComposer
