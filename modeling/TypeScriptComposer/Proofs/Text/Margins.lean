import Mathlib.Data.List.Basic
import Mathlib.Data.List.Induction
import Mathlib.Data.List.TakeWhile
import Mathlib.Tactic.ByContra
import TypeScriptComposer.Layout.Block
import TypeScriptComposer.Text.Lines

/-!
# Margins

A text can be given a margin, which is put in front of every line that is not empty, and the blanks
that its lines begin with can be taken away. When a text grows at its end, only its last line is
open: what both operations make of the longer text follows from that line and what is added.
-/

set_option autoImplicit false

namespace TypeScriptComposer

def marginBefore (margin l : List Char) : List Char := if l.isEmpty then [] else margin ++ l

def withMargin (margin cs : List Char) : List Char :=
  glue '\n' ((lines cs).map (marginBefore margin))

/-- A text with `margin` in front of every line that is not empty. -/
def indented (margin text : String) : String :=
  String.ofList (withMargin margin.toList text.toList)

/-- The lines of a text without the spaces and tabs that they begin with. -/
def bareLines (cs : List Char) : List (List Char) :=
  (lines cs).map (·.dropWhile indentsLine)

/-- Whether the next character of a text begins a line. -/
def endsLine (cs : List Char) : Bool := cs.getLast?.all (· == '\n')

@[simp] theorem endsLine_nil : endsLine [] = true := rfl

@[simp] theorem endsLine_concat (cs : List Char) (c : Char) :
    endsLine (cs ++ [c]) = (c == '\n') := by
  simp [endsLine]

/-- The lines of `cs` are `closed` and, at the end, `last`; what is written behind `cs` goes on with
that line. -/
structure OpenLine (cs : List Char) (closed : List (List Char)) (last : List Char) : Prop where
  lines_eq : lines cs = closed ++ [last]
  append : ∀ more first rest, lines more = first :: rest →
    lines (cs ++ more) = closed ++ (last ++ first) :: rest

theorem exists_openLine (cs : List Char) : ∃ closed last, OpenLine cs closed last := by
  induction cs with
  | nil => exact ⟨[], [], rfl, fun more first rest h => h⟩
  | cons c cs ih =>
    obtain ⟨closed, last, hlines, happend⟩ := ih
    unfold lines at hlines happend
    by_cases hc : c = '\n'
    · refine ⟨[] :: closed, last, ?_, ?_⟩
      · simp [lines, pieces, hc, hlines]
      · intro more first rest h
        simp [lines, pieces, hc, happend more first rest h]
    · cases closed with
      | nil =>
        refine ⟨[], c :: last, ?_, ?_⟩
        · simp [lines, pieces, hc, hlines]
        · intro more first rest h
          simp [lines, pieces, hc, happend more first rest h]
      | cons l closed =>
        refine ⟨(c :: l) :: closed, last, ?_, ?_⟩
        · simp [lines, pieces, hc, hlines]
        · intro more first rest h
          simp [lines, pieces, hc, happend more first rest h]

theorem lines_of_not_mem {l : List Char} (h : '\n' ∉ l) : lines l = [l] := by
  induction l with
  | nil => rfl
  | cons c l ih =>
    obtain ⟨hc, hl⟩ := not_or.mp (mt List.mem_cons.mpr h)
    have hrest := ih hl
    unfold lines at hrest
    simp [lines, pieces, Ne.symm hc, hrest]

namespace OpenLine
variable {cs last : List Char} {closed : List (List Char)}

theorem append_break (h : OpenLine cs closed last) :
    lines (cs ++ ['\n']) = closed ++ [last, []] := by
  have hmore := h.append ['\n'] [] [[]] rfl
  rwa [List.append_nil] at hmore

theorem append_line (h : OpenLine cs closed last) {l : List Char} (hl : '\n' ∉ l) :
    lines (cs ++ l) = closed ++ [last ++ l] :=
  h.append l l [] (lines_of_not_mem hl)

theorem last_eq_nil_iff (h : OpenLine cs closed last) : last = [] ↔ endsLine cs = true := by
  have hlast := congrArg List.getLast? h.lines_eq
  rcases List.eq_nil_or_concat' cs with rfl | ⟨front, c, rfl⟩
  · simpa [lines, pieces] using hlast
  · obtain ⟨closed', last', h'⟩ := exists_openLine front
    by_cases hc : c = '\n'
    · rw [hc, h'.append_break] at hlast
      simpa [hc] using hlast
    · have hl : '\n' ∉ [c] := by simpa using Ne.symm hc
      rw [h'.append_line hl] at hlast
      have hne : last' ++ [c] = last := by simpa using hlast
      simp [hc, ← hne]

end OpenLine

theorem glue_concat (separator : Char) (ps : List (List Char)) (a b : List Char) :
    glue separator (ps ++ [a ++ b]) = glue separator (ps ++ [a]) ++ b := by
  induction ps with
  | nil => rfl
  | cons p ps ih => cases ps <;> simp_all [glue]

theorem glue_concat_nil (separator : Char) (ps : List (List Char)) (a : List Char) :
    glue separator (ps ++ [a, []]) = glue separator (ps ++ [a]) ++ [separator] := by
  induction ps with
  | nil => simp [glue]
  | cons p ps ih => cases ps <;> simp_all [glue]

@[simp] theorem withMargin_nil (margin : List Char) : withMargin margin [] = [] := rfl

theorem withMargin_append_break (margin cs : List Char) :
    withMargin margin (cs ++ ['\n']) = withMargin margin cs ++ ['\n'] := by
  obtain ⟨closed, last, h⟩ := exists_openLine cs
  simp only [withMargin, h.append_break, h.lines_eq, List.map_append, List.map_cons, List.map_nil]
  exact glue_concat_nil _ _ _

/-- What is added to a line goes behind the margin that the line has, or brings it along. -/
theorem withMargin_append_line (margin cs : List Char) {l : List Char} (hl : '\n' ∉ l)
    (hne : l ≠ []) : withMargin margin (cs ++ l) =
      withMargin margin cs ++ (if endsLine cs = true then margin ++ l else l) := by
  obtain ⟨closed, last, h⟩ := exists_openLine cs
  have hiff := h.last_eq_nil_iff
  simp only [withMargin, h.append_line hl, h.lines_eq, List.map_append, List.map_singleton]
  rw [← glue_concat]
  congr 3
  by_cases hlast : last = []
  · simp [marginBefore, hiff.mp hlast, hlast, hne]
  · simp [marginBefore, mt hiff.mpr hlast, hlast]

theorem endsLine_append {cs : List Char} (h : endsLine cs = true) (more : List Char) :
    endsLine (cs ++ more) = endsLine more := by
  rcases List.eq_nil_or_concat' more with rfl | ⟨front, c, rfl⟩
  · simpa using h
  · rw [← List.append_assoc, endsLine_concat, endsLine_concat]

theorem withMargin_append_of_endsLine (margin : List Char) {cs : List Char}
    (h : endsLine cs = true) (more : List Char) :
    withMargin margin (cs ++ more) = withMargin margin cs ++ withMargin margin more := by
  induction more using List.reverseRecOn with
  | nil => simp
  | append_singleton more c ih =>
    by_cases hc : c = '\n'
    · rw [hc, ← List.append_assoc, withMargin_append_break, withMargin_append_break, ih,
        List.append_assoc]
    · have hl : '\n' ∉ [c] := by simpa using Ne.symm hc
      rw [← List.append_assoc, withMargin_append_line _ _ hl (by simp),
        withMargin_append_line _ _ hl (by simp), ih, endsLine_append h, List.append_assoc]

theorem endsLine_append_of_getLast? {b : List Char} (h : b.getLast? = some '\n') (a : List Char) :
    endsLine (a ++ b) = true := by
  obtain ⟨front, rfl⟩ := List.getLast?_eq_some_iff.mp h
  rw [← List.append_assoc, endsLine_concat]
  rfl

theorem exists_of_endsLine {cs : List Char} (hne : cs ≠ []) (h : endsLine cs = true) :
    ∃ front, cs = front ++ ['\n'] := by
  rcases List.eq_nil_or_concat' cs with rfl | ⟨front, c, rfl⟩
  · exact (hne rfl).elim
  · rw [endsLine_concat, beq_iff_eq] at h
    exact ⟨front, by rw [h]⟩

theorem endsLine_withMargin (margin : List Char) {cs : List Char} (h : endsLine cs = true) :
    endsLine (withMargin margin cs) = true := by
  by_cases hne : cs = []
  · rw [hne]
    rfl
  · obtain ⟨front, rfl⟩ := exists_of_endsLine hne h
    rw [withMargin_append_break, endsLine_concat]
    rfl

theorem endsLine_join {texts : List String} (h : ∀ s ∈ texts, endsLine s.toList = true) :
    endsLine (String.join texts).toList = true := by
  induction texts with
  | nil => rfl
  | cons s texts ih =>
    obtain ⟨hs, htexts⟩ := List.forall_mem_cons.mp h
    rw [String.join_cons, String.toList_append, endsLine_append hs, ih htexts]

theorem OpenLine.bareLines_eq {cs last : List Char} {closed : List (List Char)}
    (h : OpenLine cs closed last) : bareLines cs =
      closed.map (·.dropWhile indentsLine) ++ [last.dropWhile indentsLine] := by
  simp [bareLines, h.lines_eq]

theorem bareLines_concat_congr {x y : List Char} (h : bareLines x = bareLines y) (c : Char) :
    bareLines (x ++ [c]) = bareLines (y ++ [c]) := by
  obtain ⟨closed, last, hx⟩ := exists_openLine x
  obtain ⟨closed', last', hy⟩ := exists_openLine y
  rw [hx.bareLines_eq, hy.bareLines_eq] at h
  obtain ⟨hclosed, hlast⟩ := List.append_inj' h rfl
  have hlast : last.dropWhile indentsLine = last'.dropWhile indentsLine := by simpa using hlast
  by_cases hc : c = '\n'
  · simp [bareLines, hc, hx.append_break, hy.append_break, hclosed, hlast]
  · have hl : '\n' ∉ [c] := by simpa using Ne.symm hc
    simp [bareLines, hx.append_line hl, hy.append_line hl, hclosed, List.dropWhile_append, hlast]

theorem bareLines_append_congr {x y : List Char} (h : bareLines x = bareLines y)
    (more : List Char) : bareLines (x ++ more) = bareLines (y ++ more) := by
  induction more generalizing x y with
  | nil => simpa using h
  | cons c more ih => simpa using ih (bareLines_concat_congr h c)

/-- Blanks at the beginning of a line are not seen. -/
theorem bareLines_append_blanks {cs blanks : List Char} (hends : endsLine cs = true)
    (hblanks : ∀ c ∈ blanks, indentsLine c = true) : bareLines (cs ++ blanks) = bareLines cs := by
  obtain ⟨closed, last, h⟩ := exists_openLine cs
  have hlast := h.last_eq_nil_iff.mpr hends
  have hl : '\n' ∉ blanks := fun hmem => by simpa [indentsLine] using hblanks _ hmem
  have hdrop : blanks.dropWhile indentsLine = [] := List.dropWhile_eq_nil_iff.mpr hblanks
  simp [bareLines, h.append_line hl, h.lines_eq, hlast, hdrop]

/-- A text that opens a block ends a line, but for blanks. -/
theorem exists_of_opensBlock {s : String} (h : opensBlock s = true) : ∃ front blanks,
    s.toList = front ++ '\n' :: blanks ∧ ∀ c ∈ blanks, indentsLine c = true := by
  unfold opensBlock at h
  split at h
  · rename_i before hdrop
    refine ⟨before.reverse, (s.toList.reverse.takeWhile indentsLine).reverse, ?_, ?_⟩
    · have hparts := List.takeWhile_append_dropWhile (p := indentsLine) (l := s.toList.reverse)
      rw [hdrop] at hparts
      simpa using congrArg List.reverse hparts.symm
    · intro c hc
      exact List.mem_takeWhile_imp (List.mem_reverse.mp hc)
  · simp at h

theorem lastBreak_of_eq {s : String} {front blanks : List Char}
    (h : s.toList = front ++ '\n' :: blanks) (hblanks : ∀ c ∈ blanks, indentsLine c = true) :
    (throughLastBreak s).toList = front ++ ['\n'] ∧ (afterLastBreak s).toList = blanks := by
  have hnone : ∀ c ∈ blanks.reverse, (c != '\n') = true := by
    intro c hc
    have hblank := hblanks c (List.mem_reverse.mp hc)
    by_contra hbreak
    have hbreak : c = '\n' := by simpa using hbreak
    simp [hbreak, indentsLine] at hblank
  have hreverse : s.toList.reverse = blanks.reverse ++ '\n' :: front.reverse := by simp [h]
  simp only [throughLastBreak, afterLastBreak, String.toList_ofList, hreverse]
  rw [List.dropWhile_append_of_pos hnone, List.takeWhile_append_of_pos hnone]
  simp

theorem endsLine_throughLastBreak {s : String} (h : opensBlock s = true) :
    endsLine (throughLastBreak s).toList = true := by
  obtain ⟨front, blanks, hs, hblanks⟩ := exists_of_opensBlock h
  rw [(lastBreak_of_eq hs hblanks).1, endsLine_concat]
  rfl

theorem afterLastBreak_blank {s : String} (h : opensBlock s = true) :
    ∀ c ∈ (afterLastBreak s).toList, indentsLine c = true := by
  obtain ⟨front, blanks, hs, hblanks⟩ := exists_of_opensBlock h
  rwa [(lastBreak_of_eq hs hblanks).2]

end TypeScriptComposer
