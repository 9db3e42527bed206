import TypeScriptComposer.Layout.Writer
import TypeScriptComposer.Proofs.Text.Margins

/-!
# What a writer writes

Two writers that are given the same texts, one of them some levels further to the right, write the
same text but for the margin of those levels. A writer at the beginning of a line writes behind its
text what a new writer writes. And whatever the level, a writer adds to a text only blanks in front
of lines.
-/

set_option autoImplicit false

namespace TypeScriptComposer

namespace Indent

theorem unit_blank (indent : Indent) : ∀ c ∈ indent.unit.toList, indentsLine c = true := by
  intro c hc
  cases indent with
  | spaces width =>
    have hmem : c ∈ List.replicate width ' ' := by simpa [unit] using hc
    rw [List.eq_of_mem_replicate hmem]
    rfl
  | tab =>
    have htab : c = '\t' := by simpa [unit] using hc
    rw [htab]
    rfl

theorem toList_margin (indent : Indent) (level : Nat) : (indent.margin level).toList =
    (List.replicate level indent.unit).flatMap String.toList := by
  simp [margin]

theorem margin_blank (indent : Indent) (level : Nat) :
    ∀ c ∈ (indent.margin level).toList, indentsLine c = true := by
  intro c hc
  rw [toList_margin] at hc
  obtain ⟨unit, hunit, hc⟩ := List.mem_flatMap.mp hc
  rw [List.eq_of_mem_replicate hunit] at hc
  exact indent.unit_blank c hc

theorem toList_margin_add (indent : Indent) (m n : Nat) : (indent.margin (m + n)).toList =
    (indent.margin m).toList ++ (indent.margin n).toList := by
  simp only [toList_margin, ← List.replicate_append_replicate, List.flatMap_append]

@[simp] theorem margin_zero (indent : Indent) : indent.margin 0 = "" := rfl

@[simp] theorem margin_one (indent : Indent) : indent.margin 1 = indent.unit := by
  simp [← String.toList_inj, toList_margin]

end Indent

namespace Writer

/-- What a writer puts in front of the next character. -/
def lead (w : Writer) (c : Char) : List Char :=
  if w.atLineStart && c != '\n' then (w.indent.margin w.level).toList else []

theorem put_eq (w : Writer) (c : Char) : w.put c =
    ⟨w.indent, w.level, String.ofList (w.text.toList ++ (w.lead c ++ [c])), c == '\n'⟩ := by
  unfold put lead
  by_cases hc : c = '\n'
  · simp [hc, ← String.toList_inj]
  · cases hstart : w.atLineStart <;> simp [hc, ← String.toList_inj]

/-- A writer knows where it is: at the beginning of a line when its text is empty or ends one. -/
def Placed (w : Writer) : Prop := w.atLineStart = endsLine w.text.toList

theorem placed_put (w : Writer) (c : Char) : (w.put c).Placed := by
  rw [put_eq, Placed, String.toList_ofList, ← List.append_assoc, endsLine_concat]

/-- What every character keeps is kept by a text. -/
theorem write_induction {P : Writer → Prop} (h : ∀ w c, P w → P (w.put c)) {w : Writer} (hw : P w)
    (s : String) : P (w.write s) := by
  unfold write
  induction s.toList generalizing w with
  | nil => exact hw
  | cons c cs ih => exact ih (h w c hw)

theorem level_write (w : Writer) (s : String) : (w.write s).level = w.level := by
  apply write_induction (P := fun v => v.level = w.level) _ rfl
  intro v c hv
  rw [put_eq, hv]

theorem indent_write (w : Writer) (s : String) : (w.write s).indent = w.indent := by
  apply write_induction (P := fun v => v.indent = w.indent) _ rfl
  intro v c hv
  rw [put_eq, hv]

theorem Placed.write {w : Writer} (h : w.Placed) (s : String) : (w.write s).Placed :=
  write_induction (fun v c _ => v.placed_put c) h s

theorem lead_of_level_zero {w : Writer} (h : w.level = 0) (c : Char) : w.lead c = [] := by
  simp [lead, h]

/-- At level zero a text is written as it is. -/
theorem text_write_of_level_zero {w : Writer} (h : w.level = 0) (s : String) :
    (w.write s).text = w.text ++ s := by
  have hput (v : Writer) (cs : List Char) (hv : v.level = 0) :
      (cs.foldl Writer.put v).text.toList = v.text.toList ++ cs := by
    induction cs generalizing v with
    | nil => simp
    | cons c cs ih =>
      rw [List.foldl_cons, ih _ (by rw [put_eq, hv])]
      simp [put_eq, lead_of_level_zero hv]
  rw [← String.toList_inj, String.toList_append, write, hput w _ h]

/-- `w'` has written what `w` has written, `n` levels further to the right. -/
structure Shifted (indent : Indent) (n : Nat) (w w' : Writer) : Prop where
  left : w.indent = indent
  right : w'.indent = indent
  level : w'.level = n + w.level
  placed : w.Placed
  lineStart : w'.atLineStart = w.atLineStart
  text : w'.text.toList = withMargin (indent.margin n).toList w.text.toList

theorem not_mem_lead (w : Writer) {c : Char} (hc : c ≠ '\n') : '\n' ∉ w.lead c ++ [c] := by
  rw [List.mem_append, List.mem_singleton, not_or]
  refine ⟨?_, hc.symm⟩
  unfold lead
  split
  · intro hmem
    simpa [indentsLine] using w.indent.margin_blank w.level _ hmem
  · simp

namespace Shifted
variable {indent : Indent} {n : Nat} {w w' : Writer}

theorem start (indent : Indent) (n level : Nat) :
    Shifted indent n (.start indent level) (.start indent (n + level)) :=
  ⟨rfl, rfl, rfl, rfl, rfl, rfl⟩

theorem put (h : Shifted indent n w w') (c : Char) : Shifted indent n (w.put c) (w'.put c) := by
  obtain ⟨hleft, hright, hlevel, hplaced, hstart, htext⟩ := h
  unfold Placed at hplaced
  refine ⟨by rw [put_eq, hleft], by rw [put_eq, hright], by rw [put_eq, put_eq, hlevel],
    placed_put w c, by rw [put_eq, put_eq], ?_⟩
  simp only [put_eq, String.toList_ofList, htext]
  by_cases hc : c = '\n'
  · simp [lead, hc, withMargin_append_break]
  · rw [withMargin_append_line _ _ (w.not_mem_lead hc) (by simp), ← hplaced]
    cases hline : w.atLineStart
    · simp [lead, hstart, hline]
    · simp [lead, hstart, hline, hc, hleft, hright, hlevel, Indent.toList_margin_add]

theorem write (h : Shifted indent n w w') (s : String) :
    Shifted indent n (w.write s) (w'.write s) := by
  unfold Writer.write
  induction s.toList generalizing w w' with
  | nil => exact h
  | cons c cs ih => exact ih (h.put c)

theorem raise (h : Shifted indent n w w') : Shifted indent n w.raise w'.raise :=
  ⟨h.left, h.right, congrArg (· + 1) h.level, h.placed, h.lineStart, h.text⟩

theorem lower (h : Shifted indent n w w') (hlevel : 0 < w.level) :
    Shifted indent n w.lower w'.lower := by
  refine ⟨h.left, h.right, ?_, h.placed, h.lineStart, h.text⟩
  have := h.level
  simp only [Writer.lower]
  omega

end Shifted

/-- The writer with a text in front of its own. -/
def behind (w : Writer) (front : String) : Writer := { w with text := front ++ w.text }

theorem put_behind (w : Writer) (front : String) (c : Char) :
    (w.behind front).put c = (w.put c).behind front := by
  simp only [put_eq, behind, lead, mk.injEq, true_and, ← String.toList_inj]
  simp

theorem write_behind (w : Writer) (front s : String) :
    (w.behind front).write s = (w.write s).behind front := by
  unfold write
  induction s.toList generalizing w with
  | nil => rfl
  | cons c cs ih => rw [List.foldl_cons, put_behind, ih, List.foldl_cons]

end Writer

end TypeScriptComposer
