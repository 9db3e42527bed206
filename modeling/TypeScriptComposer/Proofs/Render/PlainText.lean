import Mathlib
import TypeScriptComposer.Proofs.Writing.Following

/-!
# What indentation changes

The text of a render is its plain text but for the blanks that lines begin with: the lines are the
same, and each of them is the same behind its indentation. Where no block follows a text that opens
one, and at level zero, the two texts are equal.
-/

set_option autoImplicit false

namespace TypeScriptComposer

namespace Writer

/-- What a writer adds to a text is seen in the lines as if it were written without indentation. -/
theorem bareLines_write {w : Writer} (h : w.Placed) (s : String) :
    bareLines (w.write s).text.toList = bareLines (w.text.toList ++ s.toList) := by
  have hput (v : Writer) (hv : v.Placed) (c : Char) :
      bareLines (v.put c).text.toList = bareLines (v.text.toList ++ [c]) := by
    rw [put_eq, String.toList_ofList, ← List.append_assoc]
    apply bareLines_concat_congr
    unfold lead
    split
    · rename_i hstart
      have hline : v.atLineStart = true := ((Bool.and_eq_true _ _).mp hstart).1
      exact bareLines_append_blanks (hv.symm.trans hline) (v.indent.margin_blank v.level)
    · rw [List.append_nil]
  unfold write
  induction s.toList generalizing w with
  | nil => simp
  | cons c cs ih =>
    rw [List.foldl_cons, ih (w.placed_put c), bareLines_append_congr (hput w h c),
      List.append_assoc]
    rfl

theorem atLineStart_write_throughLastBreak (w : Writer) {s : String} (h : opensBlock s = true) :
    (w.write (throughLastBreak s)).atLineStart = true := by
  obtain ⟨front, blanks, hs, hblanks⟩ := exists_of_opensBlock h
  rw [write, (lastBreak_of_eq hs hblanks).1, List.foldl_append, List.foldl_cons, put_eq]
  rfl

end Writer

/-- The writer has the lines of the text, but for what they begin with. Blanks may be held back at
the beginning of a line. -/
structure SameLines (held : Option String) (v : Writer) (text : String) : Prop where
  placed : v.Placed
  lines : bareLines v.text.toList = bareLines text.toList
  held : ∀ s, held = some s → v.atLineStart = true ∧ ∀ c ∈ s.toList, indentsLine c = true

theorem SameLines.tracking : Tracking True SameLines where
  write := by
    rintro v text s ⟨hplaced, hlines, -⟩
    refine ⟨hplaced.write s, ?_, by simp⟩
    rw [v.bareLines_write hplaced, bareLines_append_congr hlines, String.toList_append]
  hold := by
    rintro v text s hs ⟨hplaced, hlines, -⟩
    have hstart := v.atLineStart_write_throughLastBreak hs
    have hblank := afterLastBreak_blank hs
    refine ⟨hplaced.write _, ?_, ?_⟩
    · have hends : endsLine (text.toList ++ (throughLastBreak s).toList) = true := by
        obtain ⟨front, blanks, hfront, hblanks⟩ := exists_of_opensBlock hs
        rw [(lastBreak_of_eq hfront hblanks).1, ← List.append_assoc, endsLine_concat]
        rfl
      rw [v.bareLines_write hplaced, bareLines_append_congr hlines,
        ← bareLines_append_blanks hends hblank, List.append_assoc, ← String.toList_append,
        throughLastBreak_append_afterLastBreak, ← String.toList_append]
    · rintro _ ⟨⟩
      exact ⟨hstart, hblank⟩
  release := by
    rintro v text s ⟨hplaced, hlines, hheld⟩
    obtain ⟨hstart, hblank⟩ := hheld s rfl
    refine ⟨hplaced.write s, ?_, by simp⟩
    rw [v.bareLines_write hplaced, bareLines_append_blanks (hplaced.symm.trans hstart) hblank,
      hlines]
  raise := by
    rintro v text s - ⟨hplaced, hlines, -⟩
    exact ⟨hplaced, hlines, by simp⟩
  lower := by
    rintro v text ⟨hplaced, hlines, -⟩
    exact ⟨hplaced, hlines, by simp⟩

/-- A writer on level zero that has written the text, but for what is held back. -/
structure SameText (held : Option String) (v : Writer) (text : String) : Prop where
  level : v.level = 0
  text_eq : v.text ++ held.getD "" = text

theorem SameText.tracking : Tracking False SameText where
  write := by
    rintro v text s ⟨hlevel, rfl⟩
    refine ⟨by rw [v.level_write, hlevel], ?_⟩
    simp [Writer.text_write_of_level_zero hlevel]
  hold := by
    rintro v text s - ⟨hlevel, rfl⟩
    refine ⟨by rw [v.level_write, hlevel], ?_⟩
    simp [Writer.text_write_of_level_zero hlevel, String.append_assoc,
      throughLastBreak_append_afterLastBreak]
  release := by
    rintro v text s ⟨hlevel, rfl⟩
    refine ⟨by rw [v.level_write, hlevel], ?_⟩
    simp [Writer.text_write_of_level_zero hlevel]
  raise := fun h => h.elim
  lower := by
    rintro v text ⟨hlevel, htext⟩
    exact ⟨by rw [Writer.lower, hlevel], htext⟩

namespace Context
variable {outputs : Outputs} {blocks : Prop} {R : Option String → Writer → String → Prop}

def transcript (c : Context) : Transcript := ⟨c.tracker, c.registry, ""⟩

/-- Names and outputs are treated alike, with layout and without. -/
theorem perform_eq_plain (outputs : Outputs) (c : Context) (t : Template) (v : Writer) :
    ∃ v', Writing.perform outputs t.script (c.transcript.on v) =
      (c.transcript.add outputs t).on v' := by
  have hall : Tracking True fun _ _ _ => True := by constructor <;> simp
  obtain ⟨v', hperform, -⟩ := hall.follows_script t c.transcript (fun h => (h trivial).elim) v
    trivial fun o _ h => (h trivial).elim
  exact ⟨v', hperform⟩

/-- A relation that the layout keeps holds between a render and its plain text. -/
theorem exists_writer_of_tracking (hR : Tracking blocks R) (c : Context) (t : Template)
    (level : Nat) (hstart : R none (.start c.indent level) "")
    (hflat : ¬ blocks → t.isFlat = true)
    (hbodies : ∀ o, (c.plainIn outputs t).2.registry.state o = .emitted →
      c.registry.state o ≠ .emitted → ¬ blocks → Template.isFlat (outputs.body o) = true) :
    ∃ v, (c.renderIn outputs t level).1 = v.text ∧ R none v (c.plainIn outputs t).1 := by
  obtain ⟨v, hperform⟩ := c.perform_eq_plain outputs t (.start c.indent level)
  have hbegun : ∀ o ∈ Event.begun (Writing.events outputs t.script
      (c.transcript.on (.start c.indent level))),
      ¬ blocks → Template.isFlat (outputs.body o) = true := by
    intro o ho
    have hemitted := (Writing.emitted_perform_iff t.script _ o).mpr (Or.inr ho)
    rw [hperform] at hemitted
    exact hbodies o hemitted ((Writing.begun_events t.script _).2 o ho)
  obtain ⟨v', hperform', hv'⟩ := hR.follows_script t c.transcript hflat _ hstart hbegun
  exact ⟨v', congrArg (·.writer.text) hperform', hv'⟩

theorem context_renderIn_eq_plainIn (c : Context) (t : Template) (level : Nat) :
    (c.renderIn outputs t level).2 = (c.plainIn outputs t).2 := by
  obtain ⟨v, hperform⟩ := c.perform_eq_plain outputs t (.start c.indent level)
  exact congrArg (fun w : Writing => { c with tracker := w.tracker, registry := w.registry })
    hperform

end Context

/-- Whatever the context and the level, a render and its plain text leave the same context and have
the same lines, once the spaces and tabs that lines begin with are taken away. At level zero they
are equal, when no block stands directly behind a text that opens one: neither in the template nor
in a declaration that is emitted. -/
theorem renderIn_changes_only_indentation (outputs : Outputs) (c : Context) (t : Template)
    (level : Nat) :
    let rendered := c.renderIn outputs t level
    let plain := c.plainIn outputs t
    rendered.2 = plain.2 ∧
    (lines rendered.1.toList).length = (lines plain.1.toList).length ∧
    bareLines rendered.1.toList = bareLines plain.1.toList ∧
    (level = 0 → t.isFlat = true →
      (∀ o, plain.2.registry.state o = .emitted → c.registry.state o ≠ .emitted →
        Template.isFlat (outputs.body o) = true) →
      rendered.1 = plain.1) := by
  intro rendered plain
  have hlines : bareLines rendered.1.toList = bareLines plain.1.toList := by
    obtain ⟨v, htext, hv⟩ := c.exists_writer_of_tracking SameLines.tracking t level
      ⟨rfl, rfl, by simp⟩ (fun h => (h trivial).elim) fun o _ _ h => (h trivial).elim
    exact (congrArg (fun s : String => bareLines s.toList) htext).trans hv.lines
  refine ⟨c.context_renderIn_eq_plainIn t level, ?_, hlines, ?_⟩
  · simpa [bareLines] using congrArg List.length hlines
  · rintro rfl hflat hbodies
    obtain ⟨v, htext, hv⟩ := c.exists_writer_of_tracking SameText.tracking t 0 ⟨rfl, rfl⟩
      (fun _ => hflat) fun o hemitted hnew _ => hbodies o hemitted hnew
    have hplain : v.text = plain.1 := by simpa using hv.text_eq
    exact htext.trans hplain

/-- A list and a declaration without blocks: the text of the render is its plain text. -/
theorem renderIn_changes_only_indentation_flat :
    let outputs : Outputs := [⟨"a", some [.text "const a = 1;\n"]⟩]
    let c := Context.ofSettings .standard
    let t : Template :=
      [.reference 0, .declaration 0, .list [.usage 0, .text "b"] ", ", .text ";\n  "]
    (c.renderIn outputs t 0).1 = (c.plainIn outputs t).1 ∧
    (c.plainIn outputs t).1 = "const a = 1;\na, b;\n  " := by
  intro outputs c t
  have hplain : (c.plainIn outputs t).1 = "const a = 1;\na, b;\n  " := by cbv
  refine ⟨?_, hplain⟩
  refine (renderIn_changes_only_indentation outputs c t 0).2.2.2 rfl (by decide) ?_
  intro o _ _
  cases o with
  | zero => decide
  | succ o => rfl

end TypeScriptComposer
