import TypeScriptComposer.Proofs.Template.LineStarts
import TypeScriptComposer.Proofs.Writing.Levels

/-!
# Writing behind other text

A script that is carried out on level zero writes the same behind other text as on its own. In the
middle of a line the writer puts no margin in front of the next character, and on its own it does,
but on level zero the margin is empty; and where the level is raised, a line has just been ended.
-/

set_option autoImplicit false

namespace TypeScriptComposer

open TypeScriptComposer.Action (raisesOnLines)

namespace Writer
variable {front : String} {w w' : Writer}

/-- `w` goes on behind `front` where `w'` begins. On level zero the one may be at the beginning of
a line and the other in the middle. -/
structure Resumes (front : String) (w w' : Writer) : Prop where
  indent : w.indent = w'.indent
  level : w.level = w'.level
  text : w.text = front ++ w'.text
  lineStart : w.level = 0 ∨ w.atLineStart = w'.atLineStart

theorem atLineStart_write (w : Writer) {s : String} {c : Char} (h : s.toList.getLast? = some c) :
    (w.write s).atLineStart = (c == '\n') := by
  obtain ⟨before, hs⟩ := List.getLast?_eq_some_iff.mp h
  rw [write, hs, List.foldl_append, List.foldl_cons, List.foldl_nil, put_eq]

namespace Resumes

theorem lead_eq (h : w.Resumes front w') (c : Char) : w.lead c = w'.lead c := by
  rcases h.lineStart with hzero | hstart
  · rw [lead_of_level_zero hzero, lead_of_level_zero (h.level ▸ hzero)]
  · rw [lead, lead, hstart, h.indent, h.level]

theorem put (h : w.Resumes front w') (c : Char) : (w.put c).Resumes front (w'.put c) := by
  rw [put_eq, put_eq]
  refine ⟨h.indent, h.level, ?_, Or.inr rfl⟩
  simp [h.text, h.lead_eq c]

theorem write (h : w.Resumes front w') (s : String) :
    (w.write s).Resumes front (w'.write s) := by
  unfold Writer.write
  induction s.toList generalizing w w' with
  | nil => exact h
  | cons c cs ih => exact ih (h.put c)

theorem raise (h : w.Resumes front w') (hstart : w.atLineStart = w'.atLineStart) :
    w.raise.Resumes front w'.raise :=
  ⟨h.indent, congrArg (· + 1) h.level, h.text, Or.inr hstart⟩

theorem lower (h : w.Resumes front w') : w.lower.Resumes front w'.lower := by
  refine ⟨h.indent, congrArg (· - 1) h.level, h.text, ?_⟩
  rcases h.lineStart with hzero | hstart
  · exact Or.inl (by rw [Writer.lower, hzero])
  · exact Or.inr hstart

/-- One action on both writers; a raise needs them to agree on where they are. -/
theorem did {a : Action} {ready : Bool} {rest : List Action} (h : w.Resumes front w')
    (hraises : raisesOnLines ready (a :: rest) = true)
    (hready : ready = true → w.atLineStart = w'.atLineStart) (x : Writing) (outputs : Outputs) :
    (Event.write w (.did a (x.textOf outputs a))).Resumes front
        (Event.write w' (.did a (x.textOf outputs a))) ∧
      ∃ ready', raisesOnLines ready' rest = true ∧ (ready' = true →
        (Event.write w (.did a (x.textOf outputs a))).atLineStart =
          (Event.write w' (.did a (x.textOf outputs a))).atLineStart) := by
  cases a with
  | raise =>
    obtain ⟨hr, hrest⟩ := (Bool.and_eq_true _ _).mp hraises
    exact ⟨h.raise (hready hr), false, hrest, by simp⟩
  | lower => exact ⟨h.lower, false, hraises, by simp⟩
  | write s =>
    refine ⟨h.write s, _, hraises, fun hbreaks => ?_⟩
    have hlast : s.toList.getLast? = some '\n' := by simpa [Action.breaksLine] using hbreaks
    exact (w.atLineStart_write hlast).trans (w'.atLineStart_write hlast).symm
  | printType t => exact ⟨h.write _, false, hraises, by simp⟩
  | printSymbol s => exact ⟨h.write _, false, hraises, by simp⟩
  | reference o => exact ⟨h.write _, false, hraises, by simp⟩
  | usage o => exact ⟨h.write _, false, hraises, by simp⟩
  | declare o => exact ⟨h.write _, false, hraises, by simp⟩

end Resumes

end Writer

namespace Writing
variable {outputs : Outputs} {front : String}

theorem resumes_events {actions : List Action} {x : Writing} {ready : Bool} {w w' : Writer}
    (hraises : raisesOnLines ready actions = true) (h : w.Resumes front w')
    (hready : ready = true → w.atLineStart = w'.atLineStart) :
    ((events outputs actions x).foldl Event.write w).Resumes front
      ((events outputs actions x).foldl Event.write w') := by
  fun_induction events outputs actions x generalizing ready w w' with
  | case1 => exact h
  | case2 o rest x due inner ihInner =>
    rename_i ihRest
    have hrest : raisesOnLines false rest = true := hraises
    have hinner := ihInner (Template.raisesOnLines_script (outputs.body o)) h (by simp)
    simp only [List.foldl_cons, List.foldl_append]
    exact ihRest hrest hinner (by simp)
  | case3 o rest x notDue ih =>
    have hrest : raisesOnLines false rest = true := hraises
    exact ih hrest h (by simp)
  | case4 a rest x hsite ih =>
    obtain ⟨hnext, ready', hrest, hready'⟩ := h.did hraises hready x outputs
    exact ih hrest hnext hready'

end Writing

end TypeScriptComposer
