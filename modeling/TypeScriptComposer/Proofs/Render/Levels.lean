import Mathlib
import TypeScriptComposer.Proofs.Writing.Levels

/-!
# Rendering at a level

The level at which a template is rendered only moves its text to the right: every line that is not
empty gets the margin of the level, and nothing else changes, in the text or in the context. For
the same reason a block is its template rendered on its own and moved by one unit.
-/

set_option autoImplicit false

namespace TypeScriptComposer

/-- Behind a text that opens a block, a nested template is written one level to the right, and the
indentation that the text ends with is dropped. -/
theorem Template.script_block {s : String} (h : opensBlock s = true) (t : Template) :
    Template.script [.text s, .nested t] =
      .write (throughLastBreak s) :: .raise :: (t.script ++ [.lower]) := by
  simp [Template.script, Template.scriptAfter, Part.script, Part.placed, Part.held?, Part.isBlock,
    h]

/-- A writer on level zero that has written the first line of a block and has been raised. -/
theorem Writer.raise_write_start (indent : Indent) {s : String} (h : opensBlock s = true) :
    ((Writer.start indent 0).write (throughLastBreak s)).raise =
      (Writer.start indent 1).behind (throughLastBreak s) := by
  have htext := Writer.text_write_of_level_zero (w := .start indent 0) rfl (throughLastBreak s)
  have hplaced : ((Writer.start indent 0).write (throughLastBreak s)).Placed :=
    Writer.Placed.write (w := .start indent 0) rfl _
  have hfront : "" ++ throughLastBreak s = throughLastBreak s := by simp
  have hback : throughLastBreak s ++ "" = throughLastBreak s := by simp
  rw [Writer.Placed, htext, Writer.start, hfront, endsLine_throughLastBreak h] at hplaced
  rw [Writer.raise, Writer.level_write, htext]
  simp only [Writer.behind, Writer.start, hfront, hback, Writer.mk.injEq, Nat.zero_add, true_and]
  exact ⟨Writer.indent_write _ _, hplaced⟩

theorem Writing.perform_block (outputs : Outputs) (front : String) (inner : List Action)
    (w : Writing) : perform outputs (.write front :: .raise :: (inner ++ [.lower])) w =
      (perform outputs inner (w.onWriter (w.writer.write front).raise)).onWriter
        (perform outputs inner (w.onWriter (w.writer.write front).raise)).writer.lower := by
  rw [perform, perform, perform_append, perform, perform]
  rfl

namespace Context
variable (outputs : Outputs) (c : Context) (t : Template)

def writing (level : Nat) : Writing := ⟨c.tracker, c.registry, .start c.indent level⟩

theorem renderIn_congr {outputs : Outputs} {c : Context} {t u : Template} {level : Nat}
    (h : Writing.perform outputs t.script (c.writing level) =
      Writing.perform outputs u.script (c.writing level)) :
    c.renderIn outputs t level = c.renderIn outputs u level :=
  congrArg (fun w : Writing =>
    (w.writer.text, { c with tracker := w.tracker, registry := w.registry })) h

/-- The events of a template in a context. They are the same on every level. -/
def events : List Event := Writing.events outputs t.script (c.writing 0)

theorem perform_script (v : Writer) : Writing.perform outputs t.script ((c.writing 0).onWriter v) =
    (Writing.perform outputs t.script (c.writing 0)).onWriter
      ((c.events outputs t).foldl Event.write v) :=
  Writing.perform_onWriter t.script (c.writing 0) v

theorem text_renderIn (level : Nat) : (c.renderIn outputs t level).1 =
    ((c.events outputs t).foldl Event.write (.start c.indent level)).text :=
  congrArg (·.writer.text) (c.perform_script outputs t (.start c.indent level))

theorem context_renderIn (level : Nat) :
    (c.renderIn outputs t level).2 = (c.renderIn outputs t 0).2 :=
  congrArg (fun w : Writing => { c with tracker := w.tracker, registry := w.registry })
    (c.perform_script outputs t (.start c.indent level))

theorem renderIn_level (level : Nat) : c.renderIn outputs t level =
    (indented (c.indent.margin level) (c.renderIn outputs t 0).1, (c.renderIn outputs t 0).2) := by
  refine Prod.ext ?_ (context_renderIn outputs c t level)
  have hcourse : Course outputs t.script (c.events outputs t) :=
    Writing.course_events outputs t.script _
  have hshifted := (hcourse.shifted (Template.settles_script t) (Nat.zero_le _)
    (.start c.indent level 0)).2
  rw [text_renderIn, text_renderIn, indented, ← String.toList_inj, String.toList_ofList]
  exact hshifted.text

theorem renderIn_block {s : String} (h : opensBlock s = true) :
    c.renderIn outputs [.text s, .nested t] 0 =
      (throughLastBreak s ++ (c.renderIn outputs t 1).1, (c.renderIn outputs t 1).2) := by
  have hopen : ((c.writing 0).writer.write (throughLastBreak s)).raise =
      (Writer.start c.indent 1).behind (throughLastBreak s) := Writer.raise_write_start c.indent h
  have hwritten : Writing.perform outputs (Template.script [.text s, .nested t]) (c.writing 0) =
      (Writing.perform outputs t.script (c.writing 0)).onWriter
        (((c.events outputs t).foldl Event.write (.start c.indent 1)).behind
          (throughLastBreak s)).lower := by
    rw [Template.script_block h, Writing.perform_block, hopen, perform_script,
      Event.foldl_write_behind]
    rfl
  refine Prod.ext ((congrArg (·.writer.text) hwritten).trans ?_) ((congrArg (fun w : Writing =>
    { c with tracker := w.tracker, registry := w.registry }) hwritten).trans ?_)
  · exact congrArg (throughLastBreak s ++ ·) (text_renderIn outputs c t 1).symm
  · exact (context_renderIn outputs c t 1).symm

end Context

/-- Rendering at a level is rendering at level zero with the margin of the level in front of every
line that is not empty, also where an output is declared, and it leaves the same context. A block is
its first lines, up to the last line break, and its template at level zero moved by one unit. -/
theorem renderIn_moves_with_level (outputs : Outputs) (c : Context) :
    (∀ (t : Template) (level : Nat), c.renderIn outputs t level =
      (indented (c.indent.margin level) (c.renderIn outputs t 0).1,
        (c.renderIn outputs t 0).2)) ∧
    (∀ (o : OutputId) (level : Nat), c.declareIfUsed outputs o level =
      ((c.declareIfUsed outputs o 0).1.map (indented (c.indent.margin level)),
        (c.declareIfUsed outputs o 0).2)) ∧
    ∀ (s : String) (t : Template), opensBlock s = true →
      c.renderIn outputs [.text s, .nested t] 0 =
        (throughLastBreak s ++ indented c.indent.unit (c.renderIn outputs t 0).1,
          (c.renderIn outputs t 0).2) := by
  refine ⟨c.renderIn_level outputs, ?_, ?_⟩
  · intro o level
    unfold Context.declareIfUsed
    cases c.registry.beginEmit o with
    | mk begun registry =>
      cases begun with
      | false => rfl
      | true =>
        dsimp only
        rw [Context.renderIn_level]
        rfl
  · intro s t hs
    rw [c.renderIn_block outputs t hs, Context.renderIn_level, Indent.margin_one]

/-- A call in a block: its argument is moved by the block and by the call. -/
theorem renderIn_moves_with_level_twice :
    let c := Context.ofSettings .standard
    let call : Template := [.text "f(\n", .nested [.text "x"], .text "\n);"]
    opensBlock "if (a) \x7b\n " = true ∧
    (c.renderIn [] call 0).1 = "f(\n  x\n);" ∧
    (c.renderIn [] [.text "if (a) \x7b\n ", .nested call] 0).1 =
      "if (a) \x7b\n  f(\n    x\n  );" := by
  intro c call
  have hopens : opensBlock "if (a) \x7b\n " = true := by decide
  have hcall : (c.renderIn [] call 0).1 = "f(\n  x\n);" := by cbv
  refine ⟨hopens, hcall, ?_⟩
  rw [(renderIn_moves_with_level [] c).2.2 _ call hopens, hcall]
  cbv

end TypeScriptComposer
