import TypeScriptComposer.Template.Script

/-!
# Scripts of joined templates

When two templates are joined, the first one does what it does on its own, except that the
indentation it ends with is left to the second: the second drops it when it begins with a block, and
otherwise begins by writing it.
-/

set_option autoImplicit false

namespace TypeScriptComposer

namespace Template

/-- The indentation that a template ends with and leaves to what follows. -/
def held? (t : Template) : Option String := t.getLast?.bind Part.held?

/-- The indentation that is held back behind parts which stand behind the indentation `held`. -/
def heldAfter (held : Option String) : List Part → Option String
  | [] => held
  | p :: ps => heldAfter p.held? ps

/-- What parts do in front of others. -/
def scriptBefore (held : Option String) : List Part → List Action
  | [] => []
  | p :: ps => p.placed held p.script ++ scriptBefore p.held? ps

theorem heldAfter_none (t : Template) : heldAfter none t = t.held? := by
  have hcons (p : Part) (ps : List Part) : heldAfter p.held? ps = Template.held? (p :: ps) := by
    induction ps generalizing p with
    | nil => rfl
    | cons q ps ih => rw [heldAfter, ih q, held?, held?, List.getLast?_cons_cons]
  cases t with
  | nil => rfl
  | cons p ps => exact hcons p ps

theorem scriptAfter_append (held : Option String) (front back : List Part) :
    scriptAfter held (front ++ back) =
      scriptBefore held front ++ scriptAfter (heldAfter held front) back := by
  induction front generalizing held with
  | nil => rfl
  | cons p ps ih =>
    rw [List.cons_append, scriptAfter, ih, scriptBefore, heldAfter, List.append_assoc]

theorem script_append (front back : Template) :
    (front ++ back).script = scriptBefore none front ++ scriptAfter front.held? back := by
  rw [script, scriptAfter_append, heldAfter_none]

/-- Behind a template that leaves nothing the second one does what it does on its own. -/
theorem script_append_of_held?_eq_none {front : Template} (h : front.held? = none)
    (back : Template) : (front ++ back).script = front.script ++ back.script := by
  have hfront : front.script = scriptBefore none front := by
    have happend := script_append front []
    rwa [List.append_nil, h, scriptAfter, Option.map_none, Option.toList_none,
      List.append_nil] at happend
  rw [script_append, h, hfront, script]

/-- A template that begins with no block writes the indentation in front of it. -/
theorem scriptAfter_of_not_block {back : Template} (h : back.head?.any Part.isBlock = false)
    (held : Option String) :
    scriptAfter held back = (held.map Action.write).toList ++ scriptAfter none back := by
  cases back with
  | nil => simp [scriptAfter]
  | cons q qs =>
    have hq : q.isBlock = false := h
    simp [scriptAfter, Part.placed, hq]

end Template

end TypeScriptComposer
