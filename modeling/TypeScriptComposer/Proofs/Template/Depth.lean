import TypeScriptComposer.Template.Script

/-!
# The depth of a script

A script raises the level in front of a block and lowers it behind the block, so that every lowering
takes back a raise of its own, at whatever depth the block stands.
-/

set_option autoImplicit false

namespace TypeScriptComposer

/-- Whether a list of actions lowers the level as often as it and the `depth` raises in front of it
raise it, and never more often up to any point. -/
def Action.settles : Nat → List Action → Bool
  | depth, [] => depth == 0
  | depth, .raise :: rest => settles (depth + 1) rest
  | 0, .lower :: _ => false
  | depth + 1, .lower :: rest => settles depth rest
  | depth, .write _ :: rest => settles depth rest
  | depth, .printType _ :: rest => settles depth rest
  | depth, .printSymbol _ :: rest => settles depth rest
  | depth, .reference _ :: rest => settles depth rest
  | depth, .usage _ :: rest => settles depth rest
  | depth, .declare _ :: rest => settles depth rest

open TypeScriptComposer.Action (settles)

theorem settles_held (depth : Nat) (held : Option String) (rest : List Action) :
    settles depth ((held.map Action.write).toList ++ rest) = settles depth rest := by
  cases held with
  | none => rfl
  | some s => rw [Option.map_some, Option.toList_some, List.singleton_append, settles]

/-- A part that leaves the depth as it is does so among other parts, too. -/
theorem settles_placed {p : Part} {actions : List Action}
    (h : ∀ depth rest, settles depth (actions ++ rest) = settles depth rest) (depth : Nat)
    (held : Option String) (rest : List Action) :
    settles depth (p.placed held actions ++ rest) = settles depth rest := by
  unfold Part.placed
  split
  · rw [List.append_assoc, List.cons_append, settles, h, List.singleton_append, settles]
  · rw [List.append_assoc, settles_held]
    cases p with
    | text s =>
      dsimp only
      split
      · rw [List.singleton_append, settles]
      · exact h depth rest
    | _ => exact h depth rest

mutual

theorem settles_script (depth : Nat) (rest : List Action) :
    ∀ p : Part, settles depth (p.script ++ rest) = settles depth rest
  | .text s => by rw [Part.script, List.singleton_append, settles]
  | .nested parts => by rw [Part.script, settles_scriptAfter depth rest none parts]
  | .type t => by rw [Part.script, List.singleton_append, settles]
  | .symbol s => by rw [Part.script, List.singleton_append, settles]
  | .reference o => by rw [Part.script, List.singleton_append, settles]
  | .usage o => by rw [Part.script, List.singleton_append, settles]
  | .declaration o => by rw [Part.script, List.singleton_append, settles]
  | .list items separator => by rw [Part.script, settles_scriptOfItems depth rest separator items]

theorem settles_scriptOfItems (depth : Nat) (rest : List Action) (separator : String) :
    ∀ ps : List Part, settles depth (Part.scriptOfItems separator ps ++ rest) = settles depth rest
  | [] => by rw [Part.scriptOfItems, List.nil_append]
  | p :: ps => by
    rw [Part.scriptOfItems, List.append_assoc, settles_script,
      settles_scriptOfRest depth rest separator ps]

theorem settles_scriptOfRest (depth : Nat) (rest : List Action) (separator : String) :
    ∀ ps : List Part, settles depth (Part.scriptOfRest separator ps ++ rest) = settles depth rest
  | [] => by rw [Part.scriptOfRest, List.nil_append]
  | p :: ps => by
    rw [Part.scriptOfRest, List.cons_append, List.cons_append, settles, List.append_assoc,
      settles_script, settles_scriptOfRest depth rest separator ps]

theorem settles_scriptAfter (depth : Nat) (rest : List Action) (held : Option String) :
    ∀ ps : List Part, settles depth (Template.scriptAfter held ps ++ rest) = settles depth rest
  | [] => by rw [Template.scriptAfter, settles_held]
  | p :: ps => by
    rw [Template.scriptAfter, List.append_assoc, settles_placed (fun d r => settles_script d r p),
      settles_scriptAfter depth rest p.held? ps]

end

theorem Template.settles_script (t : Template) : settles 0 t.script = true := by
  have h := settles_scriptAfter 0 [] none t
  rwa [List.append_nil] at h

end TypeScriptComposer
