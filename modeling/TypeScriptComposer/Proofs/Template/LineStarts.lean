import TypeScriptComposer.Proofs.Text.Margins
import TypeScriptComposer.Proofs.Writing.Following

/-!
# Where a script raises the level

A script raises the level directly behind a text that ends a line, and nowhere else. So whatever
stood on the line in front of the script, a block begins on a line of its own.
-/

set_option autoImplicit false

namespace TypeScriptComposer

/-- Whether an action leaves the writer at the beginning of a line, by what it says alone. -/
def Action.breaksLine : Action → Bool
  | .write s => s.toList.getLast? == some '\n'
  | _ => false

/-- Whether every raise comes directly behind an action that ends a line; `ready` tells whether the
action in front of the list does. -/
def Action.raisesOnLines : Bool → List Action → Bool
  | _, [] => true
  | ready, .raise :: rest => ready && raisesOnLines false rest
  | _, a :: rest => raisesOnLines a.breaksLine rest

open TypeScriptComposer.Action (raisesOnLines)

theorem raisesOnLines_write (ready : Bool) (s : String) (rest : List Action) :
    raisesOnLines ready (.write s :: rest) =
      raisesOnLines (Action.breaksLine (.write s)) rest := rfl

theorem raisesOnLines_of_false {actions : List Action} (h : raisesOnLines false actions = true)
    (ready : Bool) : raisesOnLines ready actions = true := by
  cases actions with
  | nil => rfl
  | cons a rest =>
    cases a with
    | raise => simp [raisesOnLines] at h
    | _ => exact h

theorem breaksLine_throughLastBreak {s : String} (h : opensBlock s = true) :
    Action.breaksLine (.write (throughLastBreak s)) = true := by
  obtain ⟨front, blanks, hs, hblanks⟩ := exists_of_opensBlock h
  simp [Action.breaksLine, (lastBreak_of_eq hs hblanks).1]

/-- A part among others, from what it does apart from them. Behind a text that holds indentation
back the writer is at the beginning of a line. -/
theorem raisesOnLines_placed {p : Part}
    (hp : ∀ ready rest, raisesOnLines false rest = true →
      raisesOnLines ready (p.script ++ rest) = true)
    {held : Option String} {ready : Bool} (hheld : held.isSome = true → ready = true)
    {rest : List Action} (hrest : raisesOnLines p.held?.isSome rest = true) :
    raisesOnLines ready (p.placed held p.script ++ rest) = true := by
  have hwritten (actions : List Action) (h : ∀ b, raisesOnLines b actions = true) :
      raisesOnLines ready ((held.map Action.write).toList ++ actions) = true := by
    cases held with
    | none => exact h ready
    | some s => exact h _
  by_cases hblock : (held.isSome && p.isBlock) = true
  · obtain ⟨hsome, hp'⟩ := (Bool.and_eq_true _ _).mp hblock
    rw [Part.held?_of_isBlock hp'] at hrest
    have hlower : raisesOnLines false (.lower :: rest) = true := hrest
    rw [Part.placed_of_block hblock, hheld hsome, List.append_assoc, List.cons_append]
    exact hp false _ hlower
  · cases hopens : p.held? with
    | none =>
      rw [hopens] at hrest
      rw [Part.placed_of_held?_eq_none hblock hopens, List.append_assoc]
      exact hwritten _ fun b => hp b rest hrest
    | some indentation =>
      obtain ⟨s, rfl, hs, -⟩ := Part.held?_eq_some hopens
      rw [hopens] at hrest
      rw [Part.placed_text hs, List.append_assoc]
      apply hwritten
      intro b
      rw [List.singleton_append, raisesOnLines_write, breaksLine_throughLastBreak hs]
      exact hrest

mutual

theorem raisesOnLines_script : ∀ (p : Part) (ready : Bool) (rest : List Action),
    raisesOnLines false rest = true → raisesOnLines ready (p.script ++ rest) = true
  | .text s, _, rest, h => by
    rw [Part.script, List.singleton_append]
    exact raisesOnLines_of_false h _
  | .nested parts, ready, rest, h => by
    rw [Part.script]
    exact raisesOnLines_scriptAfter none parts ready rest (by simp) h
  | .type _, _, _, h | .symbol _, _, _, h | .reference _, _, _, h | .usage _, _, _, h
  | .declaration _, _, _, h => by
    rw [Part.script, List.singleton_append]
    exact h
  | .list items separator, ready, rest, h => by
    rw [Part.script]
    exact raisesOnLines_scriptOfItems separator items ready rest h

theorem raisesOnLines_scriptOfItems (separator : String) :
    ∀ (ps : List Part) (ready : Bool) (rest : List Action), raisesOnLines false rest = true →
      raisesOnLines ready (Part.scriptOfItems separator ps ++ rest) = true
  | [], ready, rest, h => by
    rw [Part.scriptOfItems, List.nil_append]
    exact raisesOnLines_of_false h ready
  | p :: ps, ready, rest, h => by
    rw [Part.scriptOfItems, List.append_assoc]
    exact raisesOnLines_script p ready _ (raisesOnLines_scriptOfRest separator ps false rest h)

theorem raisesOnLines_scriptOfRest (separator : String) :
    ∀ (ps : List Part) (ready : Bool) (rest : List Action), raisesOnLines false rest = true →
      raisesOnLines ready (Part.scriptOfRest separator ps ++ rest) = true
  | [], ready, rest, h => by
    rw [Part.scriptOfRest, List.nil_append]
    exact raisesOnLines_of_false h ready
  | p :: ps, _, rest, h => by
    rw [Part.scriptOfRest, List.cons_append, List.cons_append, raisesOnLines_write,
      List.append_assoc]
    exact raisesOnLines_script p _ _ (raisesOnLines_scriptOfRest separator ps false rest h)

theorem raisesOnLines_scriptAfter (held : Option String) :
    ∀ (ps : List Part) (ready : Bool) (rest : List Action), (held.isSome = true → ready = true) →
      raisesOnLines false rest = true →
      raisesOnLines ready (Template.scriptAfter held ps ++ rest) = true
  | [], ready, rest, _, h => by
    rw [Template.scriptAfter]
    cases held with
    | none => exact raisesOnLines_of_false h ready
    | some s => exact raisesOnLines_of_false h _
  | p :: ps, ready, rest, hheld, h => by
    rw [Template.scriptAfter, List.append_assoc]
    apply raisesOnLines_placed (raisesOnLines_script p) hheld
    exact raisesOnLines_scriptAfter p.held? ps _ rest id h

end

theorem Template.raisesOnLines_script (t : Template) : raisesOnLines false t.script = true := by
  have h := raisesOnLines_scriptAfter none t false [] (by simp) rfl
  rwa [List.append_nil] at h

end TypeScriptComposer
