import TypeScriptComposer.Layout.Block
import TypeScriptComposer.Template
import TypeScriptComposer.TypeExpr.Symbols

/-!
# Scripts

The script of a template is the list of what the template does, in writing order: which texts it
writes, which types and symbols it prints, which outputs it uses and where they may be declared,
and where the indentation changes. Nested templates and lists are gone, and so is every decision of
layout, because those depend on the template alone.

Behind a text that opens a block, a nested template, a list or a declaration site is indented by
one level. The indentation that such a text ends with is dropped in front of the block and kept in
front of anything else.
-/

set_option autoImplicit false

namespace TypeScriptComposer

inductive Action where
  | write (s : String)
  | printType (t : TypeExpr)
  | printSymbol (s : Symbol)
  | reference (o : OutputId)
  | usage (o : OutputId)
  | declare (o : OutputId)
  | raise
  | lower

namespace Part

def held? : Part → Option String
  | .text s => if opensBlock s then some (afterLastBreak s) else none
  | _ => none

/-- What a part does, given what it does apart from its surroundings, behind a part that ends with
the indentation `held`: a block is indented, anything else follows the indentation, and what it
ends with itself is left to the next part. -/
def placed (held : Option String) (p : Part) (actions : List Action) : List Action :=
  if held.isSome && p.isBlock then .raise :: actions ++ [.lower]
  else (held.map Action.write).toList ++
    match p with
    | .text s => if opensBlock s then [.write (throughLastBreak s)] else actions
    | _ => actions

end Part

mutual

def Part.script : Part → List Action
  | .text s => [.write s]
  | .nested parts => Template.scriptAfter none parts
  | .type t => [.printType t]
  | .symbol s => [.printSymbol s]
  | .reference o => [.reference o]
  | .usage o => [.usage o]
  | .declaration o => [.declare o]
  | .list items separator => Part.scriptOfItems separator items

def Part.scriptOfItems (separator : String) : List Part → List Action
  | [] => []
  | p :: ps => p.script ++ Part.scriptOfRest separator ps

def Part.scriptOfRest (separator : String) : List Part → List Action
  | [] => []
  | p :: ps => .write separator :: p.script ++ Part.scriptOfRest separator ps

/-- What parts do behind a part that ends with the indentation `held`. -/
def Template.scriptAfter (held : Option String) : List Part → List Action
  | [] => (held.map Action.write).toList
  | p :: ps => p.placed held p.script ++ Template.scriptAfter p.held? ps

end

def Template.script (t : Template) : List Action := Template.scriptAfter none t

end TypeScriptComposer
