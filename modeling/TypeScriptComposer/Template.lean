import TypeScriptComposer.TypeExpr.Equality

/-!
# Templates

A template is a list of parts: text, nested templates, types, symbols, lists, and the uses and
declaration sites of outputs. An output is known by its number; what it is called and what it
declares stands in a list of outputs (`TypeScriptComposer.Output`), so that a declaration can use
any output, itself too.
-/

set_option autoImplicit false

namespace TypeScriptComposer

/-- The position of an output in the list of outputs. -/
abbrev OutputId := Nat

inductive Part where
  | text (s : String)
  | nested (parts : List Part)
  | type (t : TypeExpr)
  | symbol (s : Symbol)
  /-- A use of an output that prints nothing. -/
  | reference (o : OutputId)
  /-- A use of an output that prints its label. -/
  | usage (o : OutputId)
  /-- A place where an output is declared if it is used. -/
  | declaration (o : OutputId)
  | list (items : List Part) (separator : String)

abbrev Template := List Part

instance : Inhabited Part := ⟨.text ""⟩

namespace Part

def isBlock : Part → Bool
  | .nested _ | .list _ _ | .declaration _ => true
  | _ => false

end Part

namespace Template

def ofText (s : String) : Template := [.text s]

def join (items : List Part) (separator : String) : Part := .list items separator

def array (items : List Part) : Template := [.text "[", .list items ", ", .text "]"]

end Template

mutual

def Part.same : Part → Part → Bool
  | .text s, .text s' => s == s'
  | .nested parts, .nested parts' => Part.sameAll parts parts'
  | .type t, .type t' => t == t'
  | .symbol s, .symbol s' => s == s'
  | .reference o, .reference o' => o == o'
  | .usage o, .usage o' => o == o'
  | .declaration o, .declaration o' => o == o'
  | .list items separator, .list items' separator' =>
    Part.sameAll items items' && separator == separator'
  | _, _ => false

def Part.sameAll : List Part → List Part → Bool
  | [], [] => true
  | p :: ps, q :: qs => p.same q && Part.sameAll ps qs
  | _, _ => false

end

/-- Parts are equal when they are the same tree over equal types; outputs are equal when they have
the same number, whatever their labels. -/
instance : BEq Part := ⟨Part.same⟩

namespace Bound

def template (b : Bound) : Template :=
  (if b.keyOf then [.text "keyof", .text " "] else []) ++ [.type b.type]

end Bound

namespace TypeVariable

/-- The bounds with the texts that join them; the first one follows `extends`. -/
def joinedBounds : List Bound → Template
  | [] => []
  | b :: bs =>
    .text " extends " :: .nested b.template ::
      bs.flatMap fun c => [.text (" " ++ c.combiner.token ++ " "), .nested c.template]

def declaration (v : TypeVariable) : Template := .text v.name :: joinedBounds v.bounds

end TypeVariable

end TypeScriptComposer
