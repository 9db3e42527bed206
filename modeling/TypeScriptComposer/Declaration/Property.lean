import TypeScriptComposer.Declaration.Doc
import TypeScriptComposer.Declaration.Modifier

/-!
# Properties of interfaces and classes
-/

set_option autoImplicit false

namespace TypeScriptComposer

structure PropertyDecl where
  name : String
  type : TypeExpr
  optional : Bool
  modifiers : List Modifier
  doc : Option String
  initializer? : Option Template

namespace PropertyDecl

def head (p : PropertyDecl) (implicit : List Modifier) : String :=
  Modifier.text p.modifiers implicit ++ p.name ++ (if p.optional then "?" else "") ++ ": "

def template (p : PropertyDecl) : Template :=
  docComment p.doc ++ [.text (p.head []), .type p.type] ++
    (match p.initializer? with
      | none => []
      | some value => [.text " = ", .nested value]) ++
    [.text ";\n"]

/-- A member of an interface: public without saying so, and without an initial value. -/
def member (p : PropertyDecl) : Template :=
  docComment p.doc ++ [.text (p.head [.isPublic]), .type p.type, .text ";\n"]

end PropertyDecl

end TypeScriptComposer
