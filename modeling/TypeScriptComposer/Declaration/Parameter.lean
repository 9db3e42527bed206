import TypeScriptComposer.Declaration.Modifier
import TypeScriptComposer.Template

/-!
# Parameters of functions
-/

set_option autoImplicit false

namespace TypeScriptComposer

structure ParameterDecl where
  name : String
  type : TypeExpr
  optional : Bool
  rest : Bool
  modifiers : List Modifier
  default? : Option Template

namespace ParameterDecl

def head (p : ParameterDecl) : String :=
  Modifier.text p.modifiers [] ++ (if p.rest then "..." else "") ++ p.name ++
    (if p.optional then "?" else "") ++ ": "

def template (p : ParameterDecl) : Template :=
  [.text p.head, .type p.type] ++
    match p.default? with
    | none => []
    | some value => [.text " = ", .nested value]

end ParameterDecl

end TypeScriptComposer
