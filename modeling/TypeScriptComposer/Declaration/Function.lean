import TypeScriptComposer.Declaration.Doc
import TypeScriptComposer.Declaration.Parameter
import TypeScriptComposer.Text.Braced

/-!
# Functions and signatures
-/

set_option autoImplicit false

namespace TypeScriptComposer

inductive FunctionKind where
  | function (name : String)
  | indexSignature
  | callSignature
  | construct
  deriving DecidableEq

structure FunctionDecl where
  kind : FunctionKind
  doc : Option String
  modifiers : List Modifier
  typeVariables : List TypeVariable
  parameters : List ParameterDecl
  returns? : Option TypeExpr
  body? : Option Template

def typeVariableList (vs : List TypeVariable) : Template :=
  if vs.isEmpty then []
  else [.text "<", .list (vs.map fun v => .nested v.declaration) ", ", .text ">"]

namespace FunctionDecl

def parameterList (f : FunctionDecl) : Part :=
  .list (f.parameters.map fun p => .nested p.template) ", "

def callForm (f : FunctionDecl) : Template :=
  typeVariableList f.typeVariables ++ [.text "(", f.parameterList, .text ")"]

def signature (f : FunctionDecl) : Template :=
  (match f.kind with
    | .function name => .text name :: f.callForm
    | .indexSignature => [.text "[", f.parameterList, .text "]"]
    | .callSignature | .construct => f.callForm) ++
    match f.returns? with
    | none => []
    | some type => [.text ": ", .type type]

def member (f : FunctionDecl) : Template :=
  docComment f.doc ++ [.text (Modifier.text f.modifiers [.isPublic])] ++
    (if f.kind = .construct then [.text "new"] else []) ++
    [.nested f.signature, .text ";\n"]

def bodyBlock (f : FunctionDecl) : Template :=
  match f.body? with
  | none | some [] => [.text (blockOpening ++ blockClosing)]
  | some body => [.text blockOpening, .nested body, .text ("\n" ++ blockClosing)]

def standing (f : FunctionDecl) (keyword : String) : Template :=
  docComment f.doc ++
    [.text (Modifier.text f.modifiers []), .text keyword, .nested f.signature] ++ f.bodyBlock

/-- A function that stands alone. Index and call signatures occur as members only. -/
def template (f : FunctionDecl) : Template :=
  match f.kind with
  | .function _ => f.standing "function "
  | .construct => f.standing "constructor"
  | .indexSignature | .callSignature => f.member

end FunctionDecl

end TypeScriptComposer
