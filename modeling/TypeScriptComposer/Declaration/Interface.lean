import TypeScriptComposer.Declaration.Function
import TypeScriptComposer.Declaration.Property

/-!
# Interfaces

The members of an interface are written in a fixed order: properties, index signatures, the call
signature, functions. An empty line stands in front of every function, and behind the last one.
-/

set_option autoImplicit false

namespace TypeScriptComposer

structure InterfaceDecl where
  name : String
  doc : Option String
  modifiers : List Modifier
  typeVariables : List TypeVariable
  supers : List TypeExpr
  properties : List PropertyDecl
  indexSignatures : List FunctionDecl
  callSignature? : Option FunctionDecl
  functions : List FunctionDecl

namespace InterfaceDecl

def header (i : InterfaceDecl) : Template :=
  .text (Modifier.text i.modifiers [] ++ "interface " ++ i.name) ::
    typeVariableList i.typeVariables ++
    if i.supers.isEmpty then [] else [.text " extends ", .list (i.supers.map .type) ", "]

def functionMembers (i : InterfaceDecl) : Template :=
  if i.functions.isEmpty then []
  else (i.functions.flatMap fun f => [.text "\n", .nested f.member]) ++ [.text "\n"]

def members (i : InterfaceDecl) : Template :=
  (i.properties.map fun p => .nested p.member) ++
    (i.indexSignatures.map fun f => .nested f.member) ++
    (i.callSignature?.toList.map fun f => .nested f.member) ++
    i.functionMembers

def template (i : InterfaceDecl) : Template :=
  docComment i.doc ++
    [.nested i.header, .text blockOpening, .nested i.members, .text blockClosing]

end InterfaceDecl

end TypeScriptComposer
