import TypeScriptComposer.TypeExpr

/-!
# Equality of types

Two types are equal when they are the same tree, except that the parameters of a function type
are a dictionary: their order does not count.
-/

set_option autoImplicit false

namespace TypeScriptComposer

mutual

def TypeExpr.same : TypeExpr → TypeExpr → Bool
  | .named usage s, .named usage' s' => usage == usage' && s == s'
  | .applied base arguments, .applied base' arguments' =>
    base.same base' && TypeExpr.sameAll arguments arguments'
  | .typeVar v, .typeVar v' => v.same v'
  | .object members, .object members' => TypeExpr.sameMembers members members'
  | .tuple members, .tuple members' => TypeExpr.sameAll members members'
  | .intersection members, .intersection members' => TypeExpr.sameAll members members'
  | .union members, .union members' => TypeExpr.sameAll members members'
  | .function parameters returns, .function parameters' returns' =>
    parameters.length == parameters'.length &&
      TypeExpr.sameParameters parameters parameters' && returns.same returns'
  | _, _ => false

def TypeExpr.sameAll : List TypeExpr → List TypeExpr → Bool
  | [], [] => true
  | t :: ts, u :: us => t.same u && TypeExpr.sameAll ts us
  | _, _ => false

def TypeExpr.sameMembers : List Member → List Member → Bool
  | [], [] => true
  | ⟨name, type, optional⟩ :: ms, ⟨name', type', optional'⟩ :: ms' =>
    name == name' && type.same type' && optional == optional' && TypeExpr.sameMembers ms ms'
  | _, _ => false

/-- Whether every parameter of the first list has an equal one under its name in the second. -/
def TypeExpr.sameParameters :
    List (String × TypeExpr) → List (String × TypeExpr) → Bool
  | [], _ => true
  | (name, type) :: ps, ps' =>
    (match ps'.lookup name with
      | some type' => type.same type'
      | none => false) && TypeExpr.sameParameters ps ps'

def TypeVariable.same : TypeVariable → TypeVariable → Bool
  | ⟨name, bounds⟩, ⟨name', bounds'⟩ => name == name' && TypeExpr.sameBounds bounds bounds'

def TypeExpr.sameBounds : List Bound → List Bound → Bool
  | [], [] => true
  | ⟨type, combiner, keyOf⟩ :: bs, ⟨type', combiner', keyOf'⟩ :: bs' =>
    type.same type' && combiner == combiner' && keyOf == keyOf' && TypeExpr.sameBounds bs bs'
  | _, _ => false

end

instance : BEq TypeExpr := ⟨TypeExpr.same⟩

end TypeScriptComposer
