import TypeScriptComposer.TypeExpr

/-!
# The symbols of a type

`TypeExpr.symbols` lists every symbol that a printed type mentions, from left to right and with
repetitions. The bounds of a type variable are not printed with it and do not count.
-/

set_option autoImplicit false

namespace TypeScriptComposer

mutual

def TypeExpr.symbols : TypeExpr → List Symbol
  | .named _ s => s.toList
  | .applied base arguments => base.symbols ++ TypeExpr.symbolsOfAll arguments
  | .typeVar _ => []
  | .object members => TypeExpr.symbolsOfMembers members
  | .tuple members => TypeExpr.symbolsOfAll members
  | .intersection members => TypeExpr.symbolsOfAll members
  | .union members => TypeExpr.symbolsOfAll members
  | .function parameters returns => TypeExpr.symbolsOfParameters parameters ++ returns.symbols

def TypeExpr.symbolsOfAll : List TypeExpr → List Symbol
  | [] => []
  | t :: ts => t.symbols ++ TypeExpr.symbolsOfAll ts

def TypeExpr.symbolsOfMembers : List Member → List Symbol
  | [] => []
  | ⟨_, t, _⟩ :: ms => t.symbols ++ TypeExpr.symbolsOfMembers ms

def TypeExpr.symbolsOfParameters : List (String × TypeExpr) → List Symbol
  | [] => []
  | (_, t) :: ps => t.symbols ++ TypeExpr.symbolsOfParameters ps

end

end TypeScriptComposer
