import TypeScriptComposer.Symbol.Spec

/-!
# Type expressions

The types that a template can mention, as trees. A name in such a tree is either literal or stands
for a symbol, which is then imported where the type is printed.
-/

set_option autoImplicit false

namespace TypeScriptComposer

inductive Combiner where
  | union
  | intersection
  deriving DecidableEq, Inhabited

def Combiner.token : Combiner → String
  | .union => "|"
  | .intersection => "&"

mutual

inductive TypeExpr where
  /-- A name as it is used, and the symbol it stands for. -/
  | named (usage : String) (symbol : Option Symbol)
  | applied (base : TypeExpr) (arguments : List TypeExpr)
  | typeVar (v : TypeVariable)
  | object (members : List Member)
  | tuple (members : List TypeExpr)
  | intersection (members : List TypeExpr)
  | union (members : List TypeExpr)
  | function (parameters : List (String × TypeExpr)) (returns : TypeExpr)

structure TypeVariable where
  name : String
  bounds : List Bound

structure Bound where
  type : TypeExpr
  combiner : Combiner
  keyOf : Bool

structure Member where
  name : String
  type : TypeExpr
  optional : Bool

end

namespace TypeExpr

def literal (name : String) : TypeExpr := .named name none

instance : Inhabited TypeExpr := ⟨literal "unknown"⟩

def ofSymbol (s : Symbol) : TypeExpr := .named s.value (some s)

def isTypeMarker (c : Char) : Bool := c == '@' || c == '*' || c == '+'

/-- A type by its name. A name with a marker that is a symbol spec stands for the imported symbol,
and what stands in front of the first marker is the usage; any other name is literal. -/
def ofName (name : String) : TypeExpr :=
  if name.toList.any isTypeMarker then
    match Symbol.parse name with
    | .ok s =>
      let usage := (takeTypeMark (name.toList.takeWhile (!isTypeMarker ·))).2
      .named (if usage.isEmpty then s.value else String.ofList usage) (some s)
    | .error _ => literal name
  else literal name

def ofSpec (spec : String) : Except SpecError TypeExpr := (Symbol.parse spec).map ofSymbol

def null : TypeExpr := literal "null"

def undefined : TypeExpr := literal "undefined"

def never : TypeExpr := literal "never"

def void : TypeExpr := literal "void"

def any : TypeExpr := literal "any"

def unknown : TypeExpr := literal "unknown"

def boolean : TypeExpr := literal "boolean"

def number : TypeExpr := literal "number"

def string : TypeExpr := literal "string"

def anObject : TypeExpr := literal "Object"

def date : TypeExpr := literal "Date"

def buffer : TypeExpr := literal "Buffer"

def arrayBuffer : TypeExpr := literal "ArrayBuffer"

def array (element : TypeExpr) : TypeExpr := .applied (literal "Array") [element]

def set (element : TypeExpr) : TypeExpr := .applied (literal "Set") [element]

def map (key value : TypeExpr) : TypeExpr := .applied (literal "Map") [key, value]

/-- Sets the type of a parameter: a new name goes to the end, a known one keeps its place. -/
def setParameter (parameters : List (String × TypeExpr)) (name : String) (type : TypeExpr) :
    List (String × TypeExpr) :=
  if parameters.any (·.1 == name) then
    parameters.map fun p => if p.1 == name then (name, type) else p
  else parameters ++ [(name, type)]

/-- A function type. A repeated parameter name keeps its first place and its last type. -/
def lambda (parameters : List (String × TypeExpr)) (returns : TypeExpr) : TypeExpr :=
  .function (parameters.foldl (fun ps p => setParameter ps p.1 p.2) []) returns

def isFunction : TypeExpr → Bool
  | .function .. => true
  | _ => false

def isProperUnion : TypeExpr → Bool
  | .union (_ :: _ :: _) => true
  | _ => false

end TypeExpr

instance : Inhabited TypeVariable := ⟨⟨"", []⟩⟩

namespace Bound

def ofUnion (type : TypeExpr) : Bound := ⟨type, .union, false⟩

def ofIntersection (type : TypeExpr) : Bound := ⟨type, .intersection, false⟩

def asKeys (b : Bound) : Bound := { b with keyOf := true }

end Bound

end TypeScriptComposer
