import TypeScriptComposer.Symbol

/-!
# Symbol specs

The compact written form of an imported symbol: a name, a marker and a module, as in
`Observable@rxjs`. The marker gives the import style. A spec that starts with `t:` asks for a
type-only import, and of a dotted name only the first segment is imported.
-/

set_option autoImplicit false

namespace TypeScriptComposer

/-- The style that a marker stands for; any other character is no marker. -/
def ImportStyle.ofMarker? : Char → Option ImportStyle
  | '@' => some .named
  | '=' => some .default
  | '*' => some .star
  | '+' => some .sideEffect
  | _ => none

def isMarker (c : Char) : Bool := (ImportStyle.ofMarker? c).isSome

inductive SpecFault where
  | missingMarker
  | missingModule
  | notIdentifier (value : String)
  | missingName
  deriving DecidableEq

def SpecFault.reason : SpecFault → String
  | .missingMarker => "missing import marker"
  | .missingModule => "missing module"
  | .notIdentifier value => "'" ++ value ++ "' is not an identifier"
  | .missingName => "missing symbol name"

structure SpecError where
  spec : String
  fault : SpecFault
  deriving DecidableEq

/-- Takes a leading `t:` off a spec and tells whether there was one. -/
def takeTypeMark : List Char → Bool × List Char
  | 't' :: ':' :: rest => (true, rest)
  | cs => (false, cs)

def Symbol.read (cs : List Char) : Except SpecFault Symbol :=
  match cs.dropWhile (!isMarker ·) with
  | [] => .error .missingMarker
  | marker :: specifier =>
    let value := String.ofList ((cs.takeWhile (!isMarker ·)).takeWhile (· != '.'))
    let style := (ImportStyle.ofMarker? marker).getD .named
    if specifier.isEmpty then .error .missingModule
    else if !value.isEmpty && !isIdentifier value then .error (.notIdentifier value)
    else if value.isEmpty && style != .sideEffect then .error .missingName
    else .ok (Symbol.imported style value (String.ofList specifier))

/-- Reads a spec. Of several faults the first is reported, in the order of `SpecFault`. -/
def Symbol.parse (spec : String) : Except SpecError Symbol :=
  let (typeOnly, cs) := takeTypeMark spec.toList
  match Symbol.read cs with
  | .ok s => .ok { s with typeOnly := typeOnly }
  | .error fault => .error ⟨spec, fault⟩

end TypeScriptComposer
