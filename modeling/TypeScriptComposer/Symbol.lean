/-!
# Symbols

A symbol is a name that a template can mention: one that another module exports, or one that the
file being written declares itself. Two symbols are the same when origin and name agree; how a
symbol is imported, under which name, and whether only as a type, is not part of its identity.
-/

set_option autoImplicit false

namespace TypeScriptComposer

def startsIdentifier (c : Char) : Bool :=
  c.isAlpha || c == '_' || c == '$'

def continuesIdentifier (c : Char) : Bool :=
  startsIdentifier c || c.isDigit

/-- Whether `name` is an identifier; letters outside ASCII are not admitted. -/
def isIdentifier (name : String) : Bool :=
  match name.toList with
  | [] => false
  | c :: cs => startsIdentifier c && cs.all continuesIdentifier

inductive ImportStyle where
  | named
  | default
  | star
  /-- Nothing is bound, the module is only loaded. -/
  | sideEffect
  deriving DecidableEq, Inhabited

inductive Origin where
  | module (specifier : String)
  | thisFile
  deriving DecidableEq, Inhabited

namespace Origin

def label : Origin → String
  | .module specifier => specifier
  | .thisFile => "<local>"

def module? : Origin → Option String
  | .module specifier => some specifier
  | .thisFile => none

/-- Modules come first, by their specifiers in code point order. -/
def compare : Origin → Origin → Ordering
  | .module a, .module b => Ord.compare a b
  | .module _, .thisFile => .lt
  | .thisFile, .module _ => .gt
  | .thisFile, .thisFile => .eq

end Origin

structure SymbolId where
  origin : Origin
  name : String
  deriving DecidableEq, Inhabited

def SymbolId.compare (a b : SymbolId) : Ordering :=
  (a.origin.compare b.origin).then (Ord.compare a.name b.name)

structure Symbol where
  value : String
  origin : Origin
  style : ImportStyle
  requestedName : Option String
  typeOnly : Bool
  /-- The module that really declares the symbol, when its origin only exports it again. -/
  definedIn : Option String
  deriving DecidableEq, Inhabited

namespace Symbol

def imported (style : ImportStyle) (value specifier : String) : Symbol where
  value := value
  origin := .module specifier
  style := style
  requestedName := none
  typeOnly := false
  definedIn := none

def named (value specifier : String) : Symbol := imported .named value specifier

def defaultExport (value specifier : String) : Symbol := imported .default value specifier

def star (value specifier : String) : Symbol := imported .star value specifier

def sideEffect (specifier : String) : Symbol := imported .sideEffect "" specifier

def declared (value : String) : Symbol where
  value := value
  origin := .thisFile
  style := .named
  requestedName := none
  typeOnly := false
  definedIn := none

def withName (s : Symbol) (name : String) : Symbol := { s with requestedName := some name }

def asType (s : Symbol) : Symbol := { s with typeOnly := true }

def withDefinition (s : Symbol) (specifier : String) : Symbol :=
  { s with definedIn := some specifier }

def id (s : Symbol) : SymbolId := ⟨s.origin, s.value⟩

def module? (s : Symbol) : Option String := s.origin.module?

def isLocal (s : Symbol) : Bool := s.origin == .thisFile

end Symbol

end TypeScriptComposer
