import TypeScriptComposer.Settings
import TypeScriptComposer.Symbol

/-!
# The tracker

A tracker gives every symbol that a file mentions the name that the file prints for it. Names the
file declares itself keep their own text; an imported symbol gets the name it asks for, or that
name with the least number that makes it free. A symbol keeps the name it was given first.

The tracker knows the names in use from two lists, the declared names and the import entries;
`isTaken`, `nameOf?` and `owner?` are views of them.
-/

set_option autoImplicit false

namespace TypeScriptComposer

structure ImportEntry where
  module : String
  name : String
  localName : String
  style : ImportStyle
  /-- Whether every use so far needs the symbol as a type only. -/
  typeOnly : Bool
  deriving DecidableEq

namespace ImportEntry

def isRenamed (e : ImportEntry) : Bool := e.localName != e.name

def id (e : ImportEntry) : SymbolId := ⟨.module e.module, e.name⟩

end ImportEntry

structure Tracker where
  /-- Names declared by the file, in the order in which they were claimed. -/
  declared : List String
  imports : List ImportEntry
  /-- Modules in the order of their first use, those loaded for side effects included. -/
  modules : List String
  reserved : List String
  ownModule : Option String
  deriving DecidableEq

namespace Tracker

def ofSettings (s : Settings) : Tracker where
  declared := []
  imports := []
  modules := []
  reserved := s.reservedWords
  ownModule := s.modulePath

def isEmpty (t : Tracker) : Bool := t.modules.isEmpty

def entry? (t : Tracker) (id : SymbolId) : Option ImportEntry :=
  t.imports.find? (·.id == id)

def nameOf? (t : Tracker) (id : SymbolId) : Option String :=
  match id.origin with
  | .thisFile => if t.declared.contains id.name then some id.name else none
  | .module _ => (t.entry? id).map (·.localName)

def owner? (t : Tracker) (name : String) : Option SymbolId :=
  if t.declared.contains name then some ⟨.thisFile, name⟩
  else (t.imports.find? (·.localName == name)).map (·.id)

def isTaken (t : Tracker) (name : String) : Bool := (t.owner? name).isSome

def isFree (t : Tracker) (name : String) : Bool :=
  !t.isTaken name && !t.reserved.contains name

/-- The names that are in use or reserved. -/
def unavailable (t : Tracker) : List String :=
  t.declared ++ t.imports.map (·.localName) ++ t.reserved

def numbered (name : String) (n : Nat) : String := name ++ n.repr

/-- `preferred` if it is free, and otherwise the first free one of its numbered forms. One of the
first `unavailable.length + 1` numbers is always free, so the search stops there. -/
def freeName (t : Tracker) (preferred : String) : String :=
  if t.isFree preferred then preferred
  else
    (((List.range (t.unavailable.length + 1)).map fun i => numbered preferred (i + 1)).find?
      t.isFree).getD preferred

/-- Claims a name for a declaration of the file. The answer is `false` when an import has the
name already; the name then stays with the import. -/
def define (t : Tracker) (name : String) : Bool × Tracker :=
  match t.owner? name with
  | some id => (id == ⟨.thisFile, name⟩, t)
  | none => (true, { t with declared := t.declared ++ [name] })

def addModule (t : Tracker) (specifier : String) : Tracker :=
  if t.modules.contains specifier then t
  else { t with modules := t.modules ++ [specifier] }

def needValue (t : Tracker) (id : SymbolId) : Tracker :=
  { t with imports := t.imports.map fun e => if e.id = id then { e with typeOnly := false } else e }

/-- Whether the file being written is the module that exports or declares `s`. -/
def isOwn (t : Tracker) (s : Symbol) : Bool :=
  match t.ownModule with
  | none => false
  | some path => s.module? == some path || s.definedIn == some path

/-- Whether `s` is declared in the file, so that it prints as its own value and is not imported. -/
def declares (t : Tracker) (s : Symbol) : Bool :=
  s.isLocal || (s.style != .sideEffect && t.isOwn s)

def addImport (t : Tracker) (specifier : String) (s : Symbol) : String × Tracker :=
  let localName := t.freeName (s.requestedName.getD s.value)
  let entry : ImportEntry := ⟨specifier, s.value, localName, s.style, s.typeOnly⟩
  let noted := t.addModule specifier
  (localName, { noted with imports := noted.imports ++ [entry] })

def register (t : Tracker) (s : Symbol) : String × Tracker :=
  match s.origin with
  | .thisFile => (s.value, (t.define s.value).2)
  | .module specifier =>
    if s.style = .sideEffect then (s.value, t.addModule specifier)
    else if t.isOwn s then (s.value, (t.define s.value).2)
    else match t.entry? s.id with
      | some e => (e.localName, if s.typeOnly then t else t.needValue s.id)
      | none => t.addImport specifier s

inductive Operation where
  | define (name : String)
  | register (s : Symbol)
  deriving DecidableEq

def step (t : Tracker) : Operation → Tracker
  | .define name => (t.define name).2
  | .register s => (t.register s).2

def run (t : Tracker) (operations : List Operation) : Tracker := operations.foldl step t

end Tracker

end TypeScriptComposer
