import TypeScriptComposer.Text.Braced
import TypeScriptComposer.Tracker

/-!
# The import block

The imports of a file, grouped by module, and the statements that make them. A module is
loaded by any statement that binds a symbol of it; one without a symbol gets a bare import.
-/

set_option autoImplicit false

namespace TypeScriptComposer

structure ModuleImports where
  module : String
  stars : List ImportEntry
  defaults : List ImportEntry
  named : List ImportEntry
  deriving DecidableEq

namespace ModuleImports

/-- The entries of `module` among `entries`, by style and otherwise in their order. -/
def ofEntries (module : String) (entries : List ImportEntry) : ModuleImports where
  module := module
  stars := entries.filter fun e => e.module == module && e.style == .star
  defaults := entries.filter fun e => e.module == module && e.style == .default
  named := entries.filter fun e => e.module == module && e.style == .named

def entries (g : ModuleImports) : List ImportEntry := g.stars ++ g.defaults ++ g.named

end ModuleImports

structure ImportItem where
  name : String
  localName : String
  typeOnly : Bool
  deriving DecidableEq

namespace ImportItem

def text (i : ImportItem) : String :=
  (if i.typeOnly then "type " else "") ++
    if i.localName = i.name then i.name else i.name ++ " as " ++ i.localName

end ImportItem

inductive ImportClause where
  | nothing
  | star (typeOnly : Bool) (localName : String)
  | default (typeOnly : Bool) (localName : String)
  | named (typeOnly : Bool) (items : List ImportItem)
  | defaultAndNamed (localName : String) (items : List ImportItem)
  deriving DecidableEq

namespace ImportClause

def typeMark (typeOnly : Bool) : String := if typeOnly then "type " else ""

def text : ImportClause → String
  | .nothing => ""
  | .star typeOnly localName => typeMark typeOnly ++ "* as " ++ localName ++ " from "
  | .default typeOnly localName => typeMark typeOnly ++ localName ++ " from "
  | .named typeOnly items => typeMark typeOnly ++ braced (items.map (·.text)) ++ " from "
  | .defaultAndNamed localName items =>
    localName ++ ", " ++ braced (items.map (·.text)) ++ " from "

end ImportClause

structure ImportStatement where
  clause : ImportClause
  module : String
  deriving DecidableEq

def ImportStatement.text (quote : Quote) (s : ImportStatement) : String :=
  "import " ++ s.clause.text ++ quote.wrap s.module ++ ";"

namespace ModuleImports

def markedItem (e : ImportEntry) : ImportItem := ⟨e.name, e.localName, e.typeOnly⟩

def plainItem (e : ImportEntry) : ImportItem := ⟨e.name, e.localName, false⟩

/-- The clause for the named entries alone: when all are types, the statement says so once. -/
def namedClause (named : List ImportEntry) : ImportClause :=
  if named.all (·.typeOnly) then .named true (named.map plainItem)
  else .named false (named.map markedItem)

/-- The clauses for default and named entries: the first default shares a statement with the named
entries, and every further default has one of its own. -/
def defaultClauses : List ImportEntry → List ImportEntry → List ImportClause
  | [], [] => []
  | [], named => [namedClause named]
  | d :: more, [] => (d :: more).map fun e => .default e.typeOnly e.localName
  | d :: more, named =>
    .defaultAndNamed d.localName (named.map markedItem) ::
      more.map fun e => .default e.typeOnly e.localName

def clauses (g : ModuleImports) : List ImportClause :=
  let binding := (g.stars.map fun e => .star e.typeOnly e.localName) ++
    defaultClauses g.defaults g.named
  if binding.isEmpty then [.nothing] else binding

def statements (g : ModuleImports) : List ImportStatement := g.clauses.map (⟨·, g.module⟩)

end ModuleImports

structure ImportBlock where
  groups : List ModuleImports
  quote : Quote
  deriving DecidableEq

namespace ImportBlock

def ofTracker (t : Tracker) (quote : Quote) : ImportBlock where
  groups := t.modules.map fun m => .ofEntries m t.imports
  quote := quote

def entries (b : ImportBlock) : List ImportEntry := b.groups.flatMap (·.entries)

def modules (b : ImportBlock) : List String := b.groups.map (·.module)

def size (b : ImportBlock) : Nat := b.groups.length

def isEmpty (b : ImportBlock) : Bool := b.groups.isEmpty

def statements (b : ImportBlock) : List ImportStatement := b.groups.flatMap (·.statements)

def lines (b : ImportBlock) : List String := b.statements.map (·.text b.quote)

def text (b : ImportBlock) : String := String.join (b.lines.map (· ++ "\n"))

@[simp] theorem modules_ofTracker (t : Tracker) (quote : Quote) :
    (ofTracker t quote).modules = t.modules := by
  simp [modules, ofTracker, ModuleImports.ofEntries, Function.comp_def]

end ImportBlock

end TypeScriptComposer
