import TypeScriptComposer.Layout.Indent

/-!
# Settings of a render
-/

set_option autoImplicit false

namespace TypeScriptComposer

inductive Quote where
  | double
  | single
  deriving DecidableEq, Inhabited

namespace Quote

def mark : Quote → String
  | .double => "\""
  | .single => "'"

/-- A text between quotes. Nothing inside is escaped. -/
def wrap (q : Quote) (text : String) : String := q.mark ++ text ++ q.mark

end Quote

structure Settings where
  indentWidth : Nat
  tabs : Bool
  quote : Quote
  /-- The module that is being written; what it exports is never imported. -/
  modulePath : Option String
  reservedWords : List String
  trailingNewline : Bool
  deriving DecidableEq

namespace Settings

def standard : Settings where
  indentWidth := 2
  tabs := false
  quote := .double
  modulePath := none
  reservedWords := []
  trailingNewline := true

def typeScriptWords : List String :=
  ["break", "case", "catch", "class", "const", "continue", "debugger", "default", "delete", "do",
   "else", "enum", "export", "extends", "false", "finally", "for", "function", "if", "import", "in",
   "instanceof", "new", "null", "return", "super", "switch", "this", "throw", "true", "try",
   "typeof", "var", "void", "while", "with"]

def typeScript : Settings := { standard with reservedWords := typeScriptWords }

def indent (s : Settings) : Indent := .ofSettings s.indentWidth s.tabs

end Settings

end TypeScriptComposer
