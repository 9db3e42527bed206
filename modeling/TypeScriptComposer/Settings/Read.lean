import TypeScriptComposer.Error
import TypeScriptComposer.Folder
import TypeScriptComposer.Settings
import TypeScriptComposer.Settings.Document

/-!
# Reading settings

Every setting is optional in a settings document, and a key that is no setting is refused. The
quote is a word, or a table that has this word as its only key, with nothing under it.
-/

set_option autoImplicit false

namespace TypeScriptComposer

namespace Quote

def ofWord? (word : String) : Option Quote :=
  if word = "double" then some .double
  else if word = "single" then some .single
  else none

def ofValue? : Document.Value → Option Quote
  | .text word => ofWord? word
  | .table _ [(word, .table _ [])] => ofWord? word
  | .table _ [(word, .array [])] => ofWord? word
  | _ => none

end Quote

namespace Settings

def maxIndentWidth : Nat := 255

def width? : Document.Value → Option Nat
  | .integer (.ofNat n) => if n ≤ maxIndentWidth then some n else none
  | _ => none

def flag? : Document.Value → Option Bool
  | .boolean b => some b
  | _ => none

def text? : Document.Value → Option String
  | .text s => some s
  | _ => none

def texts? : Document.Value → Option (List String)
  | .array items => items.mapM text?
  | _ => none

def apply (s : Settings) (key : String) (value : Document.Value) : Option Settings :=
  match key with
  | "indent" => (width? value).map fun n => { s with indentWidth := n }
  | "tabs" => (flag? value).map fun b => { s with tabs := b }
  | "quote" => (Quote.ofValue? value).map fun q => { s with quote := q }
  | "module-path" => (text? value).map fun path => { s with modulePath := some path }
  | "reserved-words" => (texts? value).map fun words => { s with reservedWords := words }
  | "trailing-newline" => (flag? value).map fun b => { s with trailingNewline := b }
  | _ => none

def ofEntries? (entries : Document.Entries) : Option Settings :=
  entries.foldlM (fun s e => s.apply e.1 e.2) standard

def ofDocument (source : String) : Except Error Settings :=
  match (Document.read source).bind ofEntries? with
  | some s => .ok s
  | none => .error .malformedSettings

def ofFile (folder : Folder) (directory path : String) : Except Error Settings :=
  let location := Path.join directory path
  match if Path.fits location then folder.readText? path else none with
  | some source => ofDocument source
  | none => .error (.unreadable location)

end Settings

end TypeScriptComposer
