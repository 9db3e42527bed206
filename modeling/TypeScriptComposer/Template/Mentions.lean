import TypeScriptComposer.Template
import TypeScriptComposer.TypeExpr.Symbols

/-!
# What a template mentions

The symbols, the used outputs and the declaration sites that stand anywhere in a template, each in
the order of writing and with repetitions. The declarations of the outputs do not count.
-/

set_option autoImplicit false

namespace TypeScriptComposer

mutual

def Part.symbols : Part → List Symbol
  | .type t => t.symbols
  | .symbol s => [s]
  | .nested parts => Template.symbols parts
  | .list items _ => Template.symbols items
  | _ => []

def Template.symbols : List Part → List Symbol
  | [] => []
  | p :: ps => p.symbols ++ Template.symbols ps

end

mutual

def Part.references : Part → List OutputId
  | .reference o => [o]
  | .usage o => [o]
  | .nested parts => Template.references parts
  | .list items _ => Template.references items
  | _ => []

def Template.references : List Part → List OutputId
  | [] => []
  | p :: ps => p.references ++ Template.references ps

end

mutual

def Part.sites : Part → List OutputId
  | .declaration o => [o]
  | .nested parts => Template.sites parts
  | .list items _ => Template.sites items
  | _ => []

def Template.sites : List Part → List OutputId
  | [] => []
  | p :: ps => p.sites ++ Template.sites ps

end

end TypeScriptComposer
