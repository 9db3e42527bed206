import TypeScriptComposer.Text.Pieces

/-!
# Lines

A text as its lines: what stands between line breaks.
-/

set_option autoImplicit false

namespace TypeScriptComposer

def lines (cs : List Char) : List (List Char) := pieces '\n' cs

def dropReturn (l : List Char) : List Char :=
  if l.getLast? = some '\r' then l.dropLast else l

/-- Takes the carriage return off every line that a break follows. -/
def dropReturns : List (List Char) → List (List Char)
  | [] => []
  | [l] => [l]
  | l :: ls => dropReturn l :: dropReturns ls

end TypeScriptComposer
