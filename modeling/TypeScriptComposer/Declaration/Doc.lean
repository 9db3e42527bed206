import TypeScriptComposer.Template
import TypeScriptComposer.Text.Lines

/-!
# Doc comments
-/

set_option autoImplicit false

namespace TypeScriptComposer

def trimBreaks (s : String) : List Char := (s.toList.reverse.dropWhile (· == '\n')).reverse

def docLine (l : List Char) : String :=
  if l.isEmpty then " *\n" else " * " ++ String.ofList l ++ "\n"

def docText (cs : List Char) : String :=
  "/**\n" ++ String.join ((dropReturns (lines cs)).map docLine) ++ " */\n"

/-- The doc comment of a declaration; nothing is written for a text of line breaks alone. -/
def docComment (doc : Option String) : Template :=
  match doc.map trimBreaks with
  | none | some [] => []
  | some cs => [.text (docText cs)]

end TypeScriptComposer
