/-!
# Braces

The texts in which TypeScript's curly brackets occur: the opening and the closing of a block, and
a list of items in braces, as object types and named imports have it.
-/

set_option autoImplicit false

namespace TypeScriptComposer

def blockOpening : String := " \x7b\n"

def blockClosing : String := "\x7d"

/-- Items in braces, with a comma between two of them and a blank inside each brace. -/
def braced (items : List String) : String :=
  "\x7b " ++ ", ".intercalate items ++ " \x7d"

def emptyBraces : String := "\x7b\x7d"

end TypeScriptComposer
