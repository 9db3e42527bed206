import TypeScriptComposer.Decimal.Shortest
import TypeScriptComposer.Template

/-!
# Values as text

Parts for values that are written as literals.
-/

set_option autoImplicit false

namespace TypeScriptComposer

namespace Part

def ofChar (c : Char) : Part := .text (String.singleton c)

def ofBool (b : Bool) : Part := .text (if b then "true" else "false")

def ofInt : Int → Part
  | .ofNat n => .text n.repr
  | .negSucc n => .text ("-" ++ (n + 1).repr)

/-- The shortest decimal that reads back as the double with these bits. -/
def ofDouble (bits : UInt64) : Part := .text (Double.ofBits bits).text

def ofItems (items : List Part) : Part := .list items ""

end Part

def Template.line (s : String) : Template := [.text (s ++ "\n")]

end TypeScriptComposer
