/-!
# Indentation units
-/

set_option autoImplicit false

namespace TypeScriptComposer

inductive Indent where
  | spaces (width : Nat)
  | tab
  deriving DecidableEq, Inhabited

namespace Indent

/-- Tabs win over a width. -/
def ofSettings (width : Nat) (tabs : Bool) : Indent :=
  if tabs then .tab else .spaces width

def standard : Indent := .spaces 2

def unit : Indent → String
  | .spaces width => String.ofList (List.replicate width ' ')
  | .tab => "\t"

def margin (indent : Indent) (level : Nat) : String :=
  String.join (List.replicate level indent.unit)

end Indent

end TypeScriptComposer
