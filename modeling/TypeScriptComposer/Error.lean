import TypeScriptComposer.Symbol.Spec

/-!
# Errors

Everything that can go wrong, by its cause, and the texts that report it.
-/

set_option autoImplicit false

namespace TypeScriptComposer

inductive Error where
  /-- A declaration that is going to be written uses itself; `path` gives the labels from use to
  use and ends where it starts. -/
  | cycle (name : String) (path : List String)
  | invalidSpec (error : SpecError)
  | unreadable (path : String)
  | malformedSettings
  deriving DecidableEq

namespace Error

def message : Error → String
  | .cycle name path =>
    "conditional output '" ++ name ++ "' references itself (" ++ " -> ".intercalate path ++ ")"
  | .invalidSpec error => "invalid import spec '" ++ error.spec ++ "': " ++ error.fault.reason
  | .unreadable path => "failed to read '" ++ path ++ "'"
  | .malformedSettings => "failed to parse render configuration"

def code? : Error → Option String
  | .cycle .. => some "tspoet::conditional_cycle"
  | .invalidSpec _ => some "tspoet::invalid_import_spec"
  | .unreadable _ => none
  | .malformedSettings => some "tspoet::config_parse"

def help? : Error → Option String
  | .cycle .. => some "a declaration body must not use the conditional output it declares"
  | .invalidSpec _ => some "use 'Name@module', 'Name=module', 'Name*module' or '+module'"
  | .unreadable _ => none
  | .malformedSettings => none

def isCycle : Error → Bool
  | .cycle .. => true
  | _ => false

end Error

end TypeScriptComposer
