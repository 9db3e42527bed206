import TypeScriptComposer.Text.Braced
import TypeScriptComposer.Tracker
import TypeScriptComposer.TypeExpr

/-!
# Printing types

A type is printed against a tracker, which gives the name of each symbol and notes its use. Symbols
are met from left to right. A function type is put in parentheses inside a union or an
intersection, and a union of several types inside an intersection.
-/

set_option autoImplicit false

namespace TypeScriptComposer

/-- A use of a symbol printed as `name`: the usage with `name` for the symbol's value, when the
usage is that value, alone or with a dot behind it; any other usage stays as it is. -/
def useAs (name value usage : String) : String :=
  if value.isEmpty || !value.toList.isPrefixOf usage.toList then usage
  else
    match usage.toList.drop value.toList.length with
    | [] => name
    | c :: rest => if c == '.' then name ++ String.ofList (c :: rest) else usage

def parenthesized (text : String) : String := "(" ++ text ++ ")"

def TypeExpr.loosens (t : TypeExpr) : Bool := t.isFunction || t.isProperUnion

mutual

def TypeExpr.print : TypeExpr → Tracker → String × Tracker
  | .named usage none, tracker => (usage, tracker)
  | .named usage (some s), tracker =>
    let (name, tracker) := tracker.register s
    (useAs name s.value usage, tracker)
  | .applied base arguments, tracker =>
    let (head, tracker) := base.print tracker
    let (texts, tracker) := TypeExpr.printAll (fun _ => false) arguments tracker
    (if arguments.isEmpty then head else head ++ "<" ++ ", ".intercalate texts ++ ">", tracker)
  | .typeVar ⟨name, _⟩, tracker => (name, tracker)
  | .object members, tracker =>
    let (texts, tracker) := TypeExpr.printMembers members tracker
    (if members.isEmpty then emptyBraces else braced texts, tracker)
  | .tuple members, tracker =>
    let (texts, tracker) := TypeExpr.printAll (fun _ => false) members tracker
    ("[" ++ ", ".intercalate texts ++ "]", tracker)
  | .intersection members, tracker =>
    let (texts, tracker) := TypeExpr.printAll TypeExpr.loosens members tracker
    (if members.isEmpty then "unknown" else " & ".intercalate texts, tracker)
  | .union members, tracker =>
    let (texts, tracker) := TypeExpr.printAll TypeExpr.isFunction members tracker
    (if members.isEmpty then "never" else " | ".intercalate texts, tracker)
  | .function parameters returns, tracker =>
    let (texts, tracker) := TypeExpr.printParameters parameters tracker
    let (result, tracker) := returns.print tracker
    (parenthesized (", ".intercalate texts) ++ " => " ++ result, tracker)

/-- The texts of several types, in parentheses where `wraps` says so. -/
def TypeExpr.printAll (wraps : TypeExpr → Bool) :
    List TypeExpr → Tracker → List String × Tracker
  | [], tracker => ([], tracker)
  | t :: ts, tracker =>
    let (text, tracker) := t.print tracker
    let (texts, tracker) := TypeExpr.printAll wraps ts tracker
    ((if wraps t then parenthesized text else text) :: texts, tracker)

def TypeExpr.printMembers : List Member → Tracker → List String × Tracker
  | [], tracker => ([], tracker)
  | ⟨name, type, optional⟩ :: ms, tracker =>
    let (text, tracker) := type.print tracker
    let (texts, tracker) := TypeExpr.printMembers ms tracker
    ((name ++ (if optional then "?" else "") ++ ": " ++ text) :: texts, tracker)

def TypeExpr.printParameters :
    List (String × TypeExpr) → Tracker → List String × Tracker
  | [], tracker => ([], tracker)
  | (name, type) :: ps, tracker =>
    let (text, tracker) := type.print tracker
    let (texts, tracker) := TypeExpr.printParameters ps tracker
    ((name ++ ": " ++ text) :: texts, tracker)

end

end TypeScriptComposer
