import TypeScriptComposer.Proofs.Tracker.Register
import TypeScriptComposer.TypeExpr.Print
import TypeScriptComposer.TypeExpr.Symbols

/-!
# Spelling types under one naming

Printing a type changes the tracker at each of its symbols, so that the names it uses come from many
trackers. Since a symbol keeps its name, the text is the same as if every name came from any later
tracker: a type is spelled under one naming, and the tracker has seen the symbols of the type, from
left to right, and nothing else.
-/

set_option autoImplicit false

namespace TypeScriptComposer

mutual

/-- The text of a type whose symbols have the names that `name` gives. -/
def TypeExpr.spell (name : Symbol → String) : TypeExpr → String
  | .named usage none => usage
  | .named usage (some s) => useAs (name s) s.value usage
  | .applied base arguments =>
    let texts := TypeExpr.spellAll name (fun _ => false) arguments
    if arguments.isEmpty then base.spell name
    else base.spell name ++ "<" ++ ", ".intercalate texts ++ ">"
  | .typeVar ⟨parameter, _⟩ => parameter
  | .object members =>
    if members.isEmpty then emptyBraces else braced (TypeExpr.spellMembers name members)
  | .tuple members =>
    "[" ++ ", ".intercalate (TypeExpr.spellAll name (fun _ => false) members) ++ "]"
  | .intersection members =>
    if members.isEmpty then "unknown"
    else " & ".intercalate (TypeExpr.spellAll name TypeExpr.loosens members)
  | .union members =>
    if members.isEmpty then "never"
    else " | ".intercalate (TypeExpr.spellAll name TypeExpr.isFunction members)
  | .function parameters returns =>
    parenthesized (", ".intercalate (TypeExpr.spellParameters name parameters)) ++ " => " ++
      returns.spell name

def TypeExpr.spellAll (name : Symbol → String) (wraps : TypeExpr → Bool) :
    List TypeExpr → List String
  | [] => []
  | t :: ts =>
    (if wraps t then parenthesized (t.spell name) else t.spell name) ::
      TypeExpr.spellAll name wraps ts

def TypeExpr.spellMembers (name : Symbol → String) : List Member → List String
  | [] => []
  | ⟨member, type, optional⟩ :: ms =>
    (member ++ (if optional then "?" else "") ++ ": " ++ type.spell name) ::
      TypeExpr.spellMembers name ms

def TypeExpr.spellParameters (name : Symbol → String) : List (String × TypeExpr) → List String
  | [] => []
  | (parameter, type) :: ps =>
    (parameter ++ ": " ++ type.spell name) :: TypeExpr.spellParameters name ps

end

theorem TypeExpr.spell_ofSymbol (name : Symbol → String) {s : Symbol} (h : s.value ≠ "") :
    (TypeExpr.ofSymbol s).spell name = name s := by
  have hself : s.value.toList.isPrefixOf s.value.toList = true := by
    simp [List.isPrefixOf_iff_prefix]
  simp [TypeExpr.ofSymbol, TypeExpr.spell, useAs, h, hself]

mutual

/-- The text and the tracker that printing a type ends with, `more` being registered later. -/
theorem TypeExpr.print_eq (more : List Symbol) : ∀ (t : TypeExpr) (tracker : Tracker),
    t.print tracker = (t.spell (tracker.registerAll (t.symbols ++ more)).nameOf,
      tracker.registerAll t.symbols)
  | .named usage none, tracker => by
    simp [TypeExpr.print, TypeExpr.spell, TypeExpr.symbols]
  | .named usage (some s), tracker => by
    simp only [TypeExpr.print, TypeExpr.spell, TypeExpr.symbols, Option.toList_some,
      List.singleton_append, Tracker.nameOf_registerAll]
    rfl
  | .applied base arguments, tracker => by
    have hbase := TypeExpr.print_eq (TypeExpr.symbolsOfAll arguments ++ more) base tracker
    have hargs := TypeExpr.printAll_eq more (fun _ => false) arguments
      (tracker.registerAll base.symbols)
    simp only [TypeExpr.print, TypeExpr.spell, TypeExpr.symbols, hbase, hargs,
      ← Tracker.registerAll_append, List.append_assoc]
  | .typeVar ⟨name, bounds⟩, tracker => by
    simp [TypeExpr.print, TypeExpr.spell, TypeExpr.symbols]
  | .object members, tracker => by
    simp only [TypeExpr.print, TypeExpr.spell, TypeExpr.symbols,
      TypeExpr.printMembers_eq more members tracker]
  | .tuple members, tracker => by
    simp only [TypeExpr.print, TypeExpr.spell, TypeExpr.symbols,
      TypeExpr.printAll_eq more _ members tracker]
  | .intersection members, tracker => by
    simp only [TypeExpr.print, TypeExpr.spell, TypeExpr.symbols,
      TypeExpr.printAll_eq more _ members tracker]
  | .union members, tracker => by
    simp only [TypeExpr.print, TypeExpr.spell, TypeExpr.symbols,
      TypeExpr.printAll_eq more _ members tracker]
  | .function parameters returns, tracker => by
    have hparams := TypeExpr.printParameters_eq (returns.symbols ++ more) parameters tracker
    have hreturns := TypeExpr.print_eq more returns
      (tracker.registerAll (TypeExpr.symbolsOfParameters parameters))
    simp only [TypeExpr.print, TypeExpr.spell, TypeExpr.symbols, hparams, hreturns,
      ← Tracker.registerAll_append, List.append_assoc]

theorem TypeExpr.printAll_eq (more : List Symbol) (wraps : TypeExpr → Bool) :
    ∀ (ts : List TypeExpr) (tracker : Tracker),
    TypeExpr.printAll wraps ts tracker =
      (TypeExpr.spellAll (tracker.registerAll (TypeExpr.symbolsOfAll ts ++ more)).nameOf wraps ts,
        tracker.registerAll (TypeExpr.symbolsOfAll ts))
  | [], tracker => by simp [TypeExpr.printAll, TypeExpr.spellAll, TypeExpr.symbolsOfAll]
  | t :: ts, tracker => by
    have hfirst := TypeExpr.print_eq (TypeExpr.symbolsOfAll ts ++ more) t tracker
    have hrest := TypeExpr.printAll_eq more wraps ts (tracker.registerAll t.symbols)
    simp only [TypeExpr.printAll, TypeExpr.spellAll, TypeExpr.symbolsOfAll, hfirst, hrest,
      ← Tracker.registerAll_append, List.append_assoc]

theorem TypeExpr.printMembers_eq (more : List Symbol) :
    ∀ (ms : List Member) (tracker : Tracker),
    TypeExpr.printMembers ms tracker =
      (TypeExpr.spellMembers (tracker.registerAll (TypeExpr.symbolsOfMembers ms ++ more)).nameOf ms,
        tracker.registerAll (TypeExpr.symbolsOfMembers ms))
  | [], tracker => by simp [TypeExpr.printMembers, TypeExpr.spellMembers, TypeExpr.symbolsOfMembers]
  | ⟨name, type, optional⟩ :: ms, tracker => by
    have hfirst := TypeExpr.print_eq (TypeExpr.symbolsOfMembers ms ++ more) type tracker
    have hrest := TypeExpr.printMembers_eq more ms (tracker.registerAll type.symbols)
    simp only [TypeExpr.printMembers, TypeExpr.spellMembers, TypeExpr.symbolsOfMembers, hfirst,
      hrest, ← Tracker.registerAll_append, List.append_assoc]

theorem TypeExpr.printParameters_eq (more : List Symbol) :
    ∀ (ps : List (String × TypeExpr)) (tracker : Tracker),
    TypeExpr.printParameters ps tracker =
      (TypeExpr.spellParameters
          (tracker.registerAll (TypeExpr.symbolsOfParameters ps ++ more)).nameOf ps,
        tracker.registerAll (TypeExpr.symbolsOfParameters ps))
  | [], tracker => by
    simp [TypeExpr.printParameters, TypeExpr.spellParameters, TypeExpr.symbolsOfParameters]
  | (name, type) :: ps, tracker => by
    have hfirst := TypeExpr.print_eq (TypeExpr.symbolsOfParameters ps ++ more) type tracker
    have hrest := TypeExpr.printParameters_eq more ps (tracker.registerAll type.symbols)
    simp only [TypeExpr.printParameters, TypeExpr.spellParameters, TypeExpr.symbolsOfParameters,
      hfirst, hrest, ← Tracker.registerAll_append, List.append_assoc]

end

end TypeScriptComposer
