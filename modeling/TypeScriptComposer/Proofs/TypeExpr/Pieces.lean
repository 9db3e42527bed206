import TypeScriptComposer.Proofs.TypeExpr.Induction
import TypeScriptComposer.Proofs.TypeExpr.Spelling

/-!
# The pieces of a type

The text of a type is made of pieces that follow each other: fixed texts, uses of symbols, and the
names of parameters. Which pieces they are depends on the type alone; only the uses of symbols are
spelled as the tracker says. Types with the same pieces print the same text and leave the same
tracker.
-/

set_option autoImplicit false

namespace TypeScriptComposer

inductive Piece where
  | text (s : String)
  | use (usage : String) (s : Symbol)
  /-- The name of a parameter, which a colon follows. -/
  | parameter (name : String)

namespace Piece

def spell (name : Symbol → String) : Piece → List Char
  | .text s => s.toList
  | .use usage s => (useAs (name s) s.value usage).toList
  | .parameter p => p.toList ++ [':', ' ']

def symbols : Piece → List Symbol
  | .use _ s => [s]
  | _ => []

def parameters : Piece → List String
  | .parameter p => [p]
  | _ => []

/-- Items with a text between two of them. -/
def joined (separator : String) (items : List (List Piece)) : List Piece :=
  [.text separator].intercalate items

@[simp] theorem joined_singleton (separator : String) (ps : List Piece) :
    joined separator [ps] = ps := List.intercalate_singleton

@[simp] theorem joined_cons_cons (separator : String) (ps qs : List Piece)
    (items : List (List Piece)) : joined separator (ps :: qs :: items) =
      ps ++ .text separator :: joined separator (qs :: items) := by
  simp [joined, List.intercalate_cons_cons]

/-- Texts and items that correspond to each other, joined with the same separator. -/
theorem spell_joined {name : Symbol → String} (separator : String) {texts : List String}
    {items : List (List Piece)}
    (h : List.Forall₂ (fun s ps => s.toList = ps.flatMap (spell name)) texts items) :
    (separator.intercalate texts).toList = (joined separator items).flatMap (spell name) := by
  induction h with
  | nil => rfl
  | @cons s ps texts items hfirst hrest ih =>
    cases hrest with
    | nil => simpa using hfirst
    | cons _ _ =>
      rw [String.intercalate_cons_cons, joined_cons_cons, String.toList_append,
        String.toList_append, hfirst, ih]
      simp [spell]

theorem symbols_joined (separator : String) (items : List (List Piece)) :
    (joined separator items).flatMap symbols = items.flatten.flatMap symbols := by
  induction items with
  | nil => rfl
  | cons ps items ih =>
    cases items with
    | nil => simp
    | cons qs items =>
      have hflatten : (ps :: qs :: items).flatten = ps ++ (qs :: items).flatten := rfl
      rw [joined_cons_cons, List.flatMap_append, List.flatMap_cons, ih, hflatten,
        List.flatMap_append]
      rfl

end Piece

open Piece

namespace TypeExpr

/-- The pieces of a type that is put in parentheses, or is not. -/
def wrappedIf (wraps : Bool) (ps : List Piece) : List Piece :=
  if wraps then .text "(" :: ps ++ [.text ")"] else ps

mutual

def pieces : TypeExpr → List Piece
  | .named usage none => [.text usage]
  | .named usage (some s) => [.use usage s]
  | .applied base arguments =>
    if arguments.isEmpty then pieces base
    else pieces base ++ .text "<" ::
      joined ", " (piecesOfAll (fun _ => false) arguments) ++ [.text ">"]
  | .typeVar ⟨name, _⟩ => [.text name]
  | .object members =>
    if members.isEmpty then [.text emptyBraces]
    else .text "\x7b " :: joined ", " (piecesOfMembers members) ++ [.text " \x7d"]
  | .tuple members =>
    .text "[" :: joined ", " (piecesOfAll (fun _ => false) members) ++ [.text "]"]
  | .intersection members =>
    if members.isEmpty then [.text "unknown"] else joined " & " (piecesOfAll loosens members)
  | .union members =>
    if members.isEmpty then [.text "never"] else joined " | " (piecesOfAll isFunction members)
  | .function parameters returns =>
    .text "(" :: joined ", " (piecesOfParameters parameters) ++ .text ") => " :: pieces returns

def piecesOfAll (wraps : TypeExpr → Bool) : List TypeExpr → List (List Piece)
  | [] => []
  | t :: ts => wrappedIf (wraps t) (pieces t) :: piecesOfAll wraps ts

def piecesOfMembers : List Member → List (List Piece)
  | [] => []
  | ⟨name, type, optional⟩ :: ms =>
    (.text (name ++ (if optional then "?" else "") ++ ": ") :: pieces type) :: piecesOfMembers ms

def piecesOfParameters : List (String × TypeExpr) → List (List Piece)
  | [] => []
  | (name, type) :: ps => (.parameter name :: pieces type) :: piecesOfParameters ps

end

/-- The parameter names of the function types in a type, in the order in which they are printed.
The bounds of a type variable are not printed with it and do not count. -/
def parameterNames (t : TypeExpr) : List String := t.pieces.flatMap Piece.parameters

variable {name : Symbol → String}

theorem spell_piecesOfAll (wraps : TypeExpr → Bool) {ts : List TypeExpr}
    (h : ∀ t ∈ ts, (t.spell name).toList = t.pieces.flatMap (Piece.spell name)) :
    List.Forall₂ (fun s ps => s.toList = ps.flatMap (Piece.spell name))
      (spellAll name wraps ts) (piecesOfAll wraps ts) := by
  induction ts with
  | nil => exact .nil
  | cons t ts ih =>
    obtain ⟨hfirst, hrest⟩ := List.forall_mem_cons.mp h
    refine .cons ?_ (ih hrest)
    unfold wrappedIf
    split <;> simp [parenthesized, Piece.spell, hfirst]

theorem spell_piecesOfMembers {ms : List Member}
    (h : ∀ m ∈ ms, (m.type.spell name).toList = m.type.pieces.flatMap (Piece.spell name)) :
    List.Forall₂ (fun s ps => s.toList = ps.flatMap (Piece.spell name))
      (spellMembers name ms) (piecesOfMembers ms) := by
  induction ms with
  | nil => exact .nil
  | cons m ms ih =>
    obtain ⟨member, type, optional⟩ := m
    obtain ⟨hfirst, hrest⟩ := List.forall_mem_cons.mp h
    refine .cons ?_ (ih hrest)
    simpa [Piece.spell] using hfirst

theorem spell_piecesOfParameters {ps : List (String × TypeExpr)}
    (h : ∀ p ∈ ps, (p.2.spell name).toList = p.2.pieces.flatMap (Piece.spell name)) :
    List.Forall₂ (fun s qs => s.toList = qs.flatMap (Piece.spell name))
      (spellParameters name ps) (piecesOfParameters ps) := by
  induction ps with
  | nil => exact .nil
  | cons p ps ih =>
    obtain ⟨hfirst, hrest⟩ := List.forall_mem_cons.mp h
    refine .cons ?_ (ih hrest)
    simpa [Piece.spell] using hfirst

/-- The text of a type is made of its pieces. -/
theorem toList_spell (t : TypeExpr) :
    (t.spell name).toList = t.pieces.flatMap (Piece.spell name) := by
  induction t using TypeExpr.induction with
  | named usage s => cases s <;> simp [spell, pieces, Piece.spell]
  | typeVar v =>
    cases v
    simp [spell, pieces, Piece.spell]
  | applied base arguments ihBase ih =>
    have hargs := spell_joined ", " (spell_piecesOfAll (fun _ => false) ih)
    rw [spell, pieces]
    split
    · exact ihBase
    · simp [Piece.spell, ihBase, hargs]
  | object members ih =>
    have hmembers := spell_joined ", " (spell_piecesOfMembers ih)
    rw [spell, pieces]
    split
    · simp [Piece.spell]
    · simp [Piece.spell, braced, hmembers]
  | tuple members ih =>
    have hmembers := spell_joined ", " (spell_piecesOfAll (fun _ => false) ih)
    simp [spell, pieces, Piece.spell, hmembers]
  | intersection members ih =>
    have hmembers := spell_joined " & " (spell_piecesOfAll loosens ih)
    rw [spell, pieces]
    split
    · simp [Piece.spell]
    · exact hmembers
  | union members ih =>
    have hmembers := spell_joined " | " (spell_piecesOfAll isFunction ih)
    rw [spell, pieces]
    split
    · simp [Piece.spell]
    · exact hmembers
  | function parameters returns ih ihReturns =>
    have hparameters := spell_joined ", " (spell_piecesOfParameters ih)
    simp [spell, pieces, parenthesized, Piece.spell, hparameters, ihReturns]

theorem symbols_piecesOfAll (wraps : TypeExpr → Bool) {ts : List TypeExpr}
    (h : ∀ t ∈ ts, t.symbols = t.pieces.flatMap Piece.symbols) :
    symbolsOfAll ts = (piecesOfAll wraps ts).flatten.flatMap Piece.symbols := by
  induction ts with
  | nil => rfl
  | cons t ts ih =>
    obtain ⟨hfirst, hrest⟩ := List.forall_mem_cons.mp h
    rw [symbolsOfAll, piecesOfAll, List.flatten_cons, List.flatMap_append, ih hrest, hfirst]
    unfold wrappedIf
    split <;> simp [Piece.symbols]

theorem symbols_piecesOfMembers {ms : List Member}
    (h : ∀ m ∈ ms, m.type.symbols = m.type.pieces.flatMap Piece.symbols) :
    symbolsOfMembers ms = (piecesOfMembers ms).flatten.flatMap Piece.symbols := by
  induction ms with
  | nil => rfl
  | cons m ms ih =>
    obtain ⟨member, type, optional⟩ := m
    obtain ⟨hfirst, hrest⟩ := List.forall_mem_cons.mp h
    rw [symbolsOfMembers, piecesOfMembers, List.flatten_cons, List.flatMap_append, ih hrest]
    exact congrArg (· ++ _) hfirst

theorem symbols_piecesOfParameters {ps : List (String × TypeExpr)}
    (h : ∀ p ∈ ps, p.2.symbols = p.2.pieces.flatMap Piece.symbols) :
    symbolsOfParameters ps = (piecesOfParameters ps).flatten.flatMap Piece.symbols := by
  induction ps with
  | nil => rfl
  | cons p ps ih =>
    obtain ⟨hfirst, hrest⟩ := List.forall_mem_cons.mp h
    rw [symbolsOfParameters, piecesOfParameters, List.flatten_cons, List.flatMap_append, ih hrest]
    exact congrArg (· ++ _) hfirst

theorem symbols_eq_pieces (t : TypeExpr) : t.symbols = t.pieces.flatMap Piece.symbols := by
  induction t using TypeExpr.induction with
  | named usage s => cases s <;> rfl
  | typeVar v =>
    cases v
    rfl
  | applied base arguments ihBase ih =>
    rw [symbols, pieces, symbols_piecesOfAll (fun _ => false) ih, ihBase]
    cases arguments with
    | nil => simp [piecesOfAll]
    | cons t ts => simp [Piece.symbols, symbols_joined]
  | object members ih =>
    rw [symbols, pieces, symbols_piecesOfMembers ih]
    cases members with
    | nil => simp [piecesOfMembers, Piece.symbols]
    | cons m ms => simp [Piece.symbols, symbols_joined]
  | tuple members ih =>
    rw [symbols, pieces, symbols_piecesOfAll (fun _ => false) ih]
    simp [Piece.symbols, symbols_joined]
  | intersection members ih =>
    rw [symbols, pieces, symbols_piecesOfAll loosens ih]
    cases members with
    | nil => simp [piecesOfAll, Piece.symbols]
    | cons t ts => simp [symbols_joined]
  | union members ih =>
    rw [symbols, pieces, symbols_piecesOfAll isFunction ih]
    cases members with
    | nil => simp [piecesOfAll, Piece.symbols]
    | cons t ts => simp [symbols_joined]
  | function parameters returns ih ihReturns =>
    rw [symbols, pieces, symbols_piecesOfParameters ih, ihReturns]
    simp [Piece.symbols, symbols_joined]

/-- A type prints its pieces, with the names that the tracker gives when it has seen the symbols
among them. -/
theorem print_eq_pieces (t : TypeExpr) (tracker : Tracker) :
    t.print tracker = (String.ofList (t.pieces.flatMap
        (Piece.spell (tracker.registerAll (t.pieces.flatMap Piece.symbols)).nameOf)),
      tracker.registerAll (t.pieces.flatMap Piece.symbols)) := by
  rw [TypeExpr.print_eq [] t tracker, List.append_nil, ← symbols_eq_pieces, ← toList_spell,
    String.ofList_toList]

end TypeExpr

end TypeScriptComposer
