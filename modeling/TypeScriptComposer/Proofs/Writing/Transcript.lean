import TypeScriptComposer.Context

/-!
# Transcripts

A transcript is what a template writes when nothing is laid out: the texts, the printed types and
symbols, the labels of used outputs, the separators of lists and the declarations that are due,
one behind the other. Names and outputs are treated as in a render, and nothing is indented.
-/

set_option autoImplicit false

namespace TypeScriptComposer

mutual

def Part.weight : Part → Nat
  | .nested parts => 1 + Template.weight parts
  | .list items _ => 1 + 2 * Template.weight items
  | _ => 1

def Template.weight : List Part → Nat
  | [] => 0
  | p :: ps => p.weight + Template.weight ps

end

theorem Part.weight_pos (p : Part) : 0 < p.weight := by
  cases p <;> simp only [Part.weight] <;> omega

namespace Template

@[simp] theorem weight_append (a b : List Part) : weight (a ++ b) = weight a + weight b := by
  induction a with
  | nil => simp [weight]
  | cons p ps ih => simp [weight, ih, Nat.add_assoc]

theorem intersperse_cons (separator p : Part) (ps : List Part) :
    (p :: ps).intersperse separator = p :: ps.flatMap fun q => [separator, q] := by
  induction ps generalizing p with
  | nil => rfl
  | cons q ps ih => rw [List.intersperse_cons_cons, ih, List.flatMap_cons]; rfl

/-- Separators at most double the weight of a list. -/
theorem weight_intersperse_text_le (separator : String) (items : List Part) :
    weight (items.intersperse (.text separator)) ≤ 2 * weight items := by
  have hrest (ps : List Part) :
      weight (ps.flatMap fun q => [.text separator, q]) ≤ 2 * weight ps := by
    induction ps with
    | nil => simp [weight]
    | cons q ps ih =>
      have hq := q.weight_pos
      simp only [List.flatMap_cons, weight_append, weight, Part.weight]
      omega
  cases items with
  | nil => simp [weight]
  | cons p ps =>
    have hps := hrest ps
    rw [intersperse_cons, weight, weight]
    omega

end Template

structure Transcript where
  tracker : Tracker
  registry : Registry
  text : String

namespace Transcript

def write (x : Transcript) (s : String) : Transcript := { x with text := x.text ++ s }

def printType (x : Transcript) (t : TypeExpr) : Transcript :=
  let (text, tracker) := t.print x.tracker
  { x with tracker := tracker, text := x.text ++ text }

def printSymbol (x : Transcript) (s : Symbol) : Transcript :=
  let (text, tracker) := x.tracker.register s
  { x with tracker := tracker, text := x.text ++ text }

def reference (x : Transcript) (o : OutputId) : Transcript :=
  { x with registry := (x.registry.reference o).2 }

def isDue (outputs : Outputs) (x : Transcript) (o : OutputId) : Bool :=
  o < outputs.length && x.registry.state o == .referenced

def emit (x : Transcript) (o : OutputId) : Transcript :=
  { x with registry := x.registry.set o .emitted }

/-- The transcript as a state of writing, with a writer to lay it out. -/
def on (x : Transcript) (v : Writer) : Writing := ⟨x.tracker, x.registry, v⟩

/-- Adds what the parts write, one after the other. -/
def add (outputs : Outputs) : List Part → Transcript → Transcript
  | [], x => x
  | .text s :: rest, x => add outputs rest (x.write s)
  | .nested parts :: rest, x => add outputs (parts ++ rest) x
  | .type t :: rest, x => add outputs rest (x.printType t)
  | .symbol s :: rest, x => add outputs rest (x.printSymbol s)
  | .reference o :: rest, x => add outputs rest (x.reference o)
  | .usage o :: rest, x => add outputs rest ((x.reference o).write (outputs.label o))
  | .declaration o :: rest, x =>
    if _due : x.isDue outputs o then add outputs (outputs.body o ++ rest) (x.emit o)
    else add outputs rest x
  | .list items separator :: rest, x =>
    add outputs (items.intersperse (.text separator) ++ rest) x
termination_by parts x => (x.registry.unopened outputs, Template.weight parts)
decreasing_by
  · exact Prod.Lex.right _ (by simp [Template.weight, Part.weight])
  · exact Prod.Lex.right _ (by simp [Template.weight, Part.weight])
  · exact Prod.Lex.right _ (by simp [Template.weight, Part.weight])
  · exact Prod.Lex.right _ (by simp [Template.weight, Part.weight])
  · rw [reference, Registry.unopened_reference]
    exact Prod.Lex.right _ (by simp [Template.weight, Part.weight])
  · rw [write, reference, Registry.unopened_reference]
    exact Prod.Lex.right _ (by simp [Template.weight, Part.weight])
  · exact Prod.Lex.left _ _ (Writing.unopened_emit_lt (w := x.on (.start .tab 0)) _due)
  · exact Prod.Lex.right _ (by simp [Template.weight, Part.weight])
  · have h := Template.weight_intersperse_text_le separator items
    refine Prod.Lex.right _ ?_
    simp only [Template.weight, Template.weight_append, Part.weight]
    omega

theorem add_append (outputs : Outputs) (a b : List Part) (x : Transcript) :
    add outputs (a ++ b) x = add outputs b (add outputs a x) := by
  fun_induction add outputs a x with
  | case1 => rfl
  | case2 _ _ _ ih | case4 _ _ _ ih | case5 _ _ _ ih | case6 _ _ _ ih | case7 _ _ _ ih =>
    rw [List.cons_append, add, ih]
  | case3 _ _ _ ih | case10 _ _ _ _ ih => rw [List.cons_append, add, ← List.append_assoc, ih]
  | case8 _ _ _ due ih => rw [List.cons_append, add, dif_pos due, ← List.append_assoc, ih]
  | case9 _ _ _ due ih => rw [List.cons_append, add, dif_neg due, ih]

theorem unopened_add_le (outputs : Outputs) (parts : List Part) (x : Transcript) :
    (add outputs parts x).registry.unopened outputs ≤ x.registry.unopened outputs := by
  fun_induction add outputs parts x with
  | case1 => exact Nat.le_refl _
  | case6 o rest x ih | case7 o rest x ih =>
    exact Nat.le_trans ih (Nat.le_of_eq (Registry.unopened_reference x.registry outputs o))
  | case8 o rest x due ih =>
    exact Nat.le_trans ih (Nat.le_of_lt (Writing.unopened_emit_lt (w := x.on (.start .tab 0)) due))
  | case2 _ _ _ ih | case3 _ _ _ ih | case4 _ _ _ ih | case5 _ _ _ ih | case9 _ _ _ _ ih
  | case10 _ _ _ _ ih => exact ih

end Transcript

/-- The text of a template in a context with nothing laid out, and the context that it leaves. -/
def Context.plainIn (outputs : Outputs) (c : Context) (t : Template) : String × Context :=
  let x := Transcript.add outputs t ⟨c.tracker, c.registry, ""⟩
  (x.text, { c with tracker := x.tracker, registry := x.registry })

end TypeScriptComposer
