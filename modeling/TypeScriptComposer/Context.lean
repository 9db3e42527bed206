import TypeScriptComposer.Error
import TypeScriptComposer.Layout.Writer
import TypeScriptComposer.Survey.Cycle
import TypeScriptComposer.Template.Script
import TypeScriptComposer.TypeExpr.Print

/-!
# Rendering in a context

A context is the state of one render: the names in use, how far each output has come, and the unit
of indentation. A template is prepared first, which claims the names that it declares and refuses
cycles, and is then written. Writing carries out the script of the template; at a declaration site
whose output is due, the script of the declaration comes before the rest.
-/

set_option autoImplicit false

namespace TypeScriptComposer

structure Context where
  tracker : Tracker
  registry : Registry
  indent : Indent

structure Writing where
  tracker : Tracker
  registry : Registry
  writer : Writer

namespace Writing

def write (w : Writing) (s : String) : Writing := { w with writer := w.writer.write s }

def printType (w : Writing) (t : TypeExpr) : Writing :=
  let (text, tracker) := t.print w.tracker
  { w with tracker := tracker, writer := w.writer.write text }

def printSymbol (w : Writing) (s : Symbol) : Writing :=
  let (text, tracker) := w.tracker.register s
  { w with tracker := tracker, writer := w.writer.write text }

def reference (w : Writing) (o : OutputId) : Writing :=
  { w with registry := (w.registry.reference o).2 }

/-- Whether the declaration of an output is due at a declaration site. -/
def isDue (outputs : Outputs) (w : Writing) (o : OutputId) : Bool :=
  o < outputs.length && w.registry.state o == .referenced

def emit (w : Writing) (o : OutputId) : Writing :=
  { w with registry := w.registry.set o .emitted }

theorem unopened_emit_lt {outputs : Outputs} {w : Writing} {o : OutputId}
    (h : w.isDue outputs o = true) :
    (w.emit o).registry.unopened outputs < w.registry.unopened outputs := by
  simp only [isDue, Bool.and_eq_true, decide_eq_true_eq, beq_iff_eq] at h
  obtain ⟨hlt, hstate⟩ := h
  unfold Registry.unopened
  rw [List.countP_eq_length_filter, List.countP_eq_length_filter]
  have hsub : ((List.range outputs.length).filter
      fun p => (w.emit o).registry.state p != .emitted) =
      ((List.range outputs.length).filter
        fun p => w.registry.state p != .emitted).filter (· != o) := by
    rw [List.filter_filter]
    congr 1
    funext p
    by_cases hp : p = o
    · subst hp; simp [Writing.emit]
    · simp [Writing.emit, Registry.state_set_of_ne _ _ hp, hp]
  rw [hsub]
  refine List.length_filter_lt_length_iff_exists.2 ⟨o, ?_, by simp⟩
  simp [hlt, hstate]

def perform (outputs : Outputs) : List Action → Writing → Writing
  | [], w => w
  | .write s :: rest, w => perform outputs rest (w.write s)
  | .printType t :: rest, w => perform outputs rest (w.printType t)
  | .printSymbol s :: rest, w => perform outputs rest (w.printSymbol s)
  | .reference o :: rest, w => perform outputs rest (w.reference o)
  | .usage o :: rest, w => perform outputs rest ((w.reference o).write (outputs.label o))
  | .declare o :: rest, w =>
    if _due : w.isDue outputs o then
      perform outputs (Template.script (outputs.body o) ++ rest) (w.emit o)
    else perform outputs rest w
  | .raise :: rest, w => perform outputs rest { w with writer := w.writer.raise }
  | .lower :: rest, w => perform outputs rest { w with writer := w.writer.lower }
termination_by actions w => (w.registry.unopened outputs, actions.length)
decreasing_by
  · exact Prod.Lex.right _ (by simp)
  · exact Prod.Lex.right _ (by simp)
  · exact Prod.Lex.right _ (by simp)
  · rw [reference, Registry.unopened_reference]; exact Prod.Lex.right _ (by simp)
  · rw [write, reference, Registry.unopened_reference]; exact Prod.Lex.right _ (by simp)
  · exact Prod.Lex.left _ _ (unopened_emit_lt _due)
  · exact Prod.Lex.right _ (by simp)
  · exact Prod.Lex.right _ (by simp)
  · exact Prod.Lex.right _ (by simp)

theorem perform_append (outputs : Outputs) (a b : List Action) (w : Writing) :
    perform outputs (a ++ b) w = perform outputs b (perform outputs a w) := by
  fun_induction perform outputs a w with
  | case1 => rfl
  | case2 w s rest ih | case3 w s rest ih | case4 w s rest ih | case5 w s rest ih
  | case6 w s rest ih | case9 w rest ih | case10 w rest ih =>
    rw [List.cons_append, perform, ih]
  | case7 w o rest due ih =>
    rw [List.cons_append, perform, dif_pos due, ← List.append_assoc, ih]
  | case8 w o rest due ih =>
    rw [List.cons_append, perform, dif_neg due, ih]

theorem perform_declare_of_isDue {outputs : Outputs} {w : Writing} {o : OutputId}
    (h : w.isDue outputs o = true) (rest : List Action) :
    perform outputs (.declare o :: rest) w =
      perform outputs rest (perform outputs (Template.script (outputs.body o)) (w.emit o)) := by
  rw [perform, dif_pos h, perform_append]

theorem perform_declare_of_not_isDue {outputs : Outputs} {w : Writing} {o : OutputId}
    (h : w.isDue outputs o = false) (rest : List Action) :
    perform outputs (.declare o :: rest) w = perform outputs rest w := by
  rw [perform, dif_neg (by simp [h])]

end Writing

namespace Context

def ofSettings (s : Settings) : Context := ⟨.ofSettings s, .empty, s.indent⟩

def cycleError (outputs : Outputs) (cycle : List OutputId) : Error :=
  let first := (cycle.head?.map outputs.label).getD ""
  .cycle first (cycle.map outputs.label ++ [first])

/-- The first pass over a template. The uses that it finds stay noted when it ends in an error;
names are claimed only when it does not. -/
def prepare (outputs : Outputs) (c : Context) (t : Template) : Except Error Unit × Context :=
  let survey := Survey.ofTemplate c.tracker outputs c.registry t
  match survey.cycle? with
  | some cycle => (.error (cycleError outputs cycle), { c with registry := survey.registry })
  | none =>
    (.ok (), { c with
      tracker := survey.locals.foldl (fun tracker name => (tracker.define name).2) c.tracker
      registry := survey.registry })

def renderIn (outputs : Outputs) (c : Context) (t : Template) (level : Nat) : String × Context :=
  let w := Writing.perform outputs (Template.script t)
    ⟨c.tracker, c.registry, .start c.indent level⟩
  (w.writer.text, { c with tracker := w.tracker, registry := w.registry })

def declareIfUsed (outputs : Outputs) (c : Context) (o : OutputId) (level : Nat) :
    Option String × Context :=
  match c.registry.beginEmit o with
  | (false, _) => (none, c)
  | (true, registry) =>
    let (text, c) := { c with registry := registry }.renderIn outputs (outputs.body o) level
    (some text, c)

end Context

end TypeScriptComposer
