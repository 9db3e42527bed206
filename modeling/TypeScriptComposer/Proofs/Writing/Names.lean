import TypeScriptComposer.Proofs.TypeExpr.Spelling
import TypeScriptComposer.Proofs.Writing.Events

/-!
# The names in written text

The tracker of a render registers the symbols that are written, in writing order, and nothing else.
Symbols keep their names, so that all of the text can be read under one naming, the one that the
tracker ends with.
-/

set_option autoImplicit false

namespace TypeScriptComposer

def Event.symbols : Event → List Symbol
  | .did a _ => a.symbols
  | _ => []

/-- What an action writes when symbols have the names that `name` gives. -/
def Action.text (outputs : Outputs) (name : Symbol → String) : Action → String
  | .write s => s
  | .printType t => t.spell name
  | .printSymbol s => name s
  | .usage o => outputs.label o
  | _ => ""

theorem Course.mem_symbols_iff {outputs : Outputs} {actions : List Action} {es : List Event}
    (h : Course outputs actions es) (s : Symbol) :
    s ∈ es.flatMap Event.symbols ↔ (∃ a ∈ actions, s ∈ a.symbols) ∨
      ∃ o ∈ Event.begun es, s ∈ Template.symbols (outputs.body o) := by
  have hdone {a : Action} (ha : s ∈ a.symbols) : a.site? = none := by
    cases a with
    | declare o => simp [Action.symbols] at ha
    | _ => rfl
  have hprinted {a : Action} (ha : s ∈ a.symbols) (hdid : ∃ text, .did a text ∈ es) :
      s ∈ es.flatMap Event.symbols := by
    obtain ⟨text, htext⟩ := hdid
    exact List.mem_flatMap.mpr ⟨_, htext, ha⟩
  simp only [Event.mem_begun_iff, Template.mem_symbols_iff_script]
  constructor
  · intro hs
    obtain ⟨e, he, hse⟩ := List.mem_flatMap.mp hs
    cases e with
    | did a text =>
      rcases h.mem_of_did he with ha | ⟨o, ho, ha⟩
      · exact Or.inl ⟨a, ha, hse⟩
      · exact Or.inr ⟨o, ho, a, ha, hse⟩
    | _ => simp [Event.symbols] at hse
  · rintro (⟨a, ha, hsa⟩ | ⟨o, ho, a, ha, hsa⟩)
    · exact hprinted hsa (h.exists_did ha (hdone hsa))
    · exact hprinted hsa (h.exists_did_of_began ho ha (hdone hsa))

namespace Writing
variable {outputs : Outputs}

theorem tracker_act (w : Writing) (a : Action) :
    (w.act outputs a).tracker = w.tracker.registerAll a.symbols := by
  cases a with
  | printType t => exact congrArg Prod.snd (t.print_eq [] w.tracker)
  | _ => rfl

theorem tracker_perform (outputs : Outputs) (actions : List Action) (w : Writing) :
    (perform outputs actions w).tracker =
      w.tracker.registerAll ((events outputs actions w).flatMap Event.symbols) := by
  fun_induction events outputs actions w with
  | case1 => rw [perform]; rfl
  | case2 o rest w due inner ihInner ihRest =>
    rw [perform_declare_of_isDue due, ihRest, ihInner, ← Tracker.registerAll_append]
    simp [Event.symbols, emit]
  | case3 o rest w notDue ih =>
    rw [perform_declare_of_not_isDue (by simpa using notDue), ih]
    simp [Event.symbols]
  | case4 a rest w hsite ih =>
    rw [perform_cons_of_site? (site?_eq_none hsite), ih, tracker_act, ← Tracker.registerAll_append]
    simp [Event.symbols]

theorem textOf_eq (w : Writing) (a : Action) (more : List Symbol) :
    w.textOf outputs a = a.text outputs (w.tracker.registerAll (a.symbols ++ more)).nameOf := by
  cases a with
  | printType t => exact congrArg Prod.fst (t.print_eq more w.tracker)
  | printSymbol s => exact (w.tracker.nameOf_registerAll s more).symm
  | _ => rfl

/-- All that is written, is written under the naming that the tracker ends with. -/
theorem text_of_did (actions : List Action) (w : Writing) (more : List Symbol) {a : Action}
    {text : String} (ha : .did a text ∈ events outputs actions w) :
    text = a.text outputs (w.tracker.registerAll
      ((events outputs actions w).flatMap Event.symbols ++ more)).nameOf := by
  fun_induction events outputs actions w generalizing more with
  | case1 => simp at ha
  | case2 o rest w due inner ihInner ihRest =>
    have hsplit : ∀ l : List Event, (Event.began o :: (events outputs inner (w.emit o) ++
        .ended o :: l)).flatMap Event.symbols =
        (events outputs inner (w.emit o)).flatMap Event.symbols ++ l.flatMap Event.symbols := by
      intro l
      simp [Event.symbols]
    have hmem : .did a text ∈ events outputs inner (w.emit o) ∨
        .did a text ∈ events outputs rest (perform outputs inner (w.emit o)) := by simpa using ha
    rw [hsplit, List.append_assoc]
    rcases hmem with hmem | hmem
    · exact ihInner _ hmem
    · rw [Tracker.registerAll_append]
      have hrest := ihRest more hmem
      rwa [tracker_perform] at hrest
  | case3 o rest w notDue ih => exact ih more (by simpa using ha)
  | case4 b rest w hsite ih =>
    have hsplit : ∀ s : String, ∀ l : List Event, (Event.did b s :: l).flatMap Event.symbols =
        b.symbols ++ l.flatMap Event.symbols := fun s l => List.flatMap_cons
    rw [hsplit, List.append_assoc]
    rcases List.mem_cons.mp ha with heq | hmem
    · cases heq
      exact textOf_eq w _ _
    · have hrest := ih more hmem
      rwa [tracker_act, ← Tracker.registerAll_append] at hrest

end Writing

end TypeScriptComposer
