import TypeScriptComposer.Proofs.Tracker.Reordered
import TypeScriptComposer.Proofs.TypeExpr.Pieces
import TypeScriptComposer.Proofs.Writing.Events

/-!
# Writing and the order of declared names

What is written does not depend on the order in which the names that the file declares were claimed.
-/

set_option autoImplicit false

namespace TypeScriptComposer

theorem TypeExpr.print_reordered {tracker tracker' : Tracker} (h : tracker.Reordered tracker')
    (t : TypeExpr) : (t.print tracker').1 = (t.print tracker).1 ∧
      (t.print tracker).2.Reordered (t.print tracker').2 := by
  have hall := h.registerAll (t.pieces.flatMap Piece.symbols)
  rw [print_eq_pieces, print_eq_pieces, hall.nameOf_eq]
  exact ⟨rfl, hall⟩

namespace Writing
variable {outputs : Outputs} {w w' : Writing}

/-- Two states of writing that differ at most in the order of the declared names. -/
structure Reordered (w w' : Writing) : Prop where
  tracker : w.tracker.Reordered w'.tracker
  registry : w'.registry = w.registry
  writer : w'.writer = w.writer

namespace Reordered

theorem isDue_eq (h : w.Reordered w') (o : OutputId) : w'.isDue outputs o = w.isDue outputs o := by
  rw [isDue, isDue, h.registry]

theorem emit (h : w.Reordered w') (o : OutputId) : (w.emit o).Reordered (w'.emit o) :=
  ⟨h.tracker, by rw [Writing.emit, Writing.emit, h.registry], h.writer⟩

theorem act (h : w.Reordered w') (a : Action) :
    (w.act outputs a).Reordered (w'.act outputs a) := by
  cases a with
  | write s => exact ⟨h.tracker, h.registry, congrArg (Writer.write · s) h.writer⟩
  | printType t =>
    obtain ⟨htext, htracker⟩ := t.print_reordered h.tracker
    refine ⟨htracker, h.registry, ?_⟩
    simp only [Writing.act, printType, h.writer, htext]
  | printSymbol s =>
    obtain ⟨hname, htracker⟩ := h.tracker.register s
    refine ⟨htracker, h.registry, ?_⟩
    simp only [Writing.act, printSymbol, h.writer, hname]
  | reference o =>
    exact ⟨h.tracker, congrArg (fun r : Registry => (r.reference o).2) h.registry, h.writer⟩
  | usage o =>
    exact ⟨h.tracker, congrArg (fun r : Registry => (r.reference o).2) h.registry,
      congrArg (Writer.write · (outputs.label o)) h.writer⟩
  | declare o => exact h
  | raise => exact ⟨h.tracker, h.registry, congrArg Writer.raise h.writer⟩
  | lower => exact ⟨h.tracker, h.registry, congrArg Writer.lower h.writer⟩

theorem perform (actions : List Action) (w w' : Writing) (h : w.Reordered w') :
    (perform outputs actions w).Reordered (perform outputs actions w') := by
  fun_induction events outputs actions w generalizing w' with
  | case1 w =>
    rw [Writing.perform, Writing.perform]
    exact h
  | case2 o rest w due inner ihInner ihRest =>
    rw [perform_declare_of_isDue due, perform_declare_of_isDue ((h.isDue_eq o).trans due)]
    exact ihRest _ (ihInner _ (h.emit o))
  | case3 o rest w notDue ih =>
    have hnot : w.isDue outputs o = false := by simpa using notDue
    rw [perform_declare_of_not_isDue hnot, perform_declare_of_not_isDue ((h.isDue_eq o).trans hnot)]
    exact ih w' h
  | case4 a rest w hsite ih =>
    have hnone := site?_eq_none hsite
    rw [perform_cons_of_site? hnone, perform_cons_of_site? hnone]
    exact ih _ (h.act a)

end Reordered

end Writing

end TypeScriptComposer
