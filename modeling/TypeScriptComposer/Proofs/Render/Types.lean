import TypeScriptComposer.Proofs.Render.Preparing
import TypeScriptComposer.Proofs.Tracker.Claims

/-!
# Types in both passes

Preparing a template looks at the symbols of a type, and printing the type registers symbols. They
are the same symbols. So the names that printing a type can claim for the file are those that the
preparation finds, and once a template is prepared its types claim nothing more and no import takes
what they claim.
-/

set_option autoImplicit false

namespace TypeScriptComposer

theorem Context.imports_prepare (outputs : Outputs) (c : Context) (t : Template) :
    (c.prepare outputs t).2.tracker.imports = c.tracker.imports := by
  cases hcycle : (Survey.ofTemplate c.tracker outputs c.registry t).cycle? with
  | none =>
    rw [prepare_of_no_cycle hcycle]
    exact Tracker.defineAll_unchanged Tracker.imports_define _ _
  | some cycle => rw [prepare_of_cycle hcycle]

/-- The script of the template prints the type, or that of a live declaration does. -/
def Template.Prints (outputs : Outputs) (r : Registry) (u : Template) (t : TypeExpr) : Prop :=
  .printType t ∈ u.script ∨ ∃ o ∈ liveOutputs outputs r u, .printType t ∈ (outputs.body o).script

namespace TypeExpr
variable {outputs : Outputs} {c : Context} {u : Template}

theorem tracker_print (t : TypeExpr) (tracker : Tracker) :
    (t.print tracker).2 = tracker.run (t.symbols.map .register) := by
  rw [TypeExpr.print_eq [] t tracker]
  exact tracker.registerAll_eq_run t.symbols

/-- What a printed type mentions and the file declares is in use once the template is prepared. -/
theorem isTaken_prepare_of_prints (h : (c.prepare outputs u).1 = .ok ()) {t : TypeExpr}
    (ht : u.Prints outputs c.registry t) {s : Symbol} (hs : s ∈ t.symbols)
    (hdeclares : c.tracker.declares s = true) :
    (c.prepare outputs u).2.tracker.isTaken s.value = true := by
  apply Context.isTaken_prepare h
  rw [Survey.mem_locals_iff]
  refine ⟨s, ?_, hdeclares, rfl⟩
  refine ht.imp (fun hscript => ?_) fun hlive => ?_
  · exact (Template.mem_symbols_iff_script u s).mpr ⟨_, hscript, hs⟩
  · obtain ⟨o, ho, hscript⟩ := hlive
    exact ⟨o, ho, (Template.mem_symbols_iff_script _ s).mpr ⟨_, hscript, hs⟩⟩

/-- Printing a type registers its symbols, from left to right and with repetitions, and does nothing
else to the tracker; the survey finds names at the same symbols. The file gets, of the names that
are found, those that no import has. Once a template has been prepared that prints the type, and
whatever has been claimed and registered since, printing the type claims nothing for the file, and
no import has a name that is found in the type, unless it had it before. -/
theorem print_registers_symbols (t : TypeExpr) (tracker : Tracker) :
    let found := (t.symbols.filter tracker.declares).map (·.value)
    let printed := (t.print tracker).2
    printed = tracker.run (t.symbols.map .register) ∧
    (∀ survey : Survey, (survey.visit tracker [.type t]).locals = survey.locals ++ found) ∧
    (∀ name, name ∈ printed.declared ↔ name ∈ tracker.declared ∨
      (name ∈ found ∧ name ∉ printed.imports.map (·.localName))) ∧
    ∀ (outputs : Outputs) (c : Context) (u : Template) (ops : List Tracker.Operation),
      c.tracker = tracker → (c.prepare outputs u).1 = .ok () → u.Prints outputs c.registry t →
      let now := (c.prepare outputs u).2.tracker.run ops
      (t.print now).2.declared = now.declared ∧
      ∀ name ∈ found, name ∈ (t.print now).2.imports.map (·.localName) →
        name ∈ tracker.imports.map (·.localName) := by
  intro found printed
  have hprinted : printed = tracker.run (t.symbols.map .register) := t.tracker_print tracker
  refine ⟨hprinted, ?_, ?_, ?_⟩
  · intro survey
    have hsymbols : Template.symbols [.type t] = t.symbols := List.append_nil _
    rw [Survey.visit, hsymbols]
  · intro name
    rw [hprinted, Tracker.mem_declared_run_iff, Tracker.exists_claimed_iff]
  · rintro outputs c u ops rfl hok hprints now
    have htaken : ∀ name ∈ found, (c.prepare outputs u).2.tracker.isTaken name = true := by
      intro name hname
      obtain ⟨s, hs, rfl⟩ := List.mem_map.mp hname
      obtain ⟨hs, hdeclares⟩ := List.mem_filter.mp hs
      exact isTaken_prepare_of_prints hok hprints hs hdeclares
    have howner : now.ownModule = c.tracker.ownModule :=
      (Tracker.ownModule_run _ ops).trans (c.ownModule_prepare outputs u)
    rw [t.tracker_print now]
    refine ⟨?_, ?_⟩
    · apply Tracker.declared_run_of_isTaken
      intro op hop name hclaimed
      rw [Tracker.claimed?_congr howner] at hclaimed
      apply Tracker.isTaken_run
      exact htaken name ((Tracker.exists_claimed_iff _ _ name).mp ⟨op, hop, hclaimed⟩)
    · intro name hname himport
      rw [← Tracker.run_append] at himport
      rcases Tracker.mem_localNames_run himport with hbefore | hfree
      · rwa [c.imports_prepare outputs u] at hbefore
      · rw [htaken name hname] at hfree
        cases hfree

/-- Alone, the type would leave the name to the import, which comes first. -/
theorem print_registers_symbols_late_local :
    let t : TypeExpr := .union [.ofSymbol (.named "Foo" "./a"), .array (.ofSymbol (.declared "Foo"))]
    let c := Context.ofSettings .standard
    let u : Template := [.symbol (.named "Foo" "./a"), .list [.type t] ", "]
    let now := (c.prepare [] u).2.tracker.run [.register (.named "Foo" "./a")]
    (c.prepare [] u).1 = .ok () ∧ u.Prints [] c.registry t ∧
    (t.print c.tracker).2.declared = [] ∧ now.declared = ["Foo"] ∧
    (t.print now).2.declared = ["Foo"] ∧
    "Foo" ∉ (t.print now).2.imports.map (·.localName) := by
  intro t c u now
  have hok : (c.prepare [] u).1 = .ok () := by cbv
  have hscript : u.script = [.printSymbol (.named "Foo" "./a"), .printType t] := rfl
  have hprints : u.Prints [] c.registry t := Or.inl (by simp [hscript])
  have hfound : "Foo" ∈ (t.symbols.filter c.tracker.declares).map (·.value) := by decide +kernel
  have hnow : now.declared = ["Foo"] := by
    change ((c.prepare [] u).2.tracker.run [.register (.named "Foo" "./a")]).declared = ["Foo"]
    cbv
  obtain ⟨-, -, -, hprepared⟩ := t.print_registers_symbols c.tracker
  obtain ⟨hdeclared, himports⟩ :=
    hprepared [] c u [.register (.named "Foo" "./a")] rfl hok hprints
  refine ⟨hok, hprints, by cbv, hnow, hdeclared.trans hnow, fun himport => ?_⟩
  exact List.not_mem_nil (himports "Foo" hfound himport)

end TypeExpr

end TypeScriptComposer
