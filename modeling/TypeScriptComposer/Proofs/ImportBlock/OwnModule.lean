import TypeScriptComposer.Proofs.ImportBlock.Loading

/-!
# Imports of a file from itself

The symbols of a file's own module are declared names and bring no import. A module that is
registered for its side effects is noted without being compared with the own one, so that a file
loads itself exactly when it is asked to; it never binds anything by that.
-/

set_option autoImplicit false

namespace TypeScriptComposer

namespace Tracker

theorem isOwn_of_module? {t : Tracker} {s : Symbol} {p : String} (hp : t.ownModule = some p)
    (hs : s.module? = some p) : t.isOwn s = true := by
  simp [isOwn, hp, hs]

/-- An entry is that of a symbol from another module. -/
theorem module_ne_of_mem_imports {t : Tracker} (hnone : t.imports = []) {p : String}
    (hp : t.ownModule = some p) {ops : List Operation} {e : ImportEntry}
    (he : e ∈ (t.run ops).imports) : e.module ≠ p := by
  rintro rfl
  obtain ⟨s, -, himported, hid⟩ := (exists_entry_iff hnone ops e.id).mp ⟨e, he, rfl⟩
  have hmodule : s.module? = some e.module := by
    rw [module?_eq_some_iff, hid]
    rfl
  have hforeign := ((t.isImported_eq_true_iff s).mp himported).2.1
  rw [isOwn_of_module? hp hmodule] at hforeign
  cases hforeign

end Tracker

/-- Whatever is claimed and registered, no symbol is imported from the own module. It is among the
modules, and has a statement, exactly when it is registered for its side effects, and the statement
is then the one that binds nothing. -/
theorem own_module_imported_iff (settings : Settings) (ops : List Tracker.Operation) (quote : Quote)
    {p : String} (hp : settings.modulePath = some p) :
    let t := (Tracker.ofSettings settings).run ops
    let b := ImportBlock.ofTracker t quote
    (∀ e ∈ t.imports, e.module ≠ p) ∧
    (p ∈ t.modules ↔ Tracker.IsLoadedBy ops p) ∧
    (∀ st, st ∈ b.statements ∧ st.module = p ↔
      st = ⟨.nothing, p⟩ ∧ Tracker.IsLoadedBy ops p) := by
  intro t b
  have hown : (Tracker.ofSettings settings).ownModule = some p := hp
  have hentries : ∀ e ∈ t.imports, e.module ≠ p :=
    fun e he => Tracker.module_ne_of_mem_imports rfl hown he
  have hmodules : p ∈ t.modules ↔ Tracker.IsLoadedBy ops p := by
    have hnone : ¬ ∃ e ∈ t.unmarked, e.module = p := by
      rintro ⟨_, hmem, hmodule⟩
      obtain ⟨e, he, rfl⟩ := List.mem_map.mp hmem
      exact hentries e he hmodule
    rw [Tracker.mem_modules_run_iff, or_iff_right hnone]
  have hclauses : (ModuleImports.ofEntries p t.imports).clauses = [.nothing] := by
    have hwell : t.WellNamed := (Tracker.wellNamed_ofSettings settings).run ops
    rw [ModuleImports.clauses_eq, if_pos]
    rw [List.eq_nil_iff_forall_not_mem]
    intro e he
    obtain ⟨hmem, hmodule⟩ := (hwell.mem_entries_iff p).mp he
    exact hentries e hmem hmodule
  refine ⟨hentries, hmodules, ?_⟩
  rintro ⟨clause, m⟩
  rw [ImportBlock.mem_statements_of_module_iff]
  constructor
  · rintro ⟨⟨hm, hclause⟩, rfl⟩
    rw [hclauses, List.mem_singleton] at hclause
    obtain rfl : clause = .nothing := hclause
    exact ⟨rfl, hmodules.mp hm⟩
  · rintro ⟨⟨⟩, hloaded⟩
    exact ⟨⟨hmodules.mpr hloaded, by rw [hclauses]; exact List.mem_singleton_self _⟩, rfl⟩

/-- Exports of the own module in three styles, and one that another module exports again, leave it
out of the block. -/
theorem own_module_imported_iff_exports :
    let settings := { Settings.standard with modulePath := some "./models" }
    let ops : List Tracker.Operation := [.register (.named "User" "./models"),
      .register (.defaultExport "Team" "./models"), .register (.star "all" "./models"),
      .define "Role", .register ((Symbol.named "Role" "./index").withDefinition "./models"),
      .register (.sideEffect "./polyfill")]
    let t := (Tracker.ofSettings settings).run ops
    settings.modulePath = some "./models" ∧ "./models" ∉ t.modules ∧
    ∀ st ∈ (ImportBlock.ofTracker t .double).statements, st.module ≠ "./models" := by
  intro settings ops t
  obtain ⟨-, hmodules, hstatements⟩ :=
    own_module_imported_iff settings ops .double (p := "./models") rfl
  have hnot : ¬ Tracker.IsLoadedBy ops "./models" := by
    rw [Tracker.isLoadedBy_iff]
    decide +kernel
  refine ⟨rfl, mt hmodules.mp hnot, ?_⟩
  intro st hst hmodule
  exact hnot ((hstatements st).mp ⟨hst, hmodule⟩).2

/-- The own module, registered for its side effects, is imported by the file. -/
theorem own_module_loads_itself :
    let settings := { Settings.standard with modulePath := some "./models" }
    let t := (Tracker.ofSettings settings).run [.register (.sideEffect "./models")]
    "./models" ∈ t.modules ∧
    (ImportBlock.ofTracker t .double).lines = ["import \"./models\";"] := by
  decide +kernel

end TypeScriptComposer
