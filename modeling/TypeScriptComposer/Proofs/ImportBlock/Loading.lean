import TypeScriptComposer.Proofs.ImportBlock.ReadBack
import TypeScriptComposer.Proofs.Tracker.Entries

/-!
# Which modules are loaded

A module that is registered for its side effects must be loaded when the file runs. An import of it
that is marked as a type as a whole is erased before that. The block leaves out the bare import as
soon as the module has any other statement, and so a module stays unloaded when its symbols are all
imported as types, unless two of them share a statement that has no mark.
-/

set_option autoImplicit false

namespace TypeScriptComposer

namespace ImportClause

/-- Whether a statement with the clause is erased from the file that runs: it is marked as a type as
a whole. -/
def isErased : ImportClause → Bool
  | .star typeOnly _ => typeOnly
  | .default typeOnly _ => typeOnly
  | .named typeOnly _ => typeOnly
  | .nothing => false
  | .defaultAndNamed _ _ => false

end ImportClause

namespace ModuleImports

theorem isErased_namedClause (named : List ImportEntry) :
    (namedClause named).isErased = named.all (·.typeOnly) := by
  unfold namedClause
  split
  · rename_i hall
    exact hall.symm
  · rename_i hsome
    exact (Bool.not_eq_true _ ▸ hsome).symm

/-- A default import that shares its statement with named ones is not marked, even as a type. -/
theorem isErased_defaultClauses_iff (defaults named : List ImportEntry) :
    (∀ c ∈ defaultClauses defaults named, c.isErased = true) ↔
      (∀ e ∈ defaults, e.typeOnly = true) ∧ (∀ e ∈ named, e.typeOnly = true) ∧
        (defaults = [] ∨ named = []) := by
  fun_cases defaultClauses defaults named with
  | case1 => simp
  | case2 named hne => simp [isErased_namedClause]
  | case3 d more => simp [ImportClause.isErased]
  | case4 d more named hne =>
    have hnamed : named ≠ [] := by simpa using hne
    simp [ImportClause.isErased, hnamed]

theorem isErased_clauses_iff (g : ModuleImports) :
    (∀ c ∈ g.clauses, c.isErased = true) ↔ g.entries ≠ [] ∧
      (∀ e ∈ g.entries, e.typeOnly = true) ∧ (g.defaults = [] ∨ g.named = []) := by
  rw [clauses_eq]
  split
  · rename_i hempty
    simp [hempty, ImportClause.isErased]
  · rename_i hne
    rw [binding, List.forall_mem_append, isErased_defaultClauses_iff, entries,
      List.forall_mem_append, List.forall_mem_append]
    have hstars : (∀ c ∈ g.stars.map fun e => ImportClause.star e.typeOnly e.localName,
        c.isErased = true) ↔ ∀ e ∈ g.stars, e.typeOnly = true := by
      simp [ImportClause.isErased]
    rw [hstars]
    tauto

end ModuleImports

theorem ImportBlock.mem_statements_of_module_iff (t : Tracker) (quote : Quote)
    (s : ImportStatement) : s ∈ (ofTracker t quote).statements ↔
      s.module ∈ t.modules ∧ s.clause ∈ (ModuleImports.ofEntries s.module t.imports).clauses := by
  rw [mem_statements_iff]
  constructor
  · rintro ⟨g, hg, hclause, hmodule⟩
    obtain ⟨m, hm, rfl⟩ := List.mem_map.mp hg
    have hsame : s.module = m := hmodule
    rw [hsame]
    exact ⟨hm, hclause⟩
  · rintro ⟨hm, hclause⟩
    exact ⟨_, List.mem_map_of_mem hm, hclause, rfl⟩

namespace Tracker
variable {t : Tracker} {e : ImportEntry}

/-- Symbols are imported from a module, all of them as types, and no default import shares a
statement with named ones. An export is imported in the style of its first registration. -/
structure TypesOnly (home : Tracker) (ops : List Operation) (m : String) : Prop where
  imported : ∃ s ∈ registered ops, home.isImported s = true ∧ s.module? = some m
  types : ∀ s ∈ registered ops, home.isImported s = true → s.module? = some m →
    s.typeOnly = true
  apart :
    let firsts := firstsBy Symbol.id ((registered ops).filter home.isImported)
    (∀ s ∈ firsts, s.module? = some m → s.style ≠ .default) ∨
      ∀ s ∈ firsts, s.module? = some m → s.style ≠ .named

theorem entriesOf_eq_nil_iff (hnone : t.imports = []) (ops : List Operation) (m : String)
    (style : ImportStyle) : (t.run ops).entriesOf m style = [] ↔
      ∀ s ∈ firstsBy Symbol.id ((registered ops).filter t.isImported),
        s.module? = some m → s.style ≠ style := by
  have hexists := not_congr (exists_entry_of_style_iff hnone ops m style)
  simp only [not_exists, not_and] at hexists
  rw [← hexists, entriesOf, List.filter_eq_nil_iff]
  simp

theorem WellNamed.mem_entries_iff (h : t.WellNamed) (m : String) :
    e ∈ (ModuleImports.ofEntries m t.imports).entries ↔ e ∈ t.imports ∧ e.module = m := by
  have hperm := ModuleImports.entries_ofEntries_perm m
    fun e he => h.style e.unmarked (List.mem_map_of_mem he)
  rw [hperm.mem_iff, List.mem_filter, beq_iff_eq]

/-- What the registrations are is what the entries of the module are. -/
theorem typesOnly_iff (h : t.WellNamed) (hnone : t.imports = []) (ops : List Operation)
    (m : String) : t.TypesOnly ops m ↔
      (∃ e ∈ (t.run ops).imports, e.module = m) ∧
      (∀ e ∈ (t.run ops).imports, e.module = m → e.typeOnly = true) ∧
      ((t.run ops).entriesOf m .default = [] ∨ (t.run ops).entriesOf m .named = []) := by
  have hid (e : ImportEntry) (s : Symbol) (hes : s.id = e.id) :
      s.module? = some m ↔ e.module = m := by
    rw [module?_eq_some_iff, hes, ImportEntry.id, Origin.module.injEq]
  have hmark := h.typeOnly_run hnone ops
  rw [entriesOf_eq_nil_iff hnone, entriesOf_eq_nil_iff hnone]
  constructor
  · rintro ⟨⟨s, hs, himported, hm⟩, htypes, hapart⟩
    obtain ⟨e, he, hes⟩ := (exists_entry_iff hnone ops s.id).mpr ⟨s, hs, himported, rfl⟩
    refine ⟨⟨e, he, (hid e s hes.symm).mp hm⟩, ?_, hapart⟩
    intro e he hm
    rw [hmark e he, List.all_eq_true]
    intro s hs
    obtain ⟨hs, himported, hes⟩ := (mem_registrations_iff t e.id ops s).mp hs
    exact htypes s hs himported ((hid e s hes).mpr hm)
  · rintro ⟨⟨e, he, hm⟩, htypes, hapart⟩
    obtain ⟨s, hs, himported, hes⟩ := (exists_entry_iff hnone ops e.id).mp ⟨e, he, rfl⟩
    refine ⟨⟨s, hs, himported, (hid e s hes).mpr hm⟩, ?_, hapart⟩
    intro s hs himported hm
    obtain ⟨e, he, hes⟩ := (exists_entry_iff hnone ops s.id).mpr ⟨s, hs, himported, rfl⟩
    have hall := htypes e he ((hid e s hes.symm).mp hm)
    rw [hmark e he, List.all_eq_true] at hall
    exact hall s ((mem_registrations_iff t e.id ops s).mpr ⟨hs, himported, hes.symm⟩)

/-- The statements of a module are all erased exactly when only types are imported from it, in
statements that are marked. -/
theorem isErased_statements_iff (h : t.WellNamed) (hnone : t.imports = []) (ops : List Operation)
    (m : String) :
    (∀ c ∈ (ModuleImports.ofEntries m (t.run ops).imports).clauses, c.isErased = true) ↔
      t.TypesOnly ops m := by
  rw [ModuleImports.isErased_clauses_iff, typesOnly_iff h hnone, ← List.length_pos_iff,
    List.length_pos_iff_exists_mem]
  simp only [(h.run ops).mem_entries_iff, and_imp]
  rfl

/-- The lines of a block are read as its statements. -/
theorem mapM_read_lines {x : Lexicon} {strings : StringState} {quote : Quote} (h : t.WellNamed)
    (hprintable : t.Printable x quote) (hvalue : ∀ m ∈ t.modules, strings.value? m = some m) :
    let b := ImportBlock.ofTracker t quote
    b.lines.mapM (x.read strings) = some b.statements := by
  intro b
  have hmodule : ∀ st ∈ b.statements, st.module ∈ t.modules :=
    fun st hst => ((ImportBlock.mem_statements_of_module_iff t quote st).mp hst).1
  have hadmits : ∀ st ∈ b.statements, st.clause.Admits x := by
    intro st hst
    obtain ⟨-, hc⟩ := (ImportBlock.mem_statements_of_module_iff t quote st).mp hst
    refine ModuleImports.admits_clauses (fun e he => ?_) _ hc
    exact hprintable.names e ((h.mem_entries_iff st.module).mp he).1
  have hquote : ∀ st ∈ b.statements, quote.char ∉ st.module.toList :=
    fun st hst => hprintable.modules _ (hmodule st hst)
  have hkeep : ∀ st ∈ b.statements, strings.value? st.module = some st.module :=
    fun st hst => hvalue _ (hmodule st hst)
  refine (mapM_read_eq_some_iff strings hadmits hquote _).mpr ⟨?_, ?_⟩
  · intro st hst
    rw [hkeep st hst, Option.isSome_some]
  · conv_lhs => rw [← List.map_id b.statements]
    apply List.map_congr_left
    intro st hst
    rw [hkeep st hst]
    rfl

/-- Some operation registers the module for its side effects. -/
def IsLoadedBy (ops : List Operation) (m : String) : Prop :=
  ∃ s, .register s ∈ ops ∧ s.style = .sideEffect ∧ s.module? = some m

theorem isLoadedBy_iff (ops : List Operation) (m : String) :
    IsLoadedBy ops m ↔ m ∈ ops.filterMap (·.loaded?) := by
  rw [List.mem_filterMap]
  constructor
  · rintro ⟨s, hs, hload⟩
    exact ⟨.register s, hs, Operation.loaded?_eq_some_iff.mpr ⟨s, rfl, hload⟩⟩
  · rintro ⟨op, hop, hloaded⟩
    obtain ⟨s, rfl, hload⟩ := Operation.loaded?_eq_some_iff.mp hloaded
    exact ⟨s, hop, hload⟩

theorem mem_modules_run_iff (settings : Settings) (ops : List Operation) (m : String) :
    m ∈ ((ofSettings settings).run ops).modules ↔
      (∃ e ∈ ((ofSettings settings).run ops).unmarked, e.module = m) ∨ IsLoadedBy ops m := by
  have hstart : (ofSettings settings).Accounts [] := by simp [Accounts, ofSettings, unmarked]
  rw [isLoadedBy_iff, hstart.run ops m, List.nil_append]

theorem mem_modules_run_of_loaded (settings : Settings) {ops : List Operation} {s : Symbol}
    {m : String} (hs : .register s ∈ ops) (hstyle : s.style = .sideEffect)
    (hm : s.module? = some m) : m ∈ ((ofSettings settings).run ops).modules :=
  (mem_modules_run_iff settings ops m).mpr (Or.inr ⟨s, hs, hstyle, hm⟩)

end Tracker

/-- A module that is registered for its side effects has a statement, whatever else is registered
and in whatever order. One that is not erased is among its statements exactly if the symbols that
are imported from it are not all types, or a default import shares a statement with named ones. The
lines of the block, read in TypeScript, are these statements. -/
theorem loaded_iff_not_typesOnly (settings : Settings) (ops : List Tracker.Operation)
    (quote : Quote) {s : Symbol} {m : String} (hs : .register s ∈ ops)
    (hstyle : s.style = .sideEffect) (hm : s.module? = some m) :
    let home := Tracker.ofSettings settings
    let t := home.run ops
    let b := ImportBlock.ofTracker t quote
    (∃ st ∈ b.statements, st.module = m) ∧
    ((∃ st ∈ b.statements, st.module = m ∧ st.clause.isErased = false) ↔
      ¬ home.TypesOnly ops m) ∧
    ∀ (x : Lexicon) (strings : StringState), t.Printable x quote →
      (∀ m ∈ t.modules, strings.value? m = some m) →
      b.lines.mapM (x.read strings) = some b.statements := by
  intro home t b
  have hwell : home.WellNamed := Tracker.wellNamed_ofSettings settings
  have hmodule : m ∈ t.modules := Tracker.mem_modules_run_of_loaded settings hs hstyle hm
  refine ⟨?_, ?_, ?_⟩
  · obtain ⟨c, hc⟩ := List.exists_mem_of_ne_nil _
      (ModuleImports.ofEntries m t.imports).clauses_ne_nil
    exact ⟨⟨c, m⟩, (ImportBlock.mem_statements_of_module_iff t quote _).mpr ⟨hmodule, hc⟩, rfl⟩
  · rw [← Tracker.isErased_statements_iff hwell rfl ops m]
    push Not
    constructor
    · rintro ⟨st, hst, rfl, hkept⟩
      obtain ⟨-, hc⟩ := (ImportBlock.mem_statements_of_module_iff t quote st).mp hst
      exact ⟨st.clause, hc, by simp [hkept]⟩
    · rintro ⟨c, hc, hkept⟩
      refine ⟨⟨c, m⟩, ?_, rfl, by simpa using hkept⟩
      exact (ImportBlock.mem_statements_of_module_iff t quote _).mpr ⟨hmodule, hc⟩
  · intro x strings hprintable hvalue
    exact Tracker.mapM_read_lines (hwell.run ops) hprintable hvalue

/-- A default and a named import share a statement that loads the module, though both are types. -/
theorem loaded_iff_not_typesOnly_shared :
    let load := Symbol.sideEffect "./a"
    let ops : List Tracker.Operation :=
      [.register (Symbol.defaultExport "D" "./a").asType, .register load,
        .register (Symbol.named "N" "./a").asType, .register (Symbol.star "S" "./a").asType]
    let b := ImportBlock.ofTracker ((Tracker.ofSettings .standard).run ops) .double
    .register load ∈ ops ∧ load.style = .sideEffect ∧ load.module? = some "./a" ∧
      b.lines = ["import type * as S from \"./a\";",
        "import D, \x7b type N \x7d from \"./a\";"] ∧
      ∃ st ∈ b.statements, st.module = "./a" ∧ st.clause.isErased = false := by
  intro load ops b
  have hload : .register load ∈ ops := by decide
  have hnot : ¬ (Tracker.ofSettings .standard).TypesOnly ops "./a" := by
    rintro ⟨-, -, hapart⟩
    revert hapart
    decide +kernel
  refine ⟨hload, rfl, rfl, by decide +kernel, ?_⟩
  exact (loaded_iff_not_typesOnly .standard ops .double hload rfl rfl).2.1.mpr hnot

/-- A module that is registered for its side effects is not loaded when the one symbol that is
imported from it is a type. -/
theorem sideEffect_lost_to_type :
    let ops : List Tracker.Operation := [.register (.sideEffect "./polyfill"),
      .register (Symbol.named "Fill" "./polyfill").asType]
    let b := ImportBlock.ofTracker ((Tracker.ofSettings .standard).run ops) .double
    b.lines = ["import type \x7b Fill \x7d from \"./polyfill\";"] ∧
      ¬ ∃ st ∈ b.statements, st.module = "./polyfill" ∧ st.clause.isErased = false := by
  decide +kernel

end TypeScriptComposer
