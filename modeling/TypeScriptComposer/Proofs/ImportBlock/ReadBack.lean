import TypeScriptComposer.Proofs.ImportBlock.Bindings
import TypeScriptComposer.Proofs.ImportBlock.Regrouping
import TypeScriptComposer.Proofs.Tracker.Recorded

/-!
# Import blocks read back

The lines of a block are read as the imports that the tracker has noted, if no module contains the
quote and all that is bound are identifiers. Where a module contains a backslash or a line break
the string does not stand for it, because nothing is escaped. Different imports have different
lines even then.
-/

set_option autoImplicit false

namespace TypeScriptComposer

/-- The imports that lines make, module by module. -/
def Lexicon.readImports (x : Lexicon) (strings : StringState) (lines : List String) :
    Option (List ModuleBindings) :=
  (lines.mapM (x.read strings)).map fun ss => (byModule ss).map fun g => .ofClauses g.1 g.2

namespace Tracker

def entriesOf (t : Tracker) (module : String) (style : ImportStyle) : List ImportEntry :=
  t.imports.filter fun e => e.module == module && e.style == style

def bindingsOf (t : Tracker) (module : String) : ModuleBindings where
  module := module
  stars := (t.entriesOf module .star).map (·.binding)
  defaults := defaultBindings (t.entriesOf module .default) (t.entriesOf module .named)
  named := (t.entriesOf module .named).map fun e => ⟨e.name, e.localName, e.typeOnly⟩
  bare := if t.imports.all (·.module != module) then 1 else 0

/-- What the noted imports bind, with the modules in the order of their first use. -/
def bindings (t : Tracker) : List ModuleBindings := t.modules.map t.bindingsOf

@[simp] theorem module_bindings (t : Tracker) : t.bindings.map (·.module) = t.modules := by
  simp [bindings, bindingsOf, Function.comp_def]

/-- The entries have names that can be imported and bound, and no module contains the quote. -/
structure Printable (x : Lexicon) (quote : Quote) (t : Tracker) : Prop where
  names : ∀ e ∈ t.imports, x.isName e.name = true ∧ x.binds e.localName = true
  modules : ∀ m ∈ t.modules, quote.char ∉ m.toList

end Tracker

section Groups
variable {x : Lexicon} {strings : StringState} {quote : Quote}

namespace ModuleImports

theorem admits_namedClause {named : List ImportEntry}
    (h : ∀ e ∈ named, x.isName e.name = true ∧ x.binds e.localName = true) :
    (namedClause named).Admits x := by
  unfold namedClause
  split <;> simpa [ImportClause.Admits, plainItem, markedItem] using h

theorem admits_defaultClauses {defaults named : List ImportEntry}
    (hdefaults : ∀ e ∈ defaults, x.binds e.localName = true)
    (hnamed : ∀ e ∈ named, x.isName e.name = true ∧ x.binds e.localName = true) :
    ∀ c ∈ defaultClauses defaults named, c.Admits x := by
  fun_cases defaultClauses defaults named with
  | case1 => simp
  | case2 named hne => simpa using admits_namedClause hnamed
  | case3 d more => simpa [ImportClause.Admits] using hdefaults
  | case4 d more named hne =>
    obtain ⟨hd, hmore⟩ := List.forall_mem_cons.mp hdefaults
    refine List.forall_mem_cons.mpr ⟨⟨hd, ?_⟩, ?_⟩
    · simpa [markedItem] using hnamed
    · simpa [ImportClause.Admits] using hmore

theorem admits_clauses {g : ModuleImports}
    (h : ∀ e ∈ g.entries, x.isName e.name = true ∧ x.binds e.localName = true) :
    ∀ c ∈ g.clauses, c.Admits x := by
  rw [entries, List.forall_mem_append, List.forall_mem_append] at h
  obtain ⟨⟨hstars, hdefaults⟩, hnamed⟩ := h
  rw [clauses_eq]
  split
  · simp [ImportClause.Admits]
  · rw [binding, List.forall_mem_append]
    refine ⟨?_, admits_defaultClauses (fun e he => (hdefaults e he).2) hnamed⟩
    simpa [ImportClause.Admits] using fun e he => (hstars e he).2

end ModuleImports

/-- Lines are read as statements when every string stands for something. -/
theorem mapM_read_eq_some_iff (strings : StringState) {ss : List ImportStatement}
    (hadmits : ∀ s ∈ ss, s.clause.Admits x)
    (hquote : ∀ s ∈ ss, quote.char ∉ s.module.toList) (read : List ImportStatement) :
    (ss.map (·.text quote)).mapM (x.read strings) = some read ↔
      (∀ s ∈ ss, (strings.value? s.module).isSome = true) ∧
        read = ss.map fun s => ⟨s.clause, (strings.value? s.module).getD ""⟩ := by
  induction ss generalizing read with
  | nil =>
    constructor
    · intro h
      exact ⟨by simp, (Option.some.inj h).symm⟩
    · rintro ⟨-, rfl⟩
      rfl
  | cons s ss ih =>
    obtain ⟨hs, hadmits⟩ := List.forall_mem_cons.mp hadmits
    obtain ⟨hq, hquote⟩ := List.forall_mem_cons.mp hquote
    rw [List.map_cons, List.mapM_cons, Lexicon.read_text hs hq]
    cases hvalue : strings.value? s.module with
    | none => simp [hvalue]
    | some m =>
      have hrest := ih hadmits hquote
      simp only [Option.map_some, Option.bind_eq_bind, Option.bind_some, Option.bind_eq_some_iff,
        hrest, List.forall_mem_cons, hvalue, Option.isSome_some, true_and, List.map_cons,
        Option.getD_some]
      constructor
      · rintro ⟨rest, ⟨hsome, rfl⟩, hread⟩
        exact ⟨hsome, (Option.some.inj hread).symm⟩
      · rintro ⟨hsome, rfl⟩
        exact ⟨_, ⟨hsome, rfl⟩, rfl⟩

namespace ImportBlock

theorem mem_statements_iff (b : ImportBlock) (s : ImportStatement) :
    s ∈ b.statements ↔ ∃ g ∈ b.groups, s.clause ∈ g.clauses ∧ s.module = g.module := by
  unfold statements
  rw [List.mem_flatMap]
  constructor
  · rintro ⟨g, hg, hs⟩
    obtain ⟨c, hc, rfl⟩ := List.mem_map.mp hs
    exact ⟨g, hg, hc, rfl⟩
  · rintro ⟨g, hg, hc, hm⟩
    exact ⟨g, hg, List.mem_map.mpr ⟨s.clause, hc, by rw [← hm]⟩⟩

/-- The lines of a block are read as its clauses exactly when all strings stand for the modules. -/
theorem readImports_lines_iff {b : ImportBlock} (hnodup : b.modules.Nodup)
    (hadmits : ∀ g ∈ b.groups, ∀ c ∈ g.clauses, c.Admits x)
    (hquote : ∀ m ∈ b.modules, b.quote.char ∉ m.toList) :
    x.readImports strings b.lines =
        some (b.groups.map fun g => .ofClauses g.module g.clauses) ↔
      ∀ m ∈ b.modules, strings.value? m = some m := by
  have hmodule (g : ModuleImports) (hg : g ∈ b.groups) : g.module ∈ b.modules :=
    List.mem_map_of_mem hg
  have hstatements : ∀ s ∈ b.statements, s.clause.Admits x ∧ b.quote.char ∉ s.module.toList := by
    intro s hs
    obtain ⟨g, hg, hc, hm⟩ := (b.mem_statements_iff s).mp hs
    exact ⟨hadmits g hg _ hc, hm ▸ hquote _ (hmodule g hg)⟩
  -- the groups with the modules that are read
  let groups := b.groups.map fun g => ((strings.value? g.module).getD "", g.clauses)
  have hne : ∀ g ∈ groups, g.2 ≠ [] := by
    simpa [groups] using fun g _ => g.clauses_ne_nil
  have hgroups : b.statements.map (fun s => ⟨s.clause, (strings.value? s.module).getD ""⟩) =
      statementsOf groups := by
    simp [statements, ModuleImports.statements, statementsOf, groups, List.map_flatMap,
      List.flatMap_map, Function.comp_def]
  have hlines := mapM_read_eq_some_iff strings (fun s hs => (hstatements s hs).1)
    fun s hs => (hstatements s hs).2
  unfold Lexicon.readImports lines
  rw [Option.map_eq_some_iff]
  constructor
  · rintro ⟨read, hread, heq⟩
    obtain ⟨hsome, rfl⟩ := (hlines read).mp hread
    rw [hgroups] at heq
    have hlength : (byModule (statementsOf groups)).length = groups.length := by
      simpa [groups] using congrArg List.length heq
    have hfound :=
      (length_byModule hne).resolve_right (Nat.not_lt_of_le (Nat.le_of_eq hlength.symm))
    rw [hfound] at heq
    have hmodules := congrArg (List.map (·.module)) heq
    simp only [groups, List.map_map, Function.comp_def, ModuleBindings.ofClauses] at hmodules
    intro m hm
    obtain ⟨g, hg, rfl⟩ := List.mem_map.mp hm
    obtain ⟨c, hc⟩ := List.exists_mem_of_ne_nil _ g.clauses_ne_nil
    have hvalue := hsome ⟨c, g.module⟩ ((b.mem_statements_iff _).mpr ⟨g, hg, hc, rfl⟩)
    obtain ⟨m, hm⟩ := Option.isSome_iff_exists.mp hvalue
    have hsame := List.map_inj_left.mp hmodules g hg
    rw [hm, Option.getD_some] at hsame
    rw [hm, hsame]
  · intro h
    have hsame : groups = b.groups.map fun g => (g.module, g.clauses) := by
      apply List.map_congr_left
      intro g hg
      rw [h _ (hmodule g hg), Option.getD_some]
    refine ⟨_, (hlines _).mpr ⟨?_, rfl⟩, ?_⟩
    · intro s hs
      obtain ⟨g, hg, -, hm⟩ := (b.mem_statements_iff s).mp hs
      rw [hm, h _ (hmodule g hg)]
      rfl
    · have hnodup' : (groups.map (·.1)).Nodup := by
        rw [hsame, List.map_map]
        exact hnodup
      rw [hgroups, byModule_statementsOf hne hnodup', hsame, List.map_map]
      rfl

end ImportBlock

end Groups

namespace Tracker
variable {x : Lexicon} {quote : Quote} {t : Tracker}

theorem ofClauses_ofEntries (h : t.WellNamed) (module : String) :
    ModuleBindings.ofClauses module (ModuleImports.ofEntries module t.imports).clauses =
      t.bindingsOf module := by
  have hstyle : ∀ e ∈ t.imports, e.style ≠ .sideEffect :=
    fun e he => h.style e.unmarked (List.mem_map.mpr ⟨e, he, rfl⟩)
  have hperm := ModuleImports.entries_ofEntries_perm module hstyle
  have hempty : (ModuleImports.ofEntries module t.imports).entries = [] ↔
      t.imports.all (·.module != module) = true := by
    rw [← List.length_eq_zero_iff, hperm.length_eq, List.length_eq_zero_iff,
      List.filter_eq_nil_iff, List.all_eq_true]
    simp
  have hclauses := ModuleImports.ofClauses_clauses (ModuleImports.ofEntries module t.imports)
  simp only [hempty] at hclauses
  exact hclauses

theorem readImports_lines_iff (h : t.WellNamed) (hprintable : t.Printable x quote)
    (strings : StringState) :
    x.readImports strings (ImportBlock.ofTracker t quote).lines = some t.bindings ↔
      ∀ m ∈ t.modules, strings.value? m = some m := by
  have hbindings : t.bindings = (ImportBlock.ofTracker t quote).groups.map
      fun g => .ofClauses g.module g.clauses := by
    rw [bindings, ImportBlock.ofTracker, List.map_map]
    exact List.map_congr_left fun m _ => (ofClauses_ofEntries h m).symm
  have hmodules := ImportBlock.modules_ofTracker t quote
  rw [hbindings, ← hmodules]
  apply ImportBlock.readImports_lines_iff
  · rw [hmodules]
    exact h.modules
  · intro g hg
    apply ModuleImports.admits_clauses
    intro e he
    have hentries : e ∈ (ImportBlock.ofTracker t quote).entries :=
      List.mem_flatMap.mpr ⟨g, hg, he⟩
    exact hprintable.names e ((ImportBlock.entries_ofTracker_perm h quote).mem_iff.mp hentries)
  · rw [hmodules]
    exact hprintable.modules

end Tracker

/-- The lines of an import block are read as exactly the imports that were registered, module by
module in the order of their first use and in each module by style in that order, if no module
contains a backslash or a line break, and are not if one does. What the lines are decides the
modules and what is bound in any case. -/
theorem imports_read_back_iff (x : Lexicon) (settings : Settings) (ops : List Tracker.Operation)
    (quote : Quote) (h : ((Tracker.ofSettings settings).run ops).Printable x quote) :
    let home := Tracker.ofSettings settings
    let t := home.run ops
    let lines := (ImportBlock.ofTracker t quote).lines
    (x.readImports .plain lines = some t.bindings ↔
      ∀ m ∈ t.modules, ∀ c ∈ m.toList, c ≠ '\\' ∧ c ≠ '\n' ∧ c ≠ '\r') ∧
    t.modules = (((Tracker.registered ops).filter fun s => !home.declares s).filterMap
      Symbol.module?).eraseDups ∧
    t.imports.map (fun e => (e.id, e.style)) =
      (firstsBy Symbol.id ((Tracker.registered ops).filter home.isImported)).map
        (fun s => (s.id, s.style)) ∧
    ∀ settings' ops' quote',
      let t' := (Tracker.ofSettings settings').run ops'
      t'.Printable x quote' → (ImportBlock.ofTracker t' quote').lines = lines →
        t'.modules = t.modules ∧ t'.bindings = t.bindings := by
  intro home t lines
  have hwell : t.WellNamed := (Tracker.wellNamed_ofSettings settings).run ops
  refine ⟨?_, ?_, ?_, ?_⟩
  · rw [Tracker.readImports_lines_iff hwell h .plain]
    simp only [StringState.value?_plain_eq_iff, StringState.isOrdinary_iff]
  · exact Tracker.modules_run (Tracker.wellNamed_ofSettings settings) rfl ops
  · rw [← Tracker.entries_run rfl ops, Tracker.unmarked, List.map_map]
    rfl
  · intro settings' ops' quote' t' h' hlines
    have hwell' : t'.WellNamed := (Tracker.wellNamed_ofSettings settings').run ops'
    -- without escapes every string stands for the text between its quotes
    have hread := (Tracker.readImports_lines_iff hwell h .verbatim).mpr
      fun m _ => StringState.value?_verbatim m
    have hread' := (Tracker.readImports_lines_iff hwell' h' .verbatim).mpr
      fun m _ => StringState.value?_verbatim m
    have hbindings : t'.bindings = t.bindings := by
      rw [hlines] at hread'
      exact Option.some.inj (hread'.symm.trans hread)
    refine ⟨?_, hbindings⟩
    rw [← t'.module_bindings, hbindings, t.module_bindings]

/-- The reserved words, and no letters outside ASCII. -/
def Lexicon.ascii : Lexicon := ⟨fun _ => false, fun _ => false, Settings.typeScriptWords⟩

/-- Names that are read as marks elsewhere, in all forms of statements. -/
theorem imports_read_back_iff_contextual_names :
    let ops : List Tracker.Operation :=
      [.register (.sideEffect "./load"), .register (.star "as" "./a"),
        .register (Symbol.defaultExport "from" "./b").asType,
        .register (.defaultExport "type" "./c"), .register (Symbol.named "of" "./c").asType,
        .register ((Symbol.named "as" "./c").withName "is"),
        .register (Symbol.named "type" "./d").asType]
    let t := (Tracker.ofSettings .typeScript).run ops
    let lines := (ImportBlock.ofTracker t .single).lines
    lines = ["import './load';", "import * as as from './a';", "import type from from './b';",
      "import type, \x7b type of, as as is \x7d from './c';",
      "import type \x7b type as type1 \x7d from './d';"] ∧
    t.Printable .ascii .single ∧ Lexicon.ascii.readImports .plain lines = some t.bindings ∧
    t.bindings =
      [⟨"./load", [], [], [], 1⟩, ⟨"./a", [⟨"as", false⟩], [], [], 0⟩,
        ⟨"./b", [], [⟨"from", true⟩], [], 0⟩,
        ⟨"./c", [], [⟨"type", false⟩], [⟨"of", "of", true⟩, ⟨"as", "is", false⟩], 0⟩,
        ⟨"./d", [], [], [⟨"type", "type1", true⟩], 0⟩] := by
  intro ops t lines
  have hmodules : t.modules = ["./load", "./a", "./b", "./c", "./d"] := by decide +kernel
  have hprintable : t.Printable .ascii .single := by
    constructor
    · decide +kernel
    · rw [hmodules]
      decide
  refine ⟨by decide +kernel, hprintable, ?_, by decide +kernel⟩
  apply (imports_read_back_iff .ascii .typeScript ops .single hprintable).1.mpr
  have hordinary : ∀ m ∈ t.modules, m.toList.all StringState.isOrdinary = true := by
    rw [hmodules]
    decide
  intro m hm c hc
  exact (StringState.isOrdinary_iff c).mp (List.all_eq_true.mp (hordinary m hm) c hc)

/-- A backslash in a module is read as the beginning of an escape, a line break as the end of the
line, and a reserved word not as a name, although the text has no quote and both are identifiers. -/
theorem imports_misread_unescaped :
    let misread (s : Symbol) : Prop :=
      let t := (Tracker.ofSettings .standard).run [.register s]
      (∀ e ∈ t.imports, isIdentifier e.name = true ∧ isIdentifier e.localName = true) ∧
      (∀ m ∈ t.modules, Quote.double.char ∉ m.toList) ∧
      Lexicon.ascii.readImports .plain (ImportBlock.ofTracker t .double).lines ≠
        some t.bindings
    misread (.named "A" "lib\\new") ∧ misread (.named "A" "lib\nnew") ∧
      misread (.named "default" "./a") := by
  decide +kernel

end TypeScriptComposer
