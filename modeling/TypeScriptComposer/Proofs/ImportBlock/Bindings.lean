import TypeScriptComposer.Proofs.ImportBlock.Reader

/-!
# What import statements bind

The statements that follow each other with the same module are the imports from it. What they bind
is listed by style, in their order; the type marker of a statement counts for all names between its
braces, and a statement that binds nothing counts by itself.
-/

set_option autoImplicit false

namespace TypeScriptComposer

/-- A name that a star or a default import binds, and whether it is marked as a type. -/
structure Binding where
  localName : String
  marked : Bool
  deriving DecidableEq

structure ModuleBindings where
  module : String
  stars : List Binding
  defaults : List Binding
  /-- The named imports, as types where their statement is marked or they are themselves. -/
  named : List ImportItem
  /-- How often the module is imported without binding anything. -/
  bare : Nat
  deriving DecidableEq

namespace ImportClause

def boundStars : ImportClause → List Binding
  | .star typeOnly l => [⟨l, typeOnly⟩]
  | _ => []

def boundDefaults : ImportClause → List Binding
  | .default typeOnly l => [⟨l, typeOnly⟩]
  | .defaultAndNamed l _ => [⟨l, false⟩]
  | _ => []

def boundNamed : ImportClause → List ImportItem
  | .named typeOnly items => items.map fun i => { i with typeOnly := typeOnly || i.typeOnly }
  | .defaultAndNamed _ items => items
  | _ => []

end ImportClause

def ModuleBindings.ofClauses (module : String) (clauses : List ImportClause) : ModuleBindings where
  module := module
  stars := clauses.flatMap (·.boundStars)
  defaults := clauses.flatMap (·.boundDefaults)
  named := clauses.flatMap (·.boundNamed)
  bare := clauses.count .nothing

def ImportEntry.binding (e : ImportEntry) : Binding := ⟨e.localName, e.typeOnly⟩

/-- The default imports. The first one shares a statement with the named imports, if there are any,
and that statement has no marker. -/
def defaultBindings : List ImportEntry → List ImportEntry → List Binding
  | [], _ => []
  | d :: more, named =>
    ⟨d.localName, d.typeOnly && named.isEmpty⟩ :: more.map (·.binding)

namespace ModuleImports

theorem boundNamed_namedClause (named : List ImportEntry) :
    (namedClause named).boundNamed = named.map markedItem := by
  unfold namedClause
  split
  · rename_i hall
    rw [ImportClause.boundNamed, List.map_map]
    apply List.map_congr_left
    intro e he
    have htype : e.typeOnly = true := List.all_eq_true.mp hall e he
    simp [plainItem, markedItem, htype]
  · simp [ImportClause.boundNamed]

theorem namedClause_cases (named : List ImportEntry) :
    (namedClause named).boundStars = [] ∧ (namedClause named).boundDefaults = [] ∧
      namedClause named ≠ .nothing := by
  unfold namedClause
  split <;> simp [ImportClause.boundStars, ImportClause.boundDefaults]

/-- The clauses of default imports alone bind these and nothing else. -/
theorem ofClauses_map_default (module : String) (defaults : List ImportEntry) :
    ModuleBindings.ofClauses module (defaults.map fun e => .default e.typeOnly e.localName) =
      ⟨module, [], defaults.map (·.binding), [], 0⟩ := by
  induction defaults with
  | nil => rfl
  | cons d defaults ih =>
    simp_all [ModuleBindings.ofClauses, ImportClause.boundStars, ImportClause.boundDefaults,
      ImportClause.boundNamed, ImportEntry.binding]

theorem ofClauses_map_star (module : String) (stars : List ImportEntry) :
    ModuleBindings.ofClauses module (stars.map fun e => .star e.typeOnly e.localName) =
      ⟨module, stars.map (·.binding), [], [], 0⟩ := by
  induction stars with
  | nil => rfl
  | cons e stars ih =>
    simp_all [ModuleBindings.ofClauses, ImportClause.boundStars, ImportClause.boundDefaults,
      ImportClause.boundNamed, ImportEntry.binding]

theorem ofClauses_defaultClauses (module : String) (defaults named : List ImportEntry) :
    ModuleBindings.ofClauses module (defaultClauses defaults named) =
      ⟨module, [], defaultBindings defaults named, named.map markedItem, 0⟩ := by
  fun_cases defaultClauses defaults named with
  | case1 => rfl
  | case2 named hne =>
    obtain ⟨hstars, hdefaults, hnothing⟩ := namedClause_cases named
    simp [ModuleBindings.ofClauses, hstars, hdefaults, hnothing, boundNamed_namedClause,
      defaultBindings]
  | case3 d more =>
    rw [ofClauses_map_default]
    simp [defaultBindings, ImportEntry.binding]
  | case4 d more named hne =>
    have hmore := ofClauses_map_default module more
    have hempty : named.isEmpty = false := by simpa using hne
    simp_all [ModuleBindings.ofClauses, ImportClause.boundStars, ImportClause.boundDefaults,
      ImportClause.boundNamed, defaultBindings]

theorem defaultClauses_eq_nil_iff (defaults named : List ImportEntry) :
    defaultClauses defaults named = [] ↔ defaults = [] ∧ named = [] := by
  fun_cases defaultClauses defaults named <;> simp_all

theorem ofClauses_append (module : String) (a b : List ImportClause) :
    ModuleBindings.ofClauses module (a ++ b) =
      let p := ModuleBindings.ofClauses module a
      let q := ModuleBindings.ofClauses module b
      ⟨module, p.stars ++ q.stars, p.defaults ++ q.defaults, p.named ++ q.named,
        p.bare + q.bare⟩ := by
  simp [ModuleBindings.ofClauses]

/-- The clauses that bind something. -/
def binding (g : ModuleImports) : List ImportClause :=
  (g.stars.map fun e => .star e.typeOnly e.localName) ++ defaultClauses g.defaults g.named

theorem clauses_eq (g : ModuleImports) :
    g.clauses = if g.entries = [] then [.nothing] else g.binding := by
  have hempty : g.binding.isEmpty = true ↔ g.entries = [] := by
    simp [binding, entries, defaultClauses_eq_nil_iff]
  simp only [← hempty]
  rfl

theorem clauses_ne_nil (g : ModuleImports) : g.clauses ≠ [] := by
  rw [clauses_eq]
  split
  · simp
  · rename_i hne
    simpa [binding, entries, defaultClauses_eq_nil_iff] using hne

/-- The clauses of a group bind its entries, each once. -/
theorem ofClauses_clauses (g : ModuleImports) :
    ModuleBindings.ofClauses g.module g.clauses =
      ⟨g.module, g.stars.map (·.binding), defaultBindings g.defaults g.named,
        g.named.map markedItem, if g.entries = [] then 1 else 0⟩ := by
  rw [clauses_eq]
  split
  · rename_i hempty
    obtain ⟨⟨hstars, hdefaults⟩, hnamed⟩ : (g.stars = [] ∧ g.defaults = []) ∧ g.named = [] := by
      simpa [entries, and_assoc] using hempty
    rw [hstars, hdefaults, hnamed]
    rfl
  · rw [binding, ofClauses_append, ofClauses_map_star, ofClauses_defaultClauses]
    simp

end ModuleImports

/-- Adds imports from a module in front of others. -/
def joinModule (module : String) (clauses : List ImportClause) :
    List (String × List ImportClause) → List (String × List ImportClause)
  | [] => [(module, clauses)]
  | (next, more) :: rest =>
    if module = next then (module, clauses ++ more) :: rest
    else (module, clauses) :: (next, more) :: rest

/-- The statements as groups of those that follow each other with one module. -/
def byModule : List ImportStatement → List (String × List ImportClause)
  | [] => []
  | s :: ss => joinModule s.module [s.clause] (byModule ss)

def statementsOf (groups : List (String × List ImportClause)) : List ImportStatement :=
  groups.flatMap fun (module, clauses) => clauses.map (⟨·, module⟩)

section Groups
variable {groups : List (String × List ImportClause)}

theorem joinModule_cons (module : String) (c : ImportClause) (clauses : List ImportClause)
    (groups : List (String × List ImportClause)) :
    joinModule module [c] (joinModule module clauses groups) =
      joinModule module (c :: clauses) groups := by
  fun_cases joinModule module clauses groups <;> simp_all [joinModule]

theorem byModule_append (module : String) {clauses : List ImportClause} (h : clauses ≠ [])
    (ss : List ImportStatement) : byModule (clauses.map (⟨·, module⟩) ++ ss) =
      joinModule module clauses (byModule ss) := by
  induction clauses with
  | nil => exact (h rfl).elim
  | cons c clauses ih =>
    cases clauses with
    | nil => rfl
    | cons d clauses =>
      rw [List.map_cons, List.cons_append, byModule, ih (by simp), joinModule_cons]

theorem byModule_statementsOf_cons {g : String × List ImportClause} (h : g.2 ≠ [])
    (groups : List (String × List ImportClause)) : byModule (statementsOf (g :: groups)) =
      joinModule g.1 g.2 (byModule (statementsOf groups)) := by
  rw [statementsOf, List.flatMap_cons, byModule_append g.1 h]
  rfl

/-- Groups of different modules are found again. -/
theorem byModule_statementsOf (hne : ∀ g ∈ groups, g.2 ≠ []) (hnodup : (groups.map (·.1)).Nodup) :
    byModule (statementsOf groups) = groups := by
  induction groups with
  | nil => rfl
  | cons g groups ih =>
    obtain ⟨hg, hgroups⟩ := List.forall_mem_cons.mp hne
    rw [List.map_cons, List.nodup_cons] at hnodup
    rw [byModule_statementsOf_cons hg, ih hgroups hnodup.2]
    cases groups with
    | nil => rfl
    | cons next rest =>
      have hdiffer : g.1 ≠ next.1 := fun heq => hnodup.1 (by simp [heq])
      rw [joinModule, if_neg hdiffer]

theorem joinModule_cases (module : String) (clauses : List ImportClause)
    (groups : List (String × List ImportClause)) :
    joinModule module clauses groups = (module, clauses) :: groups ∨
      (joinModule module clauses groups).length = groups.length := by
  fun_cases joinModule module clauses groups <;> simp

/-- Groups may be joined, but when none is lost they are all found again. -/
theorem length_byModule (hne : ∀ g ∈ groups, g.2 ≠ []) :
    byModule (statementsOf groups) = groups ∨
      (byModule (statementsOf groups)).length < groups.length := by
  induction groups with
  | nil => exact Or.inl rfl
  | cons g groups ih =>
    obtain ⟨hg, hgroups⟩ := List.forall_mem_cons.mp hne
    rw [byModule_statementsOf_cons hg, List.length_cons]
    rcases ih hgroups with heq | hlt
    · rw [heq]
      rcases joinModule_cases g.1 g.2 groups with hjoin | hjoin
      · exact Or.inl hjoin
      · exact Or.inr (by omega)
    · rcases joinModule_cases g.1 g.2 (byModule (statementsOf groups)) with hjoin | hjoin
      · rw [hjoin, List.length_cons]
        exact Or.inr (by omega)
      · exact Or.inr (by omega)

end Groups

end TypeScriptComposer
