import TypeScriptComposer.Proofs.Tracker.Tables

/-!
# What holds after any operations

Names are claimed and symbols registered in any order, also such that an import takes a name that
is claimed for the file later. However that goes, the names and their owners stay inverse to each
other, the entries are those of the symbols from modules that have a name, no entry has a name that
was claimed or is reserved, and the modules are those of the entries and those that are loaded.
-/

set_option autoImplicit false

namespace TypeScriptComposer

/-- When no two elements have the same key, looking for a key finds the element that has it. -/
theorem find?_key_eq_some_iff {α β : Type} [BEq β] [LawfulBEq β] {key : α → β} {as : List α}
    (h : (as.map key).Nodup) {b : β} {a : α} :
    as.find? (key · == b) = some a ↔ a ∈ as ∧ key a = b := by
  constructor
  · intro hfind
    exact ⟨List.mem_of_find?_eq_some hfind, by simpa using List.find?_some hfind⟩
  · rintro ⟨ha, rfl⟩
    cases hfind : as.find? (key · == key a) with
    | none => simpa using List.find?_eq_none.mp hfind a ha
    | some a' =>
      have hkey : key a' = key a := by simpa using List.find?_some hfind
      rw [List.inj_on_of_nodup_map h (List.mem_of_find?_eq_some hfind) ha hkey]

namespace Tracker
variable {t : Tracker}

theorem WellNamed.nodup_ids (h : t.WellNamed) : (t.imports.map (·.id)).Nodup := by
  have hids := h.ids
  rw [unmarked, List.map_map] at hids
  exact hids

theorem WellNamed.nodup_localNames (h : t.WellNamed) : (t.imports.map (·.localName)).Nodup := by
  rw [← localNames_unmarked]
  exact h.names

theorem WellNamed.free_of_mem (h : t.WellNamed) {e : ImportEntry} (he : e ∈ t.imports) :
    e.localName ∉ t.declared ∧ e.localName ∉ t.reserved :=
  h.free e.unmarked (List.mem_map_of_mem he)

theorem WellNamed.entry?_eq_some_iff (h : t.WellNamed) {id : SymbolId} {e : ImportEntry} :
    t.entry? id = some e ↔ e ∈ t.imports ∧ e.id = id :=
  find?_key_eq_some_iff h.nodup_ids

/-- A name belongs to a declaration of the file or to an entry. -/
def Names (t : Tracker) (id : SymbolId) (name : String) : Prop :=
  (name ∈ t.declared ∧ id = ⟨.thisFile, name⟩) ∨ ∃ e ∈ t.imports, e.localName = name ∧ e.id = id

theorem WellNamed.nameOf?_eq_some_iff (h : t.WellNamed) {id : SymbolId} {name : String} :
    t.nameOf? id = some name ↔ t.Names id name := by
  unfold Names
  obtain ⟨origin, value⟩ := id
  cases origin with
  | thisFile =>
    have hentry : ¬ ∃ e ∈ t.imports, e.localName = name ∧ e.id = ⟨.thisFile, value⟩ := by
      simp [ImportEntry.id]
    have hname : t.nameOf? ⟨.thisFile, value⟩ = some name ↔ value ∈ t.declared ∧ value = name := by
      simp [nameOf?]
    rw [hname, or_iff_left hentry]
    constructor
    · rintro ⟨hvalue, rfl⟩
      exact ⟨hvalue, rfl⟩
    · rintro ⟨hvalue, ⟨⟩⟩
      exact ⟨hvalue, rfl⟩
  | module m =>
    have hname : t.nameOf? ⟨.module m, value⟩ = some name ↔
        ∃ e, (e ∈ t.imports ∧ e.id = ⟨.module m, value⟩) ∧ e.localName = name := by
      simp [nameOf?, h.entry?_eq_some_iff]
    rw [hname, or_iff_right (by simp)]
    constructor
    · rintro ⟨e, ⟨he, hid⟩, hlocal⟩
      exact ⟨e, he, hlocal, hid⟩
    · rintro ⟨e, he, hlocal, hid⟩
      exact ⟨e, ⟨he, hid⟩, hlocal⟩

theorem WellNamed.owner?_eq_some_iff (h : t.WellNamed) {id : SymbolId} {name : String} :
    t.owner? name = some id ↔ t.Names id name := by
  unfold Names owner?
  by_cases hname : name ∈ t.declared
  · have hentry : ¬ ∃ e ∈ t.imports, e.localName = name ∧ e.id = id := by
      rintro ⟨e, he, rfl, -⟩
      exact (h.free_of_mem he).1 hname
    rw [or_iff_left hentry]
    simp [hname, eq_comm]
  · simp [hname, find?_key_eq_some_iff h.nodup_localNames, and_assoc]

theorem declared_subset_define (t : Tracker) (name : String) :
    t.declared ⊆ (t.define name).2.declared := by
  rcases t.define_cases name with ⟨-, h⟩ | ⟨-, h⟩
  · rw [h]
    exact List.Subset.refl _
  · rw [h]
    exact List.subset_append_left _ _

theorem declared_subset_step (t : Tracker) (op : Operation) :
    t.declared ⊆ (t.step op).declared := by
  cases op with
  | define name => exact t.declared_subset_define name
  | register s =>
    by_cases hdecl : t.declares s = true
    · rw [step, register_of_declares hdecl]
      exact t.declared_subset_define s.value
    · rw [step, declared_register fun h => (hdecl h).elim]
      exact List.Subset.refl _

theorem declared_subset_run (t : Tracker) (ops : List Operation) :
    t.declared ⊆ (t.run ops).declared := by
  unfold Tracker.run
  induction ops generalizing t with
  | nil => exact List.Subset.refl _
  | cons op ops ih => exact List.Subset.trans (t.declared_subset_step op) (ih (t.step op))

theorem reserved_run (t : Tracker) (ops : List Operation) :
    (t.run ops).reserved = t.reserved := by
  unfold Tracker.run
  induction ops generalizing t with
  | nil => rfl
  | cons op ops ih =>
    rw [List.foldl_cons, ih]
    cases op with
    | define name => exact t.reserved_define name
    | register s => exact t.reserved_register s

/-- A name that is claimed is among those that the file declares. -/
theorem mem_declared_of_define {name : String} (h : (t.define name).1 = true) :
    name ∈ (t.define name).2.declared := by
  unfold define owner? at *
  by_cases hname : name ∈ t.declared
  · simp [hname]
  · -- an entry has the name only under the symbol of a module, so the claim would have failed
    have hno : ∀ e : ImportEntry, (e.id == ⟨.thisFile, name⟩) = false := by
      simp [ImportEntry.id]
    cases hentry : t.imports.find? (·.localName == name) with
    | none => simp [hname]
    | some e => simp [hname, hentry, hno] at h

theorem mem_declared_of_claimed {before : List Operation} {name : String}
    (h : ((t.run before).define name).1 = true) (after : List Operation) :
    name ∈ (t.run (before ++ .define name :: after)).declared := by
  rw [run_append]
  exact declared_subset_run _ after (mem_declared_of_define h)

/-- The module that an operation only loads. -/
def Operation.loaded? : Operation → Option String
  | .define _ => none
  | .register s => if s.style = .sideEffect then s.module? else none

theorem mem_modules_addModule (t : Tracker) (m m' : String) :
    m' ∈ (t.addModule m).modules ↔ m' ∈ t.modules ∨ m' = m := by
  rw [modules_addModule]
  split
  · rename_i hm
    exact ⟨Or.inl, fun h => h.elim id fun h => h ▸ hm⟩
  · simp

theorem Operation.loaded?_eq_some_iff {op : Operation} {m : String} : op.loaded? = some m ↔
    ∃ s, op = .register s ∧ s.style = .sideEffect ∧ s.module? = some m := by
  cases op with
  | define name => simp [loaded?]
  | register s => simp [loaded?]

/-- The modules are those of the entries and the `loaded` ones. -/
def Accounts (loaded : List String) (t : Tracker) : Prop :=
  ∀ m, m ∈ t.modules ↔ (∃ e ∈ t.unmarked, e.module = m) ∨ m ∈ loaded

variable {loaded : List String}

theorem Accounts.define (h : t.Accounts loaded) (name : String) :
    (t.define name).2.Accounts loaded := by
  intro m
  rw [modules_define, unmarked, imports_define]
  exact h m

/-- A step notes a module when it loads it or enters a symbol from it. -/
theorem Accounts.register (h : t.Accounts loaded) (s : Symbol) :
    (t.register s).2.Accounts (loaded ++ (Operation.register s).loaded?.toList) := by
  rcases t.register_cases s with ⟨hdecl, heq⟩ | ⟨m, horigin, hstyle, heq⟩ | ⟨e, himp, -, heq⟩ |
    ⟨m, horigin, himp, hnew, heq⟩
  · have hloaded : (Operation.register s).loaded? = none := by
      rcases (t.declares_eq_true_iff s).mp hdecl with hlocal | ⟨-, hstyle⟩
      · have horigin : s.origin = .thisFile := by simpa [Symbol.isLocal] using hlocal
        simp [Operation.loaded?, Symbol.module?, Origin.module?, horigin]
      · simp [Operation.loaded?, hstyle]
    rw [hloaded, Option.toList_none, List.append_nil, heq]
    exact h.define s.value
  · have hloaded : (Operation.register s).loaded? = some m := by
      simp [Operation.loaded?, hstyle, Symbol.module?, Origin.module?, horigin]
    intro m'
    simp only [heq, hloaded, unmarked, imports_addModule, mem_modules_addModule]
    rw [h m', Option.toList_some, List.mem_append, List.mem_singleton, or_assoc]
    rfl
  · have hstyle := ((t.isImported_iff s).mp himp).2
    have hloaded : (Operation.register s).loaded? = none := by simp [Operation.loaded?, hstyle]
    rw [hloaded, Option.toList_none, List.append_nil, heq]
    dsimp only
    split
    · exact h
    · intro m'
      rw [unmarked_needValue]
      exact h m'
  · have hstyle := ((t.isImported_iff s).mp himp).2
    have hloaded : (Operation.register s).loaded? = none := by simp [Operation.loaded?, hstyle]
    have hunmarked := t.unmarked_register s
    rw [if_pos ⟨himp, by simp [importName?, hnew]⟩] at hunmarked
    have hmodules : (t.register s).2.modules = (t.addModule m).modules := by rw [heq]; rfl
    have hentry (name : String) : (s.entry name).module = m := by
      simp [Symbol.entry, Symbol.module?, Origin.module?, horigin]
    intro m'
    rw [hloaded, Option.toList_none, List.append_nil, hunmarked, hmodules, mem_modules_addModule,
      h m', or_right_comm]
    simp [or_and_right, exists_or, hentry, eq_comm]

theorem Accounts.step (h : t.Accounts loaded) (op : Operation) :
    (t.step op).Accounts (loaded ++ op.loaded?.toList) := by
  cases op with
  | define name =>
    rw [Operation.loaded?, Option.toList_none, List.append_nil]
    exact h.define name
  | register s => exact h.register s

theorem Accounts.run (h : t.Accounts loaded) (ops : List Operation) :
    (t.run ops).Accounts (loaded ++ ops.filterMap (·.loaded?)) := by
  unfold Tracker.run
  induction ops generalizing t loaded with
  | nil => simpa using h
  | cons op ops ih =>
    have hops := ih (h.step op)
    have hlist : (op :: ops).filterMap (·.loaded?) =
        op.loaded?.toList ++ ops.filterMap (·.loaded?) := by
      cases hop : op.loaded? <;> simp [hop]
    rw [List.foldl_cons, hlist, ← List.append_assoc]
    exact hops

/-- Whatever is claimed and registered, and in whatever order: names and owners are inverse to each
other; a symbol has an entry exactly when it comes from a module and has a name, and the entry is
made of these, so that no two entries have the same symbol or the same name; no entry has a
reserved name or one that was ever claimed for the file; and the modules are those of the entries
and those of the symbols that were registered for side effects. All this is said of what is found in
the tracker, and tables that every operation updates hold the same. -/
theorem names_consistent_run (settings : Settings) (ops : List Operation) :
    let start := ofSettings settings
    let t := start.run ops
    ((Tables.ofSettings settings).run ops).Holds t ∧
    (∀ name id, t.owner? name = some id ↔ t.nameOf? id = some name) ∧
    (∀ id, (∃ e, t.entry? id = some e) ↔
      (∃ m, id.origin = .module m) ∧ ∃ name, t.nameOf? id = some name) ∧
    (∀ id e, t.entry? id = some e →
      id = ⟨.module e.module, e.name⟩ ∧ t.nameOf? id = some e.localName) ∧
    (∀ e ∈ t.imports, t.entry? e.id = some e) ∧
    (t.imports.map (·.id)).Nodup ∧ (t.imports.map (·.localName)).Nodup ∧
    (∀ e ∈ t.imports, e.localName ∉ settings.reservedWords ∧
      ∀ before after, ops = before ++ .define e.localName :: after →
        ((start.run before).define e.localName).1 = false) ∧
    ∀ m, m ∈ t.modules ↔ (∃ e ∈ t.imports, e.module = m) ∨
      ∃ s, .register s ∈ ops ∧ s.style = .sideEffect ∧ s.module? = some m := by
  intro start t
  have h : t.WellNamed := (wellNamed_ofSettings settings).run ops
  refine ⟨(Tables.holds_ofSettings settings).run ops, ?_, ?_, ?_, ?_, h.nodup_ids,
    h.nodup_localNames, ?_, ?_⟩
  · intro name id
    rw [h.owner?_eq_some_iff, h.nameOf?_eq_some_iff]
  · intro id
    obtain ⟨origin, value⟩ := id
    cases origin with
    | thisFile => simp [h.entry?_eq_some_iff, ImportEntry.id]
    | module m => simp [nameOf?]
  · intro id e he
    obtain ⟨hmem, hid⟩ := h.entry?_eq_some_iff.mp he
    exact ⟨hid.symm, h.nameOf?_eq_some_iff.mpr (Or.inr ⟨e, hmem, rfl, hid⟩)⟩
  · intro e he
    exact h.entry?_eq_some_iff.mpr ⟨he, rfl⟩
  · intro e he
    obtain ⟨hdeclared, hreserved⟩ := h.free_of_mem he
    refine ⟨?_, ?_⟩
    · rw [reserved_run] at hreserved
      exact hreserved
    · intro before after hops
      by_contra hclaimed
      apply hdeclared
      have hmem := mem_declared_of_claimed (Bool.not_eq_false _ ▸ hclaimed) after
      rwa [← hops] at hmem
  · intro m
    have hstart : start.Accounts [] := by simp [Accounts, start, ofSettings, unmarked]
    have haccounts : t.Accounts (ops.filterMap (·.loaded?)) := hstart.run ops
    have hentries : (∃ e ∈ t.unmarked, e.module = m) ↔ ∃ e ∈ t.imports, e.module = m := by
      simp [unmarked, ImportEntry.unmarked]
    have hloads : m ∈ ops.filterMap (·.loaded?) ↔
        ∃ s, .register s ∈ ops ∧ s.style = .sideEffect ∧ s.module? = some m := by
      rw [List.mem_filterMap]
      constructor
      · rintro ⟨op, hop, hloaded⟩
        obtain ⟨s, rfl, hload⟩ := Operation.loaded?_eq_some_iff.mp hloaded
        exact ⟨s, hop, hload⟩
      · rintro ⟨s, hs, hload⟩
        exact ⟨.register s, hs, Operation.loaded?_eq_some_iff.mpr ⟨s, rfl, hload⟩⟩
    rw [haccounts m, hentries, hloads]

/-- An import that came first keeps its name; the file then declares the same name in vain. -/
theorem names_consistent_run_import_first :
    let ops := [Operation.register (.named "A" "./a"), .define "A", .register (.sideEffect "./b")]
    let t := (ofSettings .standard).run ops
    t.owner? "A" = some ⟨.module "./a", "A"⟩ ∧ t.nameOf? ⟨.module "./a", "A"⟩ = some "A" ∧
    (((ofSettings .standard).run [.register (.named "A" "./a")]).define "A").1 = false ∧
    "./b" ∈ t.modules := by
  intro ops t
  obtain ⟨-, hinverse, -, -, -, -, -, hfree, hmodules⟩ := names_consistent_run .standard ops
  have howner : t.owner? "A" = some ⟨.module "./a", "A"⟩ := by decide +kernel
  have himports : t.imports = [⟨"./a", "A", "A", .named, false⟩] := by decide +kernel
  refine ⟨howner, (hinverse "A" _).mp howner, ?_, ?_⟩
  · exact (hfree ⟨"./a", "A", "A", .named, false⟩ (by simp [t, himports])).2
      [.register (.named "A" "./a")] [.register (.sideEffect "./b")] rfl
  · exact (hmodules "./b").mpr (Or.inr ⟨.sideEffect "./b", by simp [ops], rfl, rfl⟩)

end Tracker

end TypeScriptComposer
