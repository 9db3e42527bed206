import TypeScriptComposer.Proofs.Tracker.Register

/-!
# The invariant of a tracker

Whatever is defined and registered, and in whatever order, no two entries of a tracker have the same
symbol or the same name, and no entry has a name that the file declares or reserves.
-/

set_option autoImplicit false

namespace TypeScriptComposer

namespace Tracker

/-- Entries are those of distinct symbols that can be imported, under distinct names that the file
neither declares nor reserves, and from modules that are noted once each. -/
structure WellNamed (t : Tracker) : Prop where
  ids : (t.unmarked.map (·.id)).Nodup
  names : (t.unmarked.map (·.localName)).Nodup
  free : ∀ e ∈ t.unmarked, e.localName ∉ t.declared ∧ e.localName ∉ t.reserved
  modules : t.modules.Nodup
  listed : ∀ e ∈ t.unmarked, e.module ∈ t.modules
  style : ∀ e ∈ t.unmarked, e.style ≠ .sideEffect

theorem wellNamed_ofSettings (settings : Settings) : (ofSettings settings).WellNamed := by
  constructor <;> simp [ofSettings, unmarked]

theorem isTaken_iff_unmarked (t : Tracker) (name : String) :
    t.isTaken name = true ↔ name ∈ t.declared ∨ name ∈ t.unmarked.map (·.localName) := by
  rw [isTaken_iff, localNames_unmarked]

theorem WellNamed.define {t : Tracker} (h : t.WellNamed) (name : String) :
    (t.define name).2.WellNamed := by
  rcases t.define_cases name with ⟨-, heq⟩ | ⟨hfree, heq⟩
  · rwa [heq]
  · rw [heq]
    refine ⟨h.ids, h.names, ?_, h.modules, h.listed, h.style⟩
    intro e he
    obtain ⟨hdecl, hres⟩ := h.free e he
    refine ⟨?_, hres⟩
    intro hmem
    rcases List.mem_append.mp hmem with hmem | hmem
    · exact hdecl hmem
    · have hname : e.localName = name := List.mem_singleton.mp hmem
      have htaken : t.isTaken name = true :=
        (t.isTaken_iff_unmarked name).mpr (Or.inr (List.mem_map.mpr ⟨e, he, hname⟩))
      simp [htaken] at hfree

theorem modules_register {t : Tracker} (h : ∀ e ∈ t.unmarked, e.module ∈ t.modules) (s : Symbol) :
    (t.register s).2.modules = if t.declares s = true ∨ s.module?.getD "" ∈ t.modules
      then t.modules else t.modules ++ [s.module?.getD ""] := by
  rcases t.register_cases s with ⟨hdecl, heq⟩ | ⟨m, horigin, hstyle, heq⟩ | ⟨e, himp, hentry, heq⟩ |
    ⟨m, horigin, himp, -, heq⟩
  · simp [heq, hdecl]
  · have hdecl : t.declares s = false := by simp [declares, Symbol.isLocal, horigin, hstyle]
    simp [heq, modules_addModule, hdecl, Symbol.module?, Origin.module?, horigin]
  · have hmem : s.module?.getD "" ∈ t.modules := by
      have he : e.id = s.id := by simpa using List.find?_some hentry
      have hlisted := h e.unmarked (List.mem_map.mpr ⟨e, List.mem_of_find?_eq_some hentry, rfl⟩)
      have hmodule : Origin.module e.module = .module (s.module?.getD "") := by
        rw [← isImported_module himp]
        exact congrArg SymbolId.origin he
      rw [← Origin.module.inj hmodule]
      exact hlisted
    have hkeep : (if s.typeOnly then t else t.needValue s.id).modules = t.modules := by
      split <;> rfl
    simp [heq, hmem, hkeep]
  · have hdecl := ((t.isImported_iff s).mp himp).1
    simp [heq, addImport, modules_addModule, hdecl, Symbol.module?, Origin.module?, horigin]

theorem importName?_eq_none_iff (t : Tracker) (id : SymbolId) :
    t.importName? id = none ↔ id ∉ t.unmarked.map (·.id) := by
  simp [importName?_eq]

theorem WellNamed.importName?_of_mem {t : Tracker} (h : t.WellNamed) {e : ImportEntry}
    (he : e ∈ t.unmarked) : t.importName? e.id = some e.localName := by
  rw [importName?_eq]
  cases hfind : t.unmarked.find? (·.id == e.id) with
  | none => simpa using List.find?_eq_none.mp hfind e he
  | some e' =>
    have hid : e'.id = e.id := by simpa using List.find?_some hfind
    have heq := List.inj_on_of_nodup_map h.ids (List.mem_of_find?_eq_some hfind) he hid
    rw [heq]
    rfl

theorem mem_localNames_of_importName? {t : Tracker} {id : SymbolId} {name : String}
    (h : t.importName? id = some name) : name ∈ t.unmarked.map (·.localName) := by
  rw [importName?_eq] at h
  obtain ⟨e, hfind, hname⟩ := Option.map_eq_some_iff.mp h
  exact List.mem_map.mpr ⟨e, List.mem_of_find?_eq_some hfind, hname⟩

theorem register_of_declares {t : Tracker} {s : Symbol} (h : t.declares s = true) :
    t.register s = (s.value, (t.define s.value).2) := by
  rcases t.register_cases s with ⟨-, heq⟩ | ⟨m, horigin, hstyle, -⟩ | ⟨e, himp, -, -⟩ |
    ⟨m, -, himp, -, -⟩
  · exact heq
  · simp [declares, Symbol.isLocal, horigin, hstyle] at h
  · simp [isImported_iff, h] at himp
  · simp [isImported_iff, h] at himp

theorem WellNamed.nodup_modules_register {t : Tracker} (h : t.WellNamed) (s : Symbol) :
    (t.register s).2.modules.Nodup := by
  rw [modules_register h.listed]
  split
  · exact h.modules
  · rename_i hnew
    rw [← List.concat_eq_append]
    exact List.Nodup.concat (fun hm => hnew (Or.inr hm)) h.modules

theorem WellNamed.mem_modules_register {t : Tracker} (h : t.WellNamed) {s : Symbol}
    (hdecl : t.declares s ≠ true) {m : String} (hm : m ∈ t.modules ∨ m = s.module?.getD "") :
    m ∈ (t.register s).2.modules := by
  rw [modules_register h.listed]
  rcases hm with hm | rfl
  · split
    · exact hm
    · exact List.mem_append_left _ hm
  · split
    · rename_i hold
      exact hold.resolve_left hdecl
    · simp

theorem freeName_not_mem (t : Tracker) (preferred : String) :
    t.freeName preferred ∉ t.declared ∧ t.freeName preferred ∉ t.unmarked.map (·.localName) ∧
      t.freeName preferred ∉ t.reserved := by
  have hfree : t.freeName preferred ∉ t.unavailable := (t.leastFree_freeName preferred).not_mem
  simp only [unavailable, List.mem_append, not_or, ← localNames_unmarked] at hfree
  exact ⟨hfree.1.1, hfree.1.2, hfree.2⟩

theorem WellNamed.register {t : Tracker} (h : t.WellNamed) (s : Symbol) :
    (t.register s).2.WellNamed := by
  by_cases hdecl : t.declares s = true
  · rw [register_of_declares hdecl]
    exact h.define s.value
  have hdeclared : (t.register s).2.declared = t.declared :=
    declared_register fun hd => (hdecl hd).elim
  have hlisted : ∀ e ∈ t.unmarked, e.module ∈ (t.register s).2.modules :=
    fun e he => h.mem_modules_register hdecl (Or.inl (h.listed e he))
  have hunmarked := unmarked_register t s
  by_cases hnew : t.isImported s = true ∧ t.importName? s.id = none
  · -- the entry is new, and so are its symbol and its name
    rw [if_pos hnew] at hunmarked
    have hid : s.id ∉ t.unmarked.map (·.id) := (t.importName?_eq_none_iff s.id).mp hnew.2
    obtain ⟨hfreeDecl, hfreeName, hfreeRes⟩ := t.freeName_not_mem (preferred s)
    refine ⟨?_, ?_, ?_, h.nodup_modules_register s, ?_, ?_⟩ <;> rw [hunmarked]
    · rw [List.map_append, List.map_singleton, id_entry hnew.1, ← List.concat_eq_append]
      exact List.Nodup.concat hid h.ids
    · rw [List.map_append, List.map_singleton, ← List.concat_eq_append]
      exact List.Nodup.concat hfreeName h.names
    · rw [hdeclared, reserved_register]
      exact List.forall_mem_append.mpr ⟨h.free, by simpa using ⟨hfreeDecl, hfreeRes⟩⟩
    · have hlast := h.mem_modules_register hdecl (Or.inr rfl)
      exact List.forall_mem_append.mpr ⟨hlisted, by simpa [Symbol.entry] using hlast⟩
    · have hstyle := ((t.isImported_iff s).mp hnew.1).2
      exact List.forall_mem_append.mpr ⟨h.style, by simpa using hstyle⟩
  · rw [if_neg hnew] at hunmarked
    refine ⟨?_, ?_, ?_, h.nodup_modules_register s, ?_, ?_⟩ <;> rw [hunmarked]
    · exact h.ids
    · exact h.names
    · rw [hdeclared, reserved_register]
      exact h.free
    · exact hlisted
    · exact h.style

theorem WellNamed.step {t : Tracker} (h : t.WellNamed) (op : Operation) :
    (t.step op).WellNamed := by
  cases op with
  | define name => exact h.define name
  | register s => exact h.register s

theorem WellNamed.run {t : Tracker} (h : t.WellNamed) (ops : List Operation) :
    (t.run ops).WellNamed := by
  unfold Tracker.run
  induction ops generalizing t with
  | nil => exact h
  | cons op ops ih => exact ih (h.step op)

theorem WellNamed.registerAll {t : Tracker} (h : t.WellNamed) (ss : List Symbol) :
    (t.registerAll ss).WellNamed := by
  rw [registerAll_eq_run]
  exact h.run _

end Tracker

end TypeScriptComposer
