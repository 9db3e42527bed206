import Mathlib.Data.List.Flatten
import TypeScriptComposer.ImportBlock
import TypeScriptComposer.Proofs.Tracker.Stability

/-!
# How an import block grows

What is registered later leaves the entries where they are and the modules in their order. It adds
new ones behind them and takes type marks away, those of the entries that it uses as values. The
block regroups the entries by module and style, and there the former ones keep their order too.
-/

set_option autoImplicit false

namespace TypeScriptComposer

namespace Tracker
variable {t : Tracker}

/-- An entry after the operations: it has its mark if they need its symbol as a type only. -/
def entryAfter (t : Tracker) (ops : List Operation) (e : ImportEntry) : ImportEntry :=
  e.usedAs ((t.registrations e.id ops).all (·.typeOnly))

theorem WellNamed.prefix_imports_run (h : t.WellNamed) (ops : List Operation) :
    t.imports.map (t.entryAfter ops) <+: (t.run ops).imports := by
  rw [List.prefix_iff_getElem?]
  intro i hi
  have hlt : i < t.imports.length := by simpa using hi
  rw [h.getElem?_imports_run (List.getElem?_eq_getElem hlt), List.getElem_map]
  rfl

theorem prefix_modules_step (t : Tracker) (op : Operation) : t.modules <+: (t.step op).modules := by
  have hadd (m : String) : t.modules <+: (t.addModule m).modules := by
    rw [modules_addModule]
    split
    · exact List.prefix_rfl
    · exact List.prefix_append _ _
  cases op with
  | define name =>
    have hsame : (t.step (.define name)).modules = t.modules := modules_define t name
    simp only [hsame, List.prefix_rfl]
  | register s =>
    rw [step]
    rcases t.register_cases s with ⟨-, heq⟩ | ⟨m, -, -, heq⟩ | ⟨e, -, -, heq⟩ | ⟨m, -, -, -, heq⟩
    · simp only [heq, modules_define, List.prefix_rfl]
    · rw [heq]
      exact hadd m
    · rw [heq]
      dsimp only
      split
      · exact List.prefix_rfl
      · exact List.prefix_rfl
    · rw [heq]
      exact hadd m

theorem prefix_modules_run (t : Tracker) (ops : List Operation) :
    t.modules <+: (t.run ops).modules := by
  unfold run
  induction ops generalizing t with
  | nil => exact List.prefix_rfl
  | cons op ops ih => exact (t.prefix_modules_step op).trans (ih (t.step op))

end Tracker

/-- The entries of a module keep their order within each style. -/
theorem ModuleImports.sublist_entries_ofEntries (m : String) {mark : ImportEntry → Bool}
    {es es' : List ImportEntry} (h : es.map (fun e => e.usedAs (mark e)) <+: es') :
    ((ofEntries m es).entries.map fun e => e.usedAs (mark e)).Sublist
      (ofEntries m es').entries := by
  have hfilter (style : ImportStyle) :
      ((es.filter fun e => e.module == m && e.style == style).map
        fun e => e.usedAs (mark e)).Sublist
        (es'.filter fun e => e.module == m && e.style == style) := by
    have hsame := (h.filter fun e => e.module == m && e.style == style).sublist
    rwa [List.filter_map] at hsame
  simp only [entries, ofEntries, List.map_append]
  exact ((hfilter .star).append (hfilter .default)).append (hfilter .named)

namespace ImportBlock
variable {t : Tracker}

theorem entries_ofTracker (t : Tracker) (quote : Quote) : (ofTracker t quote).entries =
    t.modules.flatMap fun m => (ModuleImports.ofEntries m t.imports).entries := by
  simp [entries, ofTracker, List.flatMap_map]

/-- The block after further operations: the former modules are the first ones, and the former
entries stand in their order among the others. -/
theorem grows_run (h : t.WellNamed) (quote : Quote) (ops : List Tracker.Operation) :
    (ofTracker t quote).modules <+: (ofTracker (t.run ops) quote).modules ∧
      ((ofTracker t quote).entries.map (t.entryAfter ops)).Sublist
        (ofTracker (t.run ops) quote).entries := by
  have hmodules := t.prefix_modules_run ops
  rw [modules_ofTracker, modules_ofTracker, entries_ofTracker, entries_ofTracker, List.map_flatMap]
  refine ⟨hmodules, ?_⟩
  obtain ⟨more, hmore⟩ := hmodules
  rw [← hmore, List.flatMap_append]
  apply List.Sublist.trans _ (List.sublist_append_left _ _)
  apply List.Sublist.flatMap_right
  intro m _
  exact ModuleImports.sublist_entries_ofEntries m (h.prefix_imports_run ops)

end ImportBlock

end TypeScriptComposer
