import TypeScriptComposer.Proofs.Tracker.Recorded
import TypeScriptComposer.Proofs.Tracker.Stability

/-!
# The entries after a run

A tracker that has imported nothing has an entry for every symbol that a run registers for import,
and no other. The entry has the style of the first registration of its symbol, and is marked as a
type when all of them are type-only.
-/

set_option autoImplicit false

namespace TypeScriptComposer

namespace Tracker
variable {t : Tracker} {e : ImportEntry} {op : Operation}

theorem mem_registrations_iff (home : Tracker) (id : SymbolId) (ops : List Operation) (s : Symbol) :
    s ∈ home.registrations id ops ↔
      s ∈ registered ops ∧ home.isImported s = true ∧ s.id = id := by
  unfold registrations registered
  simp only [List.mem_filterMap]
  constructor
  · rintro ⟨op, hop, hs⟩
    cases op with
    | define name => simp at hs
    | register s' =>
      simp only [Option.ite_none_right_eq_some, Bool.and_eq_true, beq_iff_eq,
        Option.some.injEq] at hs
      obtain ⟨⟨himported, hid⟩, rfl⟩ := hs
      exact ⟨⟨_, hop, rfl⟩, himported, hid⟩
  · rintro ⟨⟨op, hop, hs⟩, himported, hid⟩
    refine ⟨op, hop, ?_⟩
    cases op with
    | define name => simp at hs
    | register s' =>
      obtain rfl : s' = s := Option.some.inj hs
      simp [himported, hid]

/-- Only the first registration of a symbol makes an entry. -/
theorem exists_new_of_length_lt (h : t.imports.length < (t.step op).imports.length) :
    ∃ s, op = .register s ∧ t.isImported s = true ∧ t.entry? s.id = none := by
  have hlength (t : Tracker) : t.imports.length = t.unmarked.length := (List.length_map _).symm
  rw [hlength, hlength] at h
  cases op with
  | define name => simp [step, unmarked] at h
  | register s =>
    rw [step, unmarked_register] at h
    split at h
    · rename_i hnew
      exact ⟨s, rfl, hnew.1, by simpa [importName?] using hnew.2⟩
    · exact (Nat.lt_irrefl _ h).elim

/-- An entry after a step has been there before and is used by the step, or is that of a symbol that
the step registers first. -/
theorem WellNamed.mem_imports_step (h : t.WellNamed) (he : e ∈ (t.step op).imports) :
    (∃ e₀ ∈ t.imports, e = e₀.usedAs ((t.registrations e₀.id [op]).all (·.typeOnly))) ∨
      (e.id ∉ t.unmarked.map (·.id) ∧
        e.typeOnly = (t.registrations e.id [op]).all (·.typeOnly)) := by
  obtain ⟨i, hi⟩ := List.mem_iff_getElem?.mp he
  by_cases hlt : i < t.imports.length
  · have hstep := h.getElem?_imports_step (List.getElem?_eq_getElem hlt) op
    exact Or.inl ⟨_, List.getElem_mem hlt, Option.some.inj (hi.symm.trans hstep)⟩
  · obtain ⟨s, rfl, himported, hnew⟩ := exists_new_of_length_lt
      (Nat.lt_of_le_of_lt (Nat.le_of_not_lt hlt) (List.getElem?_eq_some_iff.mp hi).1)
    have himports := imports_register_of_new himported hnew
    rw [Tracker.step, himports, List.getElem?_append_right (Nat.le_of_not_lt hlt)] at hi
    have he : e = ⟨s.module?.getD "", s.value, (t.register s).1, s.style, s.typeOnly⟩ := by
      simpa using List.mem_of_getElem? hi
    have hid : e.id = s.id := he ▸ id_entry himported (t.register s).1
    have hmark : e.typeOnly = s.typeOnly := he ▸ rfl
    rw [hid, hmark]
    refine Or.inr ⟨?_, by simp [registrations, himported]⟩
    rw [← importName?_eq_none_iff, importName?, hnew, Option.map_none]

/-- The mark of an entry tells whether all registrations of its symbol were type-only. -/
theorem WellNamed.typeOnly_run (h : t.WellNamed) (hnone : t.imports = []) (ops : List Operation) :
    ∀ e ∈ (t.run ops).imports,
      e.typeOnly = (t.registrations e.id ops).all (·.typeOnly) := by
  induction ops using List.reverseRecOn with
  | nil =>
    intro e he
    simp [show t.run [] = t from rfl, hnone] at he
  | append_singleton ops op ih =>
    intro e he
    have hhome : (t.run ops).registrations = t.registrations :=
      registrations_congr (t.ownModule_run ops)
    rw [run_append] at he
    rw [registrations_append, List.all_append]
    rcases (h.run ops).mem_imports_step he with ⟨e₀, he₀, rfl⟩ | ⟨hnew, hmark⟩
    · have hid (b : Bool) : (e₀.usedAs b).id = e₀.id := rfl
      rw [hhome, hid, ← ih e₀ he₀]
      rfl
    · -- the entry is new, so that the symbol has not been registered before
      have hfirst : t.registrations e.id ops = [] := by
        rw [mem_ids_run_iff] at hnew
        exact not_not.mp fun hne => hnew (Or.inr hne)
      rw [hmark, hhome, hfirst, List.all_nil, Bool.true_and]

theorem module?_eq_some_iff (s : Symbol) (m : String) :
    s.module? = some m ↔ s.id.origin = .module m := by
  obtain ⟨value, origin⟩ := s
  cases origin <;> simp [Symbol.module?, Origin.module?, Symbol.id]

/-- Every entry is that of an imported symbol, and every imported symbol has one. -/
theorem exists_entry_iff (hnone : t.imports = []) (ops : List Operation) (id : SymbolId) :
    (∃ e ∈ (t.run ops).imports, e.id = id) ↔
      ∃ s ∈ registered ops, t.isImported s = true ∧ s.id = id := by
  have hids := t.mem_ids_run_iff ops id
  have hstart : id ∉ t.unmarked.map (·.id) := by simp [unmarked, hnone]
  rw [or_iff_right hstart, ← List.length_pos_iff, List.length_pos_iff_exists_mem] at hids
  simp only [mem_registrations_iff] at hids
  rw [← hids, unmarked, List.map_map, List.mem_map]
  rfl

/-- The entries of a module by the style of their statements. -/
theorem exists_entry_of_style_iff (hnone : t.imports = []) (ops : List Operation) (m : String)
    (style : ImportStyle) :
    (∃ e ∈ (t.run ops).imports, e.module = m ∧ e.style = style) ↔
      ∃ s ∈ firstsBy Symbol.id ((registered ops).filter t.isImported),
        s.module? = some m ∧ s.style = style := by
  have hpairs := entries_run hnone ops
  have hentries : (∃ e ∈ (t.run ops).imports, e.module = m ∧ e.style = style) ↔
      ∃ p ∈ (t.run ops).unmarked.map fun e => (e.id, e.style),
        p.1.origin = .module m ∧ p.2 = style := by
    simp [unmarked, ImportEntry.unmarked, ImportEntry.id]
  rw [hentries, hpairs]
  simp [module?_eq_some_iff]

end Tracker

end TypeScriptComposer
