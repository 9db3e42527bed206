import Mathlib.Data.List.Induction
import TypeScriptComposer.Proofs.Tracker.Lookup

/-!
# The names that a run claims

Operations claim names for the file, some directly and some for symbols that the file declares. Of
the names that a run claims, the file gets those that no import has in the end. An import takes a
name only while it is not in use, so that a name claimed in time is safe.
-/

set_option autoImplicit false

namespace TypeScriptComposer

namespace Tracker
variable {t : Tracker}

/-- The name that an operation claims for the file. -/
def claimed? (home : Tracker) : Operation → Option String
  | .define name => some name
  | .register s => if home.declares s then some s.value else none

theorem claimed?_congr {t t' : Tracker} (h : t'.ownModule = t.ownModule) :
    t'.claimed? = t.claimed? := by
  funext op
  cases op with
  | define name => rfl
  | register s => rw [claimed?, claimed?, declares_congr h]

/-- Registrations claim the names of those symbols that the file declares. -/
theorem exists_claimed_iff (home : Tracker) (ss : List Symbol) (name : String) :
    (∃ op ∈ ss.map Operation.register, home.claimed? op = some name) ↔
      name ∈ (ss.filter home.declares).map (·.value) := by
  simp [claimed?, and_assoc]

theorem step_of_claimed {op : Operation} {name : String} (h : t.claimed? op = some name) :
    t.step op = (t.define name).2 := by
  cases op with
  | define name' =>
    obtain rfl : name' = name := Option.some.inj h
    rfl
  | register s =>
    obtain ⟨hdeclares, hname⟩ := Option.ite_none_right_eq_some.mp h
    obtain rfl : s.value = name := Option.some.inj hname
    rw [step, register_of_declares hdeclares]

theorem declared_step_of_not_claimed {op : Operation} (h : t.claimed? op = none) :
    (t.step op).declared = t.declared := by
  cases op with
  | define name => simp [claimed?] at h
  | register s =>
    have hdeclares : t.declares s ≠ true := by simpa [claimed?] using h
    exact declared_register fun hd => (hdeclares hd).elim

theorem isTaken_step {name : String} (h : t.isTaken name = true) (op : Operation) :
    (t.step op).isTaken name = true := by
  rw [isTaken_iff] at h ⊢
  rcases h with hdeclared | himport
  · exact Or.inl (declared_subset_step t op hdeclared)
  · exact Or.inr ((Extends.step t op).mem_localNames himport)

theorem isTaken_run {name : String} (h : t.isTaken name = true) (ops : List Operation) :
    (t.run ops).isTaken name = true := by
  unfold run
  induction ops generalizing t with
  | nil => exact h
  | cons op ops ih => exact ih (isTaken_step h op)

/-- An import is given a name that is not in use. -/
theorem mem_localNames_step {op : Operation} {name : String}
    (h : name ∈ (t.step op).imports.map (·.localName)) :
    name ∈ t.imports.map (·.localName) ∨ t.isTaken name = false := by
  cases op with
  | define name' =>
    rw [step, imports_define] at h
    exact Or.inl h
  | register s =>
    rw [← localNames_unmarked, step, unmarked_register] at h
    split at h
    · rw [List.map_append, List.mem_append] at h
      rcases h with hold | hnew
      · exact Or.inl (localNames_unmarked t ▸ hold)
      · obtain rfl : name = t.freeName (preferred s) := List.mem_singleton.mp hnew
        obtain ⟨hdeclared, hname, -⟩ := t.freeName_not_mem (preferred s)
        refine Or.inr (Bool.eq_false_iff.mpr fun htaken => ?_)
        exact ((t.isTaken_iff_unmarked _).mp htaken).elim hdeclared hname
    · exact Or.inl (localNames_unmarked t ▸ h)

theorem mem_localNames_run {ops : List Operation} {name : String}
    (h : name ∈ (t.run ops).imports.map (·.localName)) :
    name ∈ t.imports.map (·.localName) ∨ t.isTaken name = false := by
  induction ops generalizing t with
  | nil => exact Or.inl h
  | cons op ops ih =>
    rcases ih h with hstep | hfree
    · exact mem_localNames_step hstep
    · refine Or.inr (Bool.eq_false_iff.mpr fun htaken => ?_)
      rw [isTaken_step htaken op] at hfree
      cases hfree

theorem mem_declared_step_iff (t : Tracker) (op : Operation) (name : String) :
    name ∈ (t.step op).declared ↔ name ∈ t.declared ∨
      (t.claimed? op = some name ∧ name ∉ (t.step op).imports.map (·.localName)) := by
  cases hclaimed : t.claimed? op with
  | none => simp [declared_step_of_not_claimed hclaimed]
  | some claimed =>
    rw [step_of_claimed hclaimed, imports_define, Option.some.injEq]
    constructor
    · intro hname
      rcases t.define_cases claimed with ⟨-, heq⟩ | ⟨hfree, heq⟩
      · rw [heq] at hname
        exact Or.inl hname
      · rw [heq, List.mem_append, List.mem_singleton] at hname
        rcases hname with hold | rfl
        · exact Or.inl hold
        · refine Or.inr ⟨rfl, fun himport => ?_⟩
          rw [(t.isTaken_iff name).mpr (Or.inr himport)] at hfree
          cases hfree
    · rintro (hold | ⟨rfl, hfree⟩)
      · exact declared_subset_define t claimed hold
      · exact mem_declared_define hfree

/-- The file declares, after a run, what it declared before and those of the names claimed by the
run that no import has. -/
theorem mem_declared_run_iff (t : Tracker) (ops : List Operation) (name : String) :
    name ∈ (t.run ops).declared ↔ name ∈ t.declared ∨
      ((∃ op ∈ ops, t.claimed? op = some name) ∧
        name ∉ (t.run ops).imports.map (·.localName)) := by
  induction ops using List.reverseRecOn with
  | nil => simp [run]
  | append_singleton ops op ih =>
    have hstep : t.run (ops ++ [op]) = (t.run ops).step op := t.run_append ops [op]
    have hclaimed : (t.run ops).claimed? = t.claimed? := claimed?_congr (t.ownModule_run ops)
    rw [hstep, mem_declared_step_iff, ih, hclaimed]
    constructor
    · rintro ((hold | ⟨⟨op', hop', hname⟩, hfree⟩) | ⟨hname, hfree⟩)
      · exact Or.inl hold
      · -- the name is in use by now, so that no import can take it any more
        have hdeclared : name ∈ (t.run ops).declared :=
          ih.mpr (Or.inr ⟨⟨op', hop', hname⟩, hfree⟩)
        refine Or.inr ⟨⟨op', List.mem_append_left _ hop', hname⟩, fun himport => ?_⟩
        rcases mem_localNames_step himport with himport | hunused
        · exact hfree himport
        · rw [(isTaken_iff _ name).mpr (Or.inl hdeclared)] at hunused
          cases hunused
      · exact Or.inr ⟨⟨op, by simp, hname⟩, hfree⟩
    · rintro (hold | ⟨⟨op', hop', hname⟩, hfree⟩)
      · exact Or.inl (Or.inl hold)
      · rcases List.mem_append.mp hop' with hop' | hop'
        · refine Or.inl (Or.inr ⟨⟨op', hop', hname⟩, fun himport => hfree ?_⟩)
          exact (Extends.step (t.run ops) op).mem_localNames himport
        · obtain rfl : op' = op := List.mem_singleton.mp hop'
          exact Or.inr ⟨hname, hfree⟩

/-- A run that claims only names in use declares nothing. -/
theorem declared_run_of_isTaken {ops : List Operation}
    (h : ∀ op ∈ ops, ∀ name, t.claimed? op = some name → t.isTaken name = true) :
    (t.run ops).declared = t.declared := by
  induction ops generalizing t with
  | nil => rfl
  | cons op ops ih =>
    have hkeep : (t.step op).declared = t.declared := by
      cases hclaimed : t.claimed? op with
      | none => exact declared_step_of_not_claimed hclaimed
      | some name =>
        rw [step_of_claimed hclaimed]
        rcases t.define_cases name with ⟨-, heq⟩ | ⟨hfree, -⟩
        · rw [heq]
        · rw [h op List.mem_cons_self name hclaimed] at hfree
          cases hfree
    rw [← hkeep]
    refine ih fun op' hop' name hclaimed => ?_
    rw [claimed?_congr (ownModule_step t op)] at hclaimed
    exact isTaken_step (h op' (List.mem_cons_of_mem _ hop') name hclaimed) op

end Tracker

end TypeScriptComposer
