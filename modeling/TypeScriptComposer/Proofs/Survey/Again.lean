import TypeScriptComposer.Proofs.Render.Declarations
import TypeScriptComposer.Proofs.Survey.Cycles
import TypeScriptComposer.Proofs.Tracker.Register

/-!
# Surveying again

A survey notes the uses that it finds. One that is made again therefore begins with more outputs in
use, walks the declarations in another order and meets the cycles from another side. Still it comes
to the same live outputs: what the first one noted is used in live text, and that was reason enough
to be live before. So it notes nothing new, finds the same names, and finds a cycle exactly when the
first one did.
-/

set_option autoImplicit false

namespace TypeScriptComposer

namespace Registry

/-- `r'` is `r` after uses of the members of `used` have been noted. -/
structure Notes (used : Set OutputId) (r r' : Registry) : Prop where
  noted : ∀ o ∈ used, r.state o = .unreferenced → r'.state o = .referenced
  kept : ∀ o, r.state o ≠ .unreferenced ∨ o ∉ used → r'.state o = r.state o

variable {used : Set OutputId} {r r' : Registry}

theorem Notes.emitted_iff (h : Notes used r r') (o : OutputId) :
    r'.state o = .emitted ↔ r.state o = .emitted := by
  by_cases hnew : r.state o = .unreferenced ∧ o ∈ used
  · simp [h.noted o hnew.2 hnew.1, hnew.1]
  · rw [h.kept o (by tauto)]

/-- Noting uses that have been noted before changes nothing. -/
theorem Notes.eq_of_used (h : Notes used r r') (hused : ∀ o ∈ used, r.state o ≠ .unreferenced) :
    r' = r := by
  have hstate (o : OutputId) : r'.state o = r.state o := by
    apply h.kept
    by_cases ho : o ∈ used
    · exact Or.inl (hused o ho)
    · exact Or.inr ho
  obtain ⟨state⟩ := r
  obtain ⟨state'⟩ := r'
  exact congrArg Registry.mk (funext hstate)

end Registry

/-- The outputs that are used in text that is going to be written. -/
def liveUses (outputs : Outputs) (r : Registry) (root : Template) : Set OutputId :=
  {o | MentionedIn Template.references outputs root (liveOutputs outputs r root) o}

section Live
variable {outputs : Outputs} {r r' : Registry} {root : Template}

/-- Uses in live text keep no other output alive: noting them leaves the live outputs as they
are. -/
theorem liveOutputs_of_notes (h : Registry.Notes (liveUses outputs r root) r r') :
    liveOutputs outputs r' root = liveOutputs outputs r root := by
  apply Set.Subset.antisymm
  · apply liveOutputs_subset
    rintro o ⟨hknown, hused, hsited⟩
    refine (mem_liveOutputs_iff o).mpr ⟨hknown, ?_, hsited⟩
    rcases hused with hstate | hmention
    · -- a state that the noting has changed is due to a use in live text, which counts by itself
      by_cases ho : o ∈ liveUses outputs r root
      · exact Or.inr ho
      · exact Or.inl (h.kept o (Or.inr ho) ▸ hstate)
    · exact Or.inr hmention
  · apply liveOutputs_subset
    rintro o ⟨hknown, hused, hsited⟩
    refine (mem_liveOutputs_iff o).mpr ⟨hknown, ?_, hsited⟩
    refine hused.imp_left fun hstate => ?_
    rwa [h.kept o (Or.inl hstate)]

theorem depends_of_notes (h : Registry.Notes (liveUses outputs r root) r r') :
    Depends outputs r' root = Depends outputs r root := by
  funext o p
  rw [Depends, Depends, liveOutputs_of_notes h]

end Live

namespace Survey
variable {tracker tracker' : Tracker} {outputs : Outputs} {r : Registry} {root : Template}

theorem notes_ofTemplate (tracker : Tracker) (outputs : Outputs) (r : Registry) (root : Template) :
    Registry.Notes (liveUses outputs r root) r
      (ofTemplate tracker outputs r root).registry where
  noted := by
    intro o ho hstate
    have hused := (used_ofTemplate_iff tracker outputs r root o).mpr (Or.inr ho)
    have hemitted := emitted_ofTemplate_iff tracker outputs r root o
    rw [hstate] at hemitted
    cases hnew : (ofTemplate tracker outputs r root).registry.state o with
    | unreferenced => exact (hused hnew).elim
    | referenced => rfl
    | emitted => simp [hnew] at hemitted
  kept := by
    intro o ho
    rw [(follows_ofTemplate tracker outputs r root).registry, Registry.state_referenceAll]
    refine if_neg ?_
    rintro ⟨hstate, hfound⟩
    rcases ho with hused | hunused
    · exact hused hstate
    · refine hunused (((mem_templates_flatMap _ o).mp hfound).mono ?_)
      exact fun p hp => (mem_walkedOutputs_iff tracker outputs r root p).mp hp

/-- Whether there is a cycle does not depend on where the search begins. -/
theorem cycle?_isSome_iff (tracker : Tracker) (outputs : Outputs) (r : Registry)
    (root : Template) : (ofTemplate tracker outputs r root).cycle?.isSome = true ↔
      ∃ o, Relation.TransGen (Depends outputs r root) o o := by
  cases hcycle : (ofTemplate tracker outputs r root).cycle? with
  | none => simp [not_transGen_of_cycle? hcycle]
  | some cycle =>
    obtain ⟨o, os, -, -, hchain⟩ := cycle_of_cycle? hcycle
    exact iff_of_true rfl ⟨o, transGen_of_isChain hchain⟩

theorem mem_locals_iff (tracker : Tracker) (outputs : Outputs) (r : Registry) (root : Template)
    (name : String) : name ∈ (ofTemplate tracker outputs r root).locals ↔
      ∃ s, (s ∈ Template.symbols root ∨
        ∃ o ∈ liveOutputs outputs r root, s ∈ Template.symbols (outputs.body o)) ∧
        tracker.declares s = true ∧ s.value = name := by
  have hsymbols (s : Symbol) : s ∈ ((ofTemplate tracker outputs r root).templates outputs
      root).flatMap Template.symbols ↔ s ∈ Template.symbols root ∨
        ∃ o ∈ liveOutputs outputs r root, s ∈ Template.symbols (outputs.body o) := by
    simp only [← mem_walkedOutputs_iff tracker]
    simp [templates]
  rw [(follows_ofTemplate tracker outputs r root).locals]
  simp only [List.mem_map, List.mem_filter, hsymbols, and_assoc]

/-- What a survey notes and finds, one that is made again notes and finds too. -/
theorem again_ofTemplate (howner : tracker'.ownModule = tracker.ownModule) :
    let first := ofTemplate tracker outputs r root
    let again := ofTemplate tracker' outputs first.registry root
    again.registry = first.registry ∧ (∀ name, name ∈ again.locals ↔ name ∈ first.locals) ∧
      again.walkedOutputs.Perm first.walkedOutputs ∧ again.cycle?.isSome = first.cycle?.isSome := by
  intro first again
  have hnotes : Registry.Notes (liveUses outputs r root) r first.registry :=
    notes_ofTemplate tracker outputs r root
  have hlive : liveOutputs outputs first.registry root = liveOutputs outputs r root :=
    liveOutputs_of_notes hnotes
  refine ⟨?_, ?_, ?_, ?_⟩
  · apply (notes_ofTemplate tracker' outputs first.registry root).eq_of_used
    intro o ho
    rw [liveUses, hlive] at ho
    exact (used_ofTemplate_iff tracker outputs r root o).mpr (Or.inr ho)
  · intro name
    rw [mem_locals_iff, mem_locals_iff, hlive, Tracker.declares_congr howner]
  · refine (List.perm_ext_iff_of_nodup (follows_ofTemplate _ _ _ _).nodup
      (follows_ofTemplate _ _ _ _).nodup).mpr fun o => ?_
    rw [mem_walkedOutputs_iff, mem_walkedOutputs_iff, hlive]
  · rw [Bool.eq_iff_iff, cycle?_isSome_iff, cycle?_isSome_iff, depends_of_notes hnotes]

end Survey

end TypeScriptComposer
