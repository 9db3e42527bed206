import TypeScriptComposer.Proofs.Render.Levels
import TypeScriptComposer.Proofs.Survey.Cycles
import TypeScriptComposer.Proofs.Survey.Stepwise
import TypeScriptComposer.Proofs.Writing.Stepwise

/-!
# Renders come to an end

Outputs may use each other and themselves in any way, and a declaration may stand inside itself.
Preparing, rendering and declaring come to an end all the same, in whatever state the context is:
also in one that was never prepared, or whose preparation was refused because of a cycle.
-/

set_option autoImplicit false

namespace TypeScriptComposer

open StateTransition

/-- What a script that is carried out to its end leaves of a render in `c`. -/
def Progress.rendered (c : Context) (p : Progress) : String × Context :=
  (p.writing.writer.text, { c with tracker := p.writing.tracker, registry := p.writing.registry })

namespace Survey
variable {tracker : Tracker} {outputs : Outputs} {r : Registry} {root : Template} {s : Survey}

theorem rounds_of_reaches
    (h : Reaches (advance tracker outputs) ((start r).visit tracker root) s) :
    s.walkedOutputs.Nodup ∧ s.walkedOutputs.length ≤ outputs.length := by
  have hfollows : s.Follows tracker outputs r root :=
    (follows_start tracker outputs r root).of_reaches h
  exact ⟨hfollows.nodup, length_le_of_nodup hfollows.nodup fun o ho => hfollows.lt_length ho⟩

theorem stack_of_reaches {found : Search}
    (h : Reaches (Search.advance (ofTemplate tracker outputs r root).walked)
      (.start (ofTemplate tracker outputs r root).walked) found) :
    found.stack.Nodup ∧
      ∀ o ∈ found.stack, o ∈ (ofTemplate tracker outputs r root).walkedOutputs := by
  obtain ⟨hnodup, hknown⟩ := Search.nodup_stack h
  have hfollows := follows_ofTemplate tracker outputs r root
  exact ⟨hnodup, fun o ho => (hfollows.lookup_isSome o).mp (hknown o ho)⟩

end Survey

namespace Context

theorem registry_prepare (outputs : Outputs) (c : Context) (t : Template) :
    (c.prepare outputs t).2.registry =
      (Survey.ofTemplate c.tracker outputs c.registry t).registry := by
  rw [prepare]
  split <;> rfl

theorem prepare_eq_ok_iff (outputs : Outputs) (c : Context) (t : Template) :
    (c.prepare outputs t).1 = .ok () ↔
      (Survey.ofTemplate c.tracker outputs c.registry t).cycle? = none := by
  rw [prepare]
  split <;> simp_all

end Context

/-- In any context, the loop of the survey walks each output once at most and ends with the survey,
and the search for a cycle ends with what the preparation answers, its stack never having an output
twice. Rendering a template or a declaration ends with what the render is, and along the chain of
declarations that are being written each is there once. -/
theorem rendering_halts (outputs : Outputs) (c : Context) :
    (∀ t : Template,
      let start := (Survey.start c.registry).visit c.tracker t
      let survey := Survey.ofTemplate c.tracker outputs c.registry t
      survey ∈ eval (Survey.advance c.tracker outputs) start ∧
      (∀ s, Reaches (Survey.advance c.tracker outputs) start s →
        s.walkedOutputs.Nodup ∧ s.walkedOutputs.length ≤ outputs.length) ∧
      (∃ found ∈ eval (Search.advance survey.walked) (.start survey.walked),
        (c.prepare outputs t).2.registry = survey.registry ∧
        ((c.prepare outputs t).1 = .ok () ↔ found.cycle? = none)) ∧
      ∀ found, Reaches (Search.advance survey.walked) (.start survey.walked) found →
        found.stack.Nodup ∧ ∀ o ∈ found.stack, o ∈ survey.walkedOutputs) ∧
    (∀ (t : Template) (level : Nat),
      let start := Progress.start t.script (c.writing level)
      (∃ p ∈ eval (Progress.advance outputs) start, c.renderIn outputs t level = p.rendered c) ∧
      ∀ p, Reaches (Progress.advance outputs) start p →
        p.opened.Nodup ∧ p.opened.length ≤ outputs.length) ∧
    ∀ (o : OutputId) (level : Nat),
      (c.registry.state o ≠ .referenced → c.declareIfUsed outputs o level = (none, c)) ∧
      (c.registry.state o = .referenced →
        let start := Progress.startInside outputs o (c.writing level)
        (∃ p ∈ eval (Progress.advance outputs) start,
          c.declareIfUsed outputs o level = (some (p.rendered c).1, (p.rendered c).2)) ∧
        ∀ p, Reaches (Progress.advance outputs) start p → p.opened.Nodup) := by
  refine ⟨?_, ?_, ?_⟩
  · intro t start survey
    refine ⟨Survey.complete_mem_eval c.tracker outputs start, ?_, ?_, ?_⟩
    · exact fun s hs => Survey.rounds_of_reaches hs
    · obtain ⟨found, hfound, hcycle⟩ := survey.exists_eval_search
      exact ⟨found, hfound, c.registry_prepare outputs t, hcycle ▸ c.prepare_eq_ok_iff outputs t⟩
    · exact fun found hfound => Survey.stack_of_reaches hfound
  · intro t level start
    refine ⟨⟨_, Progress.mem_eval_start t.script (c.writing level), rfl⟩, ?_⟩
    intro p hp
    have hnodup := ((Progress.nested_start t.script (c.writing level)).of_reaches hp).nodup
    exact ⟨hnodup, length_le_of_nodup hnodup (Progress.lt_length_of_reaches hp (by simp [start,
      Progress.start, Progress.opened]))⟩
  · intro o level
    refine ⟨?_, ?_⟩
    · intro hstate
      rw [Context.declareIfUsed, Registry.beginEmit_of_ne hstate]
    · intro hstate start
      refine ⟨⟨_, Progress.mem_eval_startInside o (c.writing level), ?_⟩, ?_⟩
      · rw [Context.declareIfUsed, (Registry.beginEmit_eq_true_iff _ _ _).mpr ⟨hstate, rfl⟩]
        rfl
      · intro p hp
        exact ((Progress.nested_startInside o (c.writing level)).of_reaches hp).nodup

end TypeScriptComposer
