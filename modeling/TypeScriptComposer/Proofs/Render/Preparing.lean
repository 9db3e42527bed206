import TypeScriptComposer.Proofs.Render.Halting
import TypeScriptComposer.Proofs.Render.Written
import TypeScriptComposer.Proofs.Survey.Again

/-!
# Preparing again

A preparation may be repeated. The names that it declares have an owner from then on, be it the file
or an import that came first, so that they are declared in vain the second time; and the survey
finds what it found before. The context stays as it is, and the answer stays the same but for the
cycle that an error shows: the search may come to another one first.
-/

set_option autoImplicit false

namespace TypeScriptComposer

namespace Tracker
variable {t : Tracker} {names : List String}

theorem isTaken_define_iff (t : Tracker) (first name : String) :
    (t.define first).2.isTaken name = true ↔ t.isTaken name = true ∨ name = first := by
  rcases t.define_cases first with ⟨htaken, heq⟩ | ⟨-, heq⟩
  · rw [heq]
    constructor
    · exact Or.inl
    · rintro (h | rfl)
      · exact h
      · exact htaken
  · simp only [isTaken_iff, heq, List.mem_append, List.mem_singleton]
    tauto

theorem isTaken_defineAll_iff (t : Tracker) (names : List String) (name : String) :
    (t.defineAll names).isTaken name = true ↔ t.isTaken name = true ∨ name ∈ names := by
  induction names generalizing t with
  | nil => simp [defineAll]
  | cons first names ih =>
    rw [List.mem_cons, ← or_assoc, ← isTaken_define_iff]
    exact ih (t.define first).2

/-- A name that has an owner is declared in vain. -/
theorem defineAll_of_isTaken (h : ∀ name ∈ names, t.isTaken name = true) :
    t.defineAll names = t := by
  induction names with
  | nil => rfl
  | cons first names ih =>
    obtain ⟨hfirst, hnames⟩ := List.forall_mem_cons.mp h
    have hkeep : (t.define first).2 = t := by
      rcases t.define_cases first with ⟨-, heq⟩ | ⟨hfree, -⟩
      · exact heq
      · simp [hfirst] at hfree
    have hcons : t.defineAll (first :: names) = (t.define first).2.defineAll names := rfl
    rw [hcons, hkeep, ih hnames]

end Tracker

namespace Context
variable {outputs : Outputs} {c : Context} {t : Template}

theorem prepare_of_cycle {cycle : List OutputId}
    (h : (Survey.ofTemplate c.tracker outputs c.registry t).cycle? = some cycle) :
    c.prepare outputs t = (.error (cycleError outputs cycle), { c with
      registry := (Survey.ofTemplate c.tracker outputs c.registry t).registry }) := by
  simp only [prepare, h]

theorem prepare_of_no_cycle
    (h : (Survey.ofTemplate c.tracker outputs c.registry t).cycle? = none) :
    c.prepare outputs t = (.ok (), { c with
      tracker := c.tracker.defineAll (Survey.ofTemplate c.tracker outputs c.registry t).locals
      registry := (Survey.ofTemplate c.tracker outputs c.registry t).registry }) := by
  simp only [prepare, h]
  rfl

/-- An error of a preparation is about a cycle that the survey has found. -/
theorem prepare_eq_cycle_iff (outputs : Outputs) (c : Context) (t : Template) :
    (∃ name path, (c.prepare outputs t).1 = .error (.cycle name path)) ↔
      (Survey.ofTemplate c.tracker outputs c.registry t).cycle?.isSome = true := by
  cases hcycle : (Survey.ofTemplate c.tracker outputs c.registry t).cycle? with
  | none => simp [prepare_of_no_cycle hcycle]
  | some cycle => simp [prepare_of_cycle hcycle, cycleError]

theorem ownModule_prepare (outputs : Outputs) (c : Context) (t : Template) :
    (c.prepare outputs t).2.tracker.ownModule = c.tracker.ownModule := by
  cases hcycle : (Survey.ofTemplate c.tracker outputs c.registry t).cycle? with
  | none =>
    rw [prepare_of_no_cycle hcycle]
    exact Tracker.defineAll_unchanged Tracker.ownModule_define _ _
  | some cycle => rw [prepare_of_cycle hcycle]

/-- A survey after a preparation finds what the one of the preparation found. -/
theorem survey_prepare (outputs : Outputs) (c : Context) (t : Template) :
    let first := Survey.ofTemplate c.tracker outputs c.registry t
    let prepared := (c.prepare outputs t).2
    let again := Survey.ofTemplate prepared.tracker outputs prepared.registry t
    again.registry = first.registry ∧ (∀ name, name ∈ again.locals ↔ name ∈ first.locals) ∧
      again.walkedOutputs.Perm first.walkedOutputs ∧
      again.cycle?.isSome = first.cycle?.isSome := by
  intro first prepared again
  have hagain : again = Survey.ofTemplate prepared.tracker outputs first.registry t :=
    congrArg (Survey.ofTemplate prepared.tracker outputs · t) (c.registry_prepare outputs t)
  rw [hagain]
  exact Survey.again_ofTemplate (c.ownModule_prepare outputs t)

/-- The names that a survey of the prepared template finds have an owner. -/
theorem isTaken_prepare (h : (c.prepare outputs t).1 = .ok ()) {name : String}
    (hname : name ∈ (Survey.ofTemplate c.tracker outputs c.registry t).locals) :
    (c.prepare outputs t).2.tracker.isTaken name = true := by
  rw [prepare_of_no_cycle ((c.prepare_eq_ok_iff outputs t).mp h)]
  exact (c.tracker.isTaken_defineAll_iff _ name).mpr (Or.inr hname)

/-- Nothing is left to be noted or to be declared in a context that is prepared. -/
theorem context_prepare_prepare (outputs : Outputs) (c : Context) (t : Template) :
    ((c.prepare outputs t).2.prepare outputs t).2 = (c.prepare outputs t).2 := by
  obtain ⟨hregistry, hlocals, -, hcycle⟩ := c.survey_prepare outputs t
  have hnoted := hregistry.trans (c.registry_prepare outputs t).symm
  cases hagain : (Survey.ofTemplate (c.prepare outputs t).2.tracker outputs
      (c.prepare outputs t).2.registry t).cycle? with
  | some cycle => rw [prepare_of_cycle hagain, hnoted]
  | none =>
    -- no cycle now means that there was none, so that the names have been declared
    have hok : (c.prepare outputs t).1 = .ok () := by
      rw [hagain, Option.isSome_none] at hcycle
      exact (c.prepare_eq_ok_iff outputs t).mpr (by simpa using hcycle.symm)
    rw [prepare_of_no_cycle hagain, hnoted, Tracker.defineAll_of_isTaken]
    exact fun name hname => isTaken_prepare hok ((hlocals name).mp hname)

end Context

/-- Preparing a template again leaves the context as the first preparation left it, walks the same
declarations, and succeeds or is refused because of a cycle as the first one. -/
theorem prepare_again (outputs : Outputs) (c : Context) (t : Template) :
    let first := c.prepare outputs t
    let again := first.2.prepare outputs t
    again.2 = first.2 ∧
    (again.1 = .ok () ↔ first.1 = .ok ()) ∧
    ((∃ name path, again.1 = .error (.cycle name path)) ↔
      ∃ name path, first.1 = .error (.cycle name path)) ∧
    (Survey.ofTemplate first.2.tracker outputs first.2.registry t).walkedOutputs.Perm
      (Survey.ofTemplate c.tracker outputs c.registry t).walkedOutputs := by
  intro first again
  obtain ⟨-, -, hwalked, hcycle⟩ := c.survey_prepare outputs t
  refine ⟨c.context_prepare_prepare outputs t, ?_, ?_, hwalked⟩
  · rw [Context.prepare_eq_ok_iff, Context.prepare_eq_ok_iff, ← Option.not_isSome_iff_eq_none,
      ← Option.not_isSome_iff_eq_none, hcycle]
  · rw [Context.prepare_eq_cycle_iff, Context.prepare_eq_cycle_iff, hcycle]

/-- The use of the second output at the end of the template comes after the first output's site, and
is noted before it when the template is prepared again. -/
theorem prepare_again_from_other_cycle :
    let outputs : Outputs := [⟨"a", some [.usage 0]⟩, ⟨"b", some [.usage 1, .usage 0]⟩]
    let t : Template := [.declaration 0, .declaration 1, .reference 1]
    let c := Context.ofSettings .standard
    (c.prepare outputs t).1 = .error (.cycle "b" ["b", "b"]) ∧
      ((c.prepare outputs t).2.prepare outputs t).1 = .error (.cycle "a" ["a", "a"]) ∧
      ((c.prepare outputs t).2.prepare outputs t).2 = (c.prepare outputs t).2 := by
  intro outputs t c
  refine ⟨?_, ?_, (prepare_again outputs c t).1⟩
  · cbv
  · cbv

end TypeScriptComposer
