import TypeScriptComposer.Proofs.Render.Preparing
import TypeScriptComposer.Proofs.Session.Runs

/-!
# What fails in a session

Only a preparation can fail, and only because of a cycle. It has noted the uses by then that its
survey found; no name is claimed, and nothing counts as emitted. Writing cannot fail: whatever state
the outputs and the names are in, there is a next step until the text is complete.
-/

set_option autoImplicit false

namespace TypeScriptComposer

open StateTransition

namespace Context
variable {outputs : Outputs} {c : Context} {t : Template} {e : Error}

theorem notes_prepare (outputs : Outputs) (c : Context) (t : Template) :
    Registry.Notes (liveUses outputs c.registry t) c.registry (c.prepare outputs t).2.registry := by
  rw [registry_prepare]
  exact Survey.notes_ofTemplate c.tracker outputs c.registry t

theorem declareIfUsed_of_referenced {o : OutputId} (h : c.registry.state o = .referenced)
    (level : Nat) : c.declareIfUsed outputs o level =
      let p : Progress := ⟨[], [], Writing.perform outputs (Template.script (outputs.body o))
        ((c.writing level).emit o)⟩
      (some (p.rendered c).1, (p.rendered c).2) := by
  rw [declareIfUsed, (Registry.beginEmit_eq_true_iff _ _ _).mpr ⟨h, rfl⟩]
  rfl

theorem declareIfUsed_of_not_referenced {o : OutputId} (h : c.registry.state o ≠ .referenced)
    (level : Nat) : c.declareIfUsed outputs o level = (none, c) := by
  rw [declareIfUsed, Registry.beginEmit_of_ne h]

/-- A refused preparation has changed the registry only. -/
theorem prepare_refused (h : (c.prepare outputs t).1 = .error e) :
    (∃ name path, e = .cycle name path) ∧ (c.prepare outputs t).2.tracker = c.tracker ∧
      (c.prepare outputs t).2.indent = c.indent := by
  cases hcycle : (Survey.ofTemplate c.tracker outputs c.registry t).cycle? with
  | none => simp [prepare_of_no_cycle hcycle] at h
  | some cycle =>
    rw [prepare_of_cycle hcycle] at h ⊢
    exact ⟨⟨_, _, (Except.error.inj h).symm⟩, rfl, rfl⟩

end Context

namespace Template

/-- A render fails with the error of its preparation. -/
theorem render_eq_error_iff (outputs : Outputs) (settings : Settings) (t : Template) (e : Error) :
    t.render outputs settings = .error e ↔
      ((Context.ofSettings settings).prepare outputs t).1 = .error e := by
  unfold render
  split <;> simp_all

end Template

namespace Session

theorem step_failed_iff (s : Session) (op : Operation) (e : Error) :
    (s.step op).1 = .failed e ↔
      ∃ t, op = .prepare t ∧ (s.context.prepare s.outputs t).1 = .error e := by
  cases op with
  | prepare t =>
    cases h : (s.context.prepare s.outputs t).1 <;> simp [step, h]
  | declareIfUsed o level =>
    cases h : (s.context.declareIfUsed s.outputs o level).1 <;> simp [step, h]
  | _ => simp [step]

theorem length_answers_run (s : Session) (ops : List Operation) :
    (s.run ops).1.length = ops.length := by
  induction ops generalizing s with
  | nil => rfl
  | cons op ops ih => exact congrArg (· + 1) (ih (s.step op).2)

/-- Every operation of a run has its answer, given in the state that the ones before it leave. -/
theorem answers_run (s : Session) (ops : List Operation) (i : Nat) :
    (s.run ops).1[i]? = ops[i]?.map fun op => ((s.run (ops.take i)).2.step op).1 := by
  induction ops generalizing s i with
  | nil => rfl
  | cons op ops ih =>
    cases i with
    | zero => rfl
    | succ i =>
      rw [List.getElem?_cons_succ, List.take_succ_cons, run_cons]
      exact ih (s.step op).2 i

theorem run_failed_iff (s : Session) (ops : List Operation) (i : Nat) (e : Error) :
    (s.run ops).1[i]? = some (.failed e) ↔
      ∃ t, ops[i]? = some (.prepare t) ∧
        ((s.run (ops.take i)).2.context.prepare (s.run (ops.take i)).2.outputs t).1 = .error e := by
  rw [answers_run, Option.map_eq_some_iff]
  simp only [step_failed_iff]
  constructor
  · rintro ⟨op, hop, t, rfl, he⟩
    exact ⟨t, hop, he⟩
  · rintro ⟨t, hop, he⟩
    exact ⟨_, hop, t, rfl, he⟩

end Session

/-- A refused preparation reports a cycle. It leaves the names and the indentation alone and notes
the uses in the template and in the declarations that its survey has walked, whereby nothing becomes
emitted. Nothing else fails: in every context, writing a template or a declaration goes on until it
is complete; the operations of a session that fail are its refused preparations; and a render fails
exactly when its preparation is refused. -/
theorem fails_only_by_refused_prepare (outputs : Outputs) (c : Context) :
    (∀ (t : Template) (e : Error), (c.prepare outputs t).1 = .error e →
      let survey := Survey.ofTemplate c.tracker outputs c.registry t
      let after := (c.prepare outputs t).2
      (∃ name path, e = .cycle name path) ∧
      after.tracker = c.tracker ∧ after.indent = c.indent ∧
      Registry.Notes (liveUses outputs c.registry t) c.registry after.registry ∧
      (∀ o, after.registry.state o = .emitted ↔ c.registry.state o = .emitted) ∧
      ∀ o, o ∈ survey.walkedOutputs ↔ o ∈ liveOutputs outputs c.registry t) ∧
    -- writing
    (∀ p : Progress, Progress.advance outputs p = none ↔ p.actions = [] ∧ p.callers = []) ∧
    (∀ (t : Template) (level : Nat),
      ∃ p ∈ eval (Progress.advance outputs) (.start t.script (c.writing level)),
        c.renderIn outputs t level = p.rendered c) ∧
    (∀ (o : OutputId) (level : Nat), c.declareIfUsed outputs o level = (none, c) ∨
      ∃ p ∈ eval (Progress.advance outputs) (.startInside outputs o (c.writing level)),
        c.declareIfUsed outputs o level = (some (p.rendered c).1, (p.rendered c).2)) ∧
    -- sessions
    (∀ ops : List Session.Operation,
      let s : Session := ⟨outputs, c⟩
      (s.run ops).1.length = ops.length ∧
      ∀ (i : Nat) (e : Error), (s.run ops).1[i]? = some (.failed e) ↔
        let mid := (s.run (ops.take i)).2
        ∃ t, ops[i]? = some (.prepare t) ∧ (mid.context.prepare mid.outputs t).1 = .error e) ∧
    -- renders
    ∀ (settings : Settings) (t : Template),
      let prepared := (Context.ofSettings settings).prepare outputs t
      (∀ e, t.render outputs settings = .error e ↔ prepared.1 = .error e) ∧
      ((∃ e, t.render outputs settings = .error e) ↔
        ∃ name path, prepared.1 = .error (.cycle name path)) := by
  refine ⟨?_, Progress.advance_eq_none_iff, ?_, ?_, ?_, ?_⟩
  · intro t e he survey after
    obtain ⟨hcycle, htracker, hindent⟩ := Context.prepare_refused he
    have hnotes := c.notes_prepare outputs t
    exact ⟨hcycle, htracker, hindent, hnotes, hnotes.emitted_iff,
      Survey.mem_walkedOutputs_iff c.tracker outputs c.registry t⟩
  · intro t level
    exact ⟨_, Progress.mem_eval_start t.script (c.writing level), rfl⟩
  · intro o level
    by_cases hstate : c.registry.state o = .referenced
    · refine Or.inr ⟨_, Progress.mem_eval_startInside o (c.writing level), ?_⟩
      exact Context.declareIfUsed_of_referenced hstate level
    · exact Or.inl (Context.declareIfUsed_of_not_referenced hstate level)
  · intro ops s
    exact ⟨s.length_answers_run ops, s.run_failed_iff ops⟩
  · intro settings t prepared
    refine ⟨Template.render_eq_error_iff outputs settings t, ?_⟩
    simp only [Template.render_eq_error_iff]
    constructor
    · rintro ⟨e, he⟩
      obtain ⟨⟨name, path, rfl⟩, -⟩ := Context.prepare_refused he
      exact ⟨name, path, he⟩
    · rintro ⟨name, path, he⟩
      exact ⟨_, he⟩

/-- A refused preparation claims no name, also not the ones that it has met before the cycle. -/
theorem fails_only_by_refused_prepare_declaring :
    let outputs : Outputs := [⟨"a", some [.usage 1]⟩, ⟨"b", some [.usage 0]⟩, ⟨"c", none⟩]
    let t : Template := [.symbol (.declared "Local"), .declaration 0, .declaration 1, .usage 0,
      .reference 2]
    let c := Context.ofSettings .standard
    (c.prepare outputs t).1 = .error (.cycle "a" ["a", "b", "a"]) ∧
      (c.prepare outputs t).2.tracker = c.tracker ∧
      (∀ o, (c.prepare outputs t).2.registry.state o ≠ .emitted) ∧
      (c.prepare outputs t).2.registry.state 2 = .referenced ∧
      t.render outputs .standard = .error (.cycle "a" ["a", "b", "a"]) := by
  intro outputs t c
  have he : (c.prepare outputs t).1 = .error (.cycle "a" ["a", "b", "a"]) := by cbv
  obtain ⟨hrefused, -, -, -, -, hrender⟩ := fails_only_by_refused_prepare outputs c
  obtain ⟨-, htracker, -, hnotes, hemitted, -⟩ := hrefused t _ he
  refine ⟨he, htracker, ?_, ?_, ((hrender .standard t).1 _).mpr he⟩
  · intro o ho
    have hstart := (hemitted o).mp ho
    simp [c, Context.ofSettings, Registry.empty] at hstart
  · exact hnotes.noted 2 (Or.inl (by decide)) rfl

end TypeScriptComposer
