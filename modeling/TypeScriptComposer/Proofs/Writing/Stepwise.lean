import Mathlib.Computability.StateTransition
import TypeScriptComposer.Proofs.Writing.Events

/-!
# Writing step by step

Writing goes down into a declaration at each site where one is due, and a declaration may have sites
of any output, its own too. Here it is a transition system with the declarations that are being
written on a stack. A declaration is put on the stack when its output is referenced and is emitted
from then on, so that nothing is on the stack twice and every run comes to its end.
-/

set_option autoImplicit false

namespace TypeScriptComposer

open StateTransition

theorem Action.site?_eq_some {a : Action} {o : OutputId} (h : a.site? = some o) :
    a = .declare o := by
  cases a <;> simp_all [Action.site?]

theorem Writing.emitted_act_iff {outputs : Outputs} (w : Writing) (a : Action) (o : OutputId) :
    (w.act outputs a).registry.state o = .emitted ↔ w.registry.state o = .emitted := by
  cases a with
  | reference p => exact Registry.reference_emitted_iff w.registry p o
  | usage p => exact Registry.reference_emitted_iff w.registry p o
  | _ => exact Iff.rfl

/-- A script that is being carried out. -/
structure Progress where
  /-- What is still to be done in the innermost declaration. -/
  actions : List Action
  /-- The declarations that are being written, the innermost first, each with what is to be done
  behind it. -/
  callers : List (OutputId × List Action)
  writing : Writing

namespace Progress
variable {outputs : Outputs} {p p' : Progress}

def start (actions : List Action) (w : Writing) : Progress := ⟨actions, [], w⟩

/-- The start inside the declaration of `o`. -/
def startInside (outputs : Outputs) (o : OutputId) (w : Writing) : Progress :=
  ⟨Template.script (outputs.body o), [(o, [])], w.emit o⟩

/-- The chain of declarations that are being written. -/
def opened (p : Progress) : List OutputId := p.callers.map (·.1)

/-- Carries out one action, or goes back to where a declaration stands. At a site whose output is
due, its declaration is begun. -/
def advance (outputs : Outputs) (p : Progress) : Option Progress :=
  match p.actions, p.callers with
  | [], [] => none
  | [], (_, rest) :: callers => some ⟨rest, callers, p.writing⟩
  | .declare o :: rest, callers =>
    if p.writing.isDue outputs o then
      some ⟨Template.script (outputs.body o), (o, rest) :: callers, p.writing.emit o⟩
    else some ⟨rest, callers, p.writing⟩
  | a :: rest, callers => some ⟨rest, callers, p.writing.act outputs a⟩

section
variable {a : Action} {o : OutputId} {rest : List Action} {callers : List (OutputId × List Action)}
  {w : Writing}

theorem advance_up :
    advance outputs ⟨[], (o, rest) :: callers, w⟩ = some ⟨rest, callers, w⟩ := rfl

theorem advance_past (h : w.isDue outputs o = false) :
    advance outputs ⟨.declare o :: rest, callers, w⟩ = some ⟨rest, callers, w⟩ := by
  simp [advance, h]

theorem advance_down (h : w.isDue outputs o = true) :
    advance outputs ⟨.declare o :: rest, callers, w⟩ =
      some ⟨Template.script (outputs.body o), (o, rest) :: callers, w.emit o⟩ := by
  simp [advance, h]

theorem advance_act (h : a.site? = none) :
    advance outputs ⟨a :: rest, callers, w⟩ = some ⟨rest, callers, w.act outputs a⟩ := by
  cases a with
  | declare o => simp [Action.site?] at h
  | _ => rfl

end

/-- Writing is never stuck: it stops where nothing is left to be done, in the template and in the
declarations around. -/
theorem advance_eq_none_iff (p : Progress) :
    advance outputs p = none ↔ p.actions = [] ∧ p.callers = [] := by
  obtain ⟨actions, callers, w⟩ := p
  cases actions with
  | nil => cases callers <;> simp [advance]
  | cons a rest =>
    cases hsite : a.site? with
    | none => simp [advance_act hsite]
    | some o =>
      obtain rfl : a = .declare o := Action.site?_eq_some hsite
      cases due : w.isDue outputs o with
      | true => simp [advance_down due]
      | false => simp [advance_past due]

/-- A script is carried out to its end, and what it leaves is what the recursion leaves. -/
theorem reaches_perform (actions : List Action) (callers : List (OutputId × List Action))
    (w : Writing) : Reaches (advance outputs) ⟨actions, callers, w⟩
      ⟨[], callers, Writing.perform outputs actions w⟩ := by
  fun_induction Writing.events outputs actions w generalizing callers with
  | case1 w =>
    rw [Writing.perform]
    exact .refl
  | case2 o rest w due inner ihInner ihRest =>
    rw [Writing.perform_declare_of_isDue due]
    exact .head (advance_down due) ((ihInner _).trans (.head advance_up (ihRest callers)))
  | case3 o rest w notDue ih =>
    have hnot : w.isDue outputs o = false := by simpa using notDue
    rw [Writing.perform_declare_of_not_isDue hnot]
    exact .head (advance_past hnot) (ih callers)
  | case4 a rest w hsite ih =>
    have hnone := Writing.site?_eq_none hsite
    rw [Writing.perform_cons_of_site? hnone]
    exact .head (advance_act hnone) (ih callers)

theorem mem_eval_start (actions : List Action) (w : Writing) :
    (⟨[], [], Writing.perform outputs actions w⟩ : Progress) ∈
      eval (advance outputs) (start actions w) :=
  mem_eval.mpr ⟨reaches_perform actions [] w, rfl⟩

theorem mem_eval_startInside (o : OutputId) (w : Writing) :
    (⟨[], [], Writing.perform outputs (Template.script (outputs.body o)) (w.emit o)⟩ : Progress) ∈
      eval (advance outputs) (startInside outputs o w) :=
  mem_eval.mpr ⟨(reaches_perform _ [(o, [])] (w.emit o)).tail advance_up, rfl⟩

/-- What a step does to the stack: it ends the innermost declaration, keeps the stack and emits
nothing, or begins a declaration that is due. -/
theorem opened_advance (h : p' ∈ advance outputs p) :
    (∃ o, p.opened = o :: p'.opened ∧ p'.writing = p.writing) ∨
      (p'.opened = p.opened ∧ ∀ o, p'.writing.registry.state o = .emitted ↔
        p.writing.registry.state o = .emitted) ∨
      ∃ o, p'.opened = o :: p.opened ∧ p.writing.isDue outputs o = true ∧
        p'.writing = p.writing.emit o := by
  obtain ⟨actions, callers, w⟩ := p
  cases actions with
  | nil =>
    cases callers with
    | nil => simp [advance] at h
    | cons caller callers =>
      cases h
      exact Or.inl ⟨caller.1, rfl, rfl⟩
  | cons a rest =>
    cases hsite : a.site? with
    | none =>
      rw [advance_act hsite] at h
      cases h
      exact Or.inr (Or.inl ⟨rfl, w.emitted_act_iff a⟩)
    | some o =>
      obtain rfl : a = .declare o := Action.site?_eq_some hsite
      by_cases due : w.isDue outputs o = true
      · rw [advance_down due] at h
        cases h
        exact Or.inr (Or.inr ⟨o, rfl, due, rfl⟩)
      · rw [advance_past (by simpa using due)] at h
        cases h
        exact Or.inr (Or.inl ⟨rfl, fun _ => Iff.rfl⟩)

/-- Every declaration on the stack is there once, and is emitted. -/
structure Nested (p : Progress) : Prop where
  nodup : p.opened.Nodup
  emitted : ∀ o ∈ p.opened, p.writing.registry.state o = .emitted

theorem nested_start (actions : List Action) (w : Writing) : (start actions w).Nested :=
  ⟨List.nodup_nil, by simp [start, opened]⟩

theorem nested_startInside (o : OutputId) (w : Writing) : (startInside outputs o w).Nested :=
  ⟨List.nodup_singleton o, by simp [startInside, opened, Writing.emit]⟩

/-- A declaration that begins was not emitted before, and so is not on the stack. -/
theorem Nested.advance (h : p.Nested) (hstep : p' ∈ advance outputs p) : p'.Nested := by
  obtain ⟨hnodup, hemitted⟩ := h
  rcases opened_advance hstep with ⟨o, hup, hw⟩ | ⟨hsame, hw⟩ | ⟨o, hdown, due, hw⟩
  · rw [hup] at hnodup hemitted
    refine ⟨(List.nodup_cons.mp hnodup).2, fun q hq => ?_⟩
    rw [hw]
    exact hemitted q (List.mem_cons_of_mem o hq)
  · exact ⟨hsame ▸ hnodup, fun q hq => (hw q).mpr (hemitted q (hsame ▸ hq))⟩
  · have hstate : p.writing.registry.state o = .referenced := by
      simp only [Writing.isDue, Bool.and_eq_true, beq_iff_eq] at due
      exact due.2
    have hnew : o ∉ p.opened := fun ho => by simp [hemitted o ho] at hstate
    refine ⟨hdown ▸ List.nodup_cons.mpr ⟨hnew, hnodup⟩, ?_⟩
    rw [hdown, hw]
    refine List.forall_mem_cons.mpr ⟨Registry.state_set_self _ _ _, fun q hq => ?_⟩
    have hne : q ≠ o := fun heq => hnew (heq ▸ hq)
    exact (Registry.state_set_of_ne _ _ hne).trans (hemitted q hq)

theorem Nested.of_reaches (h : p.Nested) (hreach : Reaches (Progress.advance outputs) p p') :
    p'.Nested := by
  induction hreach with
  | refl => exact h
  | tail _ hstep ih => exact ih.advance hstep

/-- Only outputs of the list are begun. -/
theorem lt_length_of_reaches (hreach : Reaches (advance outputs) p p')
    (h : ∀ o ∈ p.opened, o < outputs.length) : ∀ o ∈ p'.opened, o < outputs.length := by
  induction hreach with
  | refl => exact h
  | tail _ hstep ih =>
    rcases opened_advance hstep with ⟨o, hup, -⟩ | ⟨hsame, -⟩ | ⟨o, hdown, due, -⟩
    · rw [hup] at ih
      exact fun q hq => ih q (List.mem_cons_of_mem o hq)
    · rwa [hsame]
    · rw [hdown]
      simp only [Writing.isDue, Bool.and_eq_true, decide_eq_true_eq] at due
      exact List.forall_mem_cons.mpr ⟨due.1, ih⟩

end Progress

end TypeScriptComposer
