import Mathlib.Data.List.Forall2
import TypeScriptComposer.TypeExpr

/-!
# Induction on types

Types contain lists of types, of members and of parameters. An induction on a type assumes that the
statement holds of every part in them.
-/

set_option autoImplicit false

namespace TypeScriptComposer

theorem forall₂_map_iff {α β γ : Type} {R : β → γ → Prop} {f : α → β} {g : α → γ} {as : List α} :
    List.Forall₂ R (as.map f) (as.map g) ↔ ∀ a ∈ as, R (f a) (g a) := by
  simp [List.forall₂_map_left_iff, List.forall₂_map_right_iff, List.forall₂_same]

namespace TypeExpr

section
variable {P : TypeExpr → Prop}
  (named : ∀ usage s, P (.named usage s))
  (applied : ∀ base arguments, P base → (∀ t ∈ arguments, P t) → P (.applied base arguments))
  (typeVar : ∀ v, P (.typeVar v))
  (object : ∀ members : List Member, (∀ m ∈ members, P m.type) → P (.object members))
  (tuple : ∀ members, (∀ t ∈ members, P t) → P (.tuple members))
  (intersection : ∀ members, (∀ t ∈ members, P t) → P (.intersection members))
  (union : ∀ members, (∀ t ∈ members, P t) → P (.union members))
  (function : ∀ parameters returns, (∀ p ∈ parameters, P p.2) → P returns →
    P (.function parameters returns))
-- the hypotheses are used by the theorems of the mutual block together
set_option linter.unusedSectionVars false
include named applied typeVar object tuple intersection union function

mutual

/-- Induction on a type: what holds of a type when it holds of its parts holds of every type. The
bounds of a type variable are not parts of the type. -/
theorem induction : ∀ t, P t
  | .named usage s => named usage s
  | .applied base arguments => applied base arguments (induction base) (inductionAll arguments)
  | .typeVar v => typeVar v
  | .object members => object members (inductionMembers members)
  | .tuple members => tuple members (inductionAll members)
  | .intersection members => intersection members (inductionAll members)
  | .union members => union members (inductionAll members)
  | .function parameters returns =>
    function parameters returns (inductionParameters parameters) (induction returns)

theorem inductionAll : ∀ ts : List TypeExpr, ∀ t ∈ ts, P t
  | [] => by simp
  | t :: ts => List.forall_mem_cons.mpr ⟨induction t, inductionAll ts⟩

theorem inductionMembers : ∀ ms : List Member, ∀ m ∈ ms, P m.type
  | [] => by simp
  | ⟨_, type, _⟩ :: ms => List.forall_mem_cons.mpr ⟨induction type, inductionMembers ms⟩

theorem inductionParameters : ∀ ps : List (String × TypeExpr), ∀ p ∈ ps, P p.2
  | [] => by simp
  | (_, type) :: ps => List.forall_mem_cons.mpr ⟨induction type, inductionParameters ps⟩

end

end

end TypeExpr

end TypeScriptComposer
