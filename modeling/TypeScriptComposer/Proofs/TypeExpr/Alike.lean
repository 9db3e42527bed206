import Mathlib
import TypeScriptComposer.Proofs.TypeExpr.ReadBack

/-!
# Types that are alike

The text of a type does not show whether `never` was an empty union, whether a type was the only
member of a union or an intersection, or which unions stood directly inside unions. Types that
differ in nothing else are alike. Alike types have the same weight, in which the members of a union
are added and those of an intersection are multiplied.
-/

set_option autoImplicit false

namespace TypeScriptComposer

namespace TypeExpr

inductive Alike : TypeExpr → TypeExpr → Prop
  | refl (t : TypeExpr) : Alike t t
  | symm {t u : TypeExpr} : Alike t u → Alike u t
  | trans {t u v : TypeExpr} : Alike t u → Alike u v → Alike t v
  | emptyUnion : Alike (.union []) never
  | emptyIntersection : Alike (.intersection []) unknown
  | unionOfOne (t : TypeExpr) : Alike (.union [t]) t
  | intersectionOfOne (t : TypeExpr) : Alike (.intersection [t]) t
  | noArguments (t : TypeExpr) : Alike (.applied t []) t
  | unionInUnion (ts : List TypeExpr) {us : List TypeExpr} (vs : List TypeExpr) : us ≠ [] →
      Alike (.union (ts ++ .union us :: vs)) (.union (ts ++ us ++ vs))
  | intersectionInIntersection (ts : List TypeExpr) {us : List TypeExpr} (vs : List TypeExpr) :
      us ≠ [] →
      Alike (.intersection (ts ++ .intersection us :: vs)) (.intersection (ts ++ us ++ vs))
  | base {t u : TypeExpr} (arguments : List TypeExpr) : Alike t u →
      Alike (.applied t arguments) (.applied u arguments)
  | argument (base : TypeExpr) (ts : List TypeExpr) {t u : TypeExpr} (vs : List TypeExpr) :
      Alike t u → Alike (.applied base (ts ++ t :: vs)) (.applied base (ts ++ u :: vs))
  | object (ms : List Member) (name : String) {t u : TypeExpr} (optional : Bool)
      (ns : List Member) : Alike t u →
      Alike (.object (ms ++ ⟨name, t, optional⟩ :: ns)) (.object (ms ++ ⟨name, u, optional⟩ :: ns))
  | tuple (ts : List TypeExpr) {t u : TypeExpr} (vs : List TypeExpr) : Alike t u →
      Alike (.tuple (ts ++ t :: vs)) (.tuple (ts ++ u :: vs))
  | intersection (ts : List TypeExpr) {t u : TypeExpr} (vs : List TypeExpr) : Alike t u →
      Alike (.intersection (ts ++ t :: vs)) (.intersection (ts ++ u :: vs))
  | union (ts : List TypeExpr) {t u : TypeExpr} (vs : List TypeExpr) : Alike t u →
      Alike (.union (ts ++ t :: vs)) (.union (ts ++ u :: vs))
  | parameter (ps : List (String × TypeExpr)) (name : String) {t u : TypeExpr}
      (qs : List (String × TypeExpr)) (returns : TypeExpr) : Alike t u →
      Alike (.function (ps ++ (name, t) :: qs) returns) (.function (ps ++ (name, u) :: qs) returns)
  | result (ps : List (String × TypeExpr)) {t u : TypeExpr} : Alike t u →
      Alike (.function ps t) (.function ps u)

namespace Alike

/-- Parts may be exchanged one after the other. -/
theorem of_forall₂ {α : Type} (make : List α → TypeExpr) {R : α → α → Prop}
    (hmake : ∀ ts {t u} vs, R t u → Alike (make (ts ++ t :: vs)) (make (ts ++ u :: vs)))
    {ts us : List α} (h : List.Forall₂ R ts us) : Alike (make ts) (make us) := by
  have hfront : ∀ front, Alike (make (front ++ ts)) (make (front ++ us)) := by
    induction h with
    | nil => exact fun front => .refl _
    | @cons t u ts us hfirst _ ih =>
      intro front
      have hrest := ih (front ++ [u])
      rw [List.append_assoc, List.append_assoc] at hrest
      exact (hmake front ts hfirst).trans hrest
  exact hfront []

/-- Members may be replaced by the members that they are made of. -/
theorem of_flatten (make : List TypeExpr → TypeExpr)
    (hmake : ∀ ts {t u} vs, Alike t u → Alike (make (ts ++ t :: vs)) (make (ts ++ u :: vs)))
    (hinner : ∀ ts {us} vs, us ≠ [] → Alike (make (ts ++ make us :: vs)) (make (ts ++ us ++ vs)))
    {tss : List (List TypeExpr)} {us : List TypeExpr}
    (h : List.Forall₂ (fun ts u => ts ≠ [] ∧ Alike (make ts) u) tss us) :
    Alike (make tss.flatten) (make us) := by
  have hfront : ∀ front, Alike (make (front ++ tss.flatten)) (make (front ++ us)) := by
    induction h with
    | nil => exact fun front => .refl _
    | @cons ts u tss us hfirst _ ih =>
      intro front
      have hrest := ih (front ++ [u])
      rw [List.append_assoc, List.append_assoc] at hrest
      rw [List.flatten_cons, ← List.append_assoc]
      exact ((hinner front _ hfirst.1).symm.trans (hmake front _ hfirst.2)).trans hrest
  exact hfront []

/-- Two members may be replaced by the members that they are made of. -/
theorem of_append (make : List TypeExpr → TypeExpr)
    (hmake : ∀ ts {t u} vs, Alike t u → Alike (make (ts ++ t :: vs)) (make (ts ++ u :: vs)))
    (hinner : ∀ ts {us} vs, us ≠ [] → Alike (make (ts ++ make us :: vs)) (make (ts ++ us ++ vs)))
    {ts us : List TypeExpr} {t u : TypeExpr} (hts : ts ≠ []) (h : Alike (make ts) t)
    (hus : us ≠ []) (h' : Alike (make us) u) : Alike (make (ts ++ us)) (make [t, u]) := by
  have hflatten := of_flatten make hmake hinner (.cons ⟨hts, h⟩ (.cons ⟨hus, h'⟩ .nil))
  simpa using hflatten

theorem unionOf (ts : List TypeExpr) : Alike (unionOf ts) (.union ts) := by
  unfold TypeExpr.unionOf
  split
  · exact .symm (.unionOfOne _)
  · exact .refl _

theorem intersectionOf (ts : List TypeExpr) : Alike (intersectionOf ts) (.intersection ts) := by
  unfold TypeExpr.intersectionOf
  split
  · exact .symm (.intersectionOfOne _)
  · exact .refl _

end Alike

mutual

/-- A number that alike types share. -/
def weight : TypeExpr → Nat
  | .named .. | .typeVar _ => 2
  | .applied base arguments => weight base + (weights arguments).sum
  | .object members => 2 + weightOfMembers members
  | .tuple members => 2 + (weights members).sum
  | .intersection members => if members.isEmpty then 2 else (weights members).prod
  | .union members => if members.isEmpty then 2 else (weights members).sum
  | .function parameters returns => 2 + weightOfParameters parameters + weight returns

def weights : List TypeExpr → List Nat
  | [] => []
  | t :: ts => weight t :: weights ts

def weightOfMembers : List Member → Nat
  | [] => 0
  | ⟨_, t, _⟩ :: ms => weight t + weightOfMembers ms

def weightOfParameters : List (String × TypeExpr) → Nat
  | [] => 0
  | (_, t) :: ps => weight t + weightOfParameters ps

end

theorem weights_eq_map (ts : List TypeExpr) : weights ts = ts.map fun t => t.weight := by
  induction ts with
  | nil => rfl
  | cons t ts ih => rw [weights, ih, List.map_cons]

theorem weightOfMembers_eq_sum (ms : List Member) :
    weightOfMembers ms = (ms.map (·.type.weight)).sum := by
  induction ms with
  | nil => rfl
  | cons m ms ih =>
    obtain ⟨member, type, optional⟩ := m
    rw [weightOfMembers, ih, List.map_cons, List.sum_cons]

theorem weightOfParameters_eq_sum (ps : List (String × TypeExpr)) :
    weightOfParameters ps = (ps.map (·.2.weight)).sum := by
  induction ps with
  | nil => rfl
  | cons p ps ih => rw [weightOfParameters, ih, List.map_cons, List.sum_cons]

theorem Alike.weight_eq {t u : TypeExpr} (h : Alike t u) : t.weight = u.weight := by
  induction h with
  | refl t => rfl
  | symm _ ih => exact ih.symm
  | trans _ _ ih ih' => exact ih.trans ih'
  | unionInUnion ts vs hne | intersectionInIntersection ts vs hne =>
    simp [weight, weights_eq_map, hne]
  | emptyUnion | emptyIntersection => rfl
  | unionOfOne t | intersectionOfOne t | noArguments t => simp [weight, weights]
  | base _ _ ih | argument _ _ _ _ ih | tuple _ _ _ ih | union _ _ _ ih | intersection _ _ _ ih
  | result _ _ ih => simp [weight, weights_eq_map, ih]
  | object _ _ _ _ _ ih => simp [weight, weightOfMembers_eq_sum, ih]
  | parameter _ _ _ _ _ ih => simp [weight, weightOfParameters_eq_sum, ih]

end TypeExpr

end TypeScriptComposer
