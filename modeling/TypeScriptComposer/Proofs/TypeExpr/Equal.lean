import Mathlib.Data.List.Perm.Subperm
import TypeScriptComposer.Proofs.TypeExpr.Induction
import TypeScriptComposer.TypeExpr.Equality
import TypeScriptComposer.TypeExpr.Print

/-!
# Equal types

Types are equal when they are the same tree, but for the order in which function types list their
parameters and for the bounds of type variables. An induction on two equal types assumes that the
statement holds of the parts that correspond to each other; parameters correspond by their names,
for which the parameters of a function type have to be a dictionary.
-/

set_option autoImplicit false

namespace TypeScriptComposer

theorem forall₂_imp_of_mem {α β : Type} {R S : α → β → Prop} {as : List α} {bs : List β}
    (h : List.Forall₂ R as bs) (himp : ∀ a ∈ as, ∀ b ∈ bs, R a b → S a b) :
    List.Forall₂ S as bs := by
  induction h with
  | nil => exact .nil
  | cons hab _ ih =>
    refine .cons (himp _ List.mem_cons_self _ List.mem_cons_self hab) (ih ?_)
    intro a ha b hb
    exact himp a (List.mem_cons_of_mem _ ha) b (List.mem_cons_of_mem _ hb)

theorem isEmpty_of_forall₂ {α β : Type} {R : α → β → Prop} {as : List α} {bs : List β}
    (h : List.Forall₂ R as bs) : as.isEmpty = bs.isEmpty := by
  cases h <;> rfl

namespace TypeExpr

mutual

/-- Whether the parameters of every printed function type have different names, as the entries of a
dictionary do. -/
def isKeyed : TypeExpr → Bool
  | .named .. | .typeVar _ => true
  | .applied base arguments => isKeyed base && areKeyed arguments
  | .object members => membersKeyed members
  | .tuple members | .intersection members | .union members => areKeyed members
  | .function parameters returns =>
    decide (parameters.map (·.1)).Nodup && parametersKeyed parameters && isKeyed returns

def areKeyed : List TypeExpr → Bool
  | [] => true
  | t :: ts => isKeyed t && areKeyed ts

def membersKeyed : List Member → Bool
  | [] => true
  | ⟨_, t, _⟩ :: ms => isKeyed t && membersKeyed ms

def parametersKeyed : List (String × TypeExpr) → Bool
  | [] => true
  | (_, t) :: ps => isKeyed t && parametersKeyed ps

end

theorem areKeyed_iff (ts : List TypeExpr) :
    areKeyed ts = true ↔ ∀ t ∈ ts, t.isKeyed = true := by
  induction ts with
  | nil => simp [areKeyed]
  | cons t ts ih => simp [areKeyed, ih]

theorem areKeyed_append (ts us : List TypeExpr) :
    areKeyed (ts ++ us) = true ↔ areKeyed ts = true ∧ areKeyed us = true := by
  simp only [areKeyed_iff, List.forall_mem_append]

theorem areKeyed_singleton (t : TypeExpr) : areKeyed [t] = t.isKeyed := by simp [areKeyed]

theorem membersKeyed_iff (ms : List Member) :
    membersKeyed ms = true ↔ ∀ m ∈ ms, m.type.isKeyed = true := by
  induction ms with
  | nil => simp [membersKeyed]
  | cons m ms ih =>
    cases m
    simp [membersKeyed, ih]

theorem parametersKeyed_iff (ps : List (String × TypeExpr)) :
    parametersKeyed ps = true ↔ ∀ p ∈ ps, p.2.isKeyed = true := by
  induction ps with
  | nil => simp [parametersKeyed]
  | cons p ps ih => simp [parametersKeyed, ih]

section
variable {parameters : List (String × TypeExpr)} {name : String} {type : TypeExpr}

theorem mem_setParameter {p : String × TypeExpr} (h : p ∈ setParameter parameters name type) :
    p = (name, type) ∨ p ∈ parameters := by
  unfold setParameter at h
  split at h
  · obtain ⟨q, hq, hqp⟩ := List.mem_map.mp h
    split at hqp
    · exact Or.inl hqp.symm
    · exact Or.inr (hqp ▸ hq)
  · simpa [or_comm] using h

theorem nodup_setParameter (h : (parameters.map (·.1)).Nodup) :
    ((setParameter parameters name type).map (·.1)).Nodup := by
  unfold setParameter
  split
  · have hnames : (parameters.map fun p => if p.1 == name then (name, type) else p).map (·.1) =
        parameters.map (·.1) := by
      rw [List.map_map]
      apply List.map_congr_left
      intro p _
      by_cases hp : p.1 = name <;> simp [hp]
    rwa [hnames]
  · rename_i hnew
    rw [List.map_append, List.nodup_append]
    refine ⟨h, by simp, ?_⟩
    intro a ha b hb
    obtain ⟨p, hp, rfl⟩ := List.mem_map.mp ha
    obtain rfl : b = name := by simpa using hb
    intro heq
    exact hnew (List.any_eq_true.mpr ⟨p, hp, by simpa using heq⟩)

end

/-- The function types that can be made are dictionaries of their parameters. -/
theorem isKeyed_lambda {parameters : List (String × TypeExpr)} {returns : TypeExpr}
    (h : ∀ p ∈ parameters, p.2.isKeyed = true) (hreturns : returns.isKeyed = true) :
    (lambda parameters returns).isKeyed = true := by
  have hall (ps : List (String × TypeExpr)) (hps : ∀ p ∈ ps, p.2.isKeyed = true)
      (known : List (String × TypeExpr)) (hnodup : (known.map (·.1)).Nodup)
      (hknown : ∀ p ∈ known, p.2.isKeyed = true) :
      let made := ps.foldl (fun ps p => setParameter ps p.1 p.2) known
      (made.map (·.1)).Nodup ∧ ∀ p ∈ made, p.2.isKeyed = true := by
    induction ps generalizing known with
    | nil => exact ⟨hnodup, hknown⟩
    | cons p ps ih =>
      obtain ⟨hp, hrest⟩ := List.forall_mem_cons.mp hps
      apply ih hrest _ (nodup_setParameter hnodup)
      intro q hq
      rcases mem_setParameter hq with rfl | hq
      · exact hp
      · exact hknown q hq
  obtain ⟨hnodup, hkeyed⟩ := hall parameters h [] (by simp) (by simp)
  simp only [lambda, isKeyed, Bool.and_eq_true, decide_eq_true_eq, parametersKeyed_iff]
  exact ⟨⟨hnodup, hkeyed⟩, hreturns⟩

theorem lookup_of_sameParameters {ps qs : List (String × TypeExpr)}
    (h : sameParameters ps qs = true) {p : String × TypeExpr} (hp : p ∈ ps) :
    ∃ type, qs.lookup p.1 = some type ∧ p.2.same type = true := by
  induction ps with
  | nil => simp at hp
  | cons q ps ih =>
    rw [sameParameters, Bool.and_eq_true] at h
    rcases List.mem_cons.mp hp with rfl | hp
    · cases hlookup : qs.lookup p.1 with
      | none => simp [hlookup] at h
      | some type => exact ⟨type, rfl, by simpa [hlookup] using h.1⟩
    · exact ih h.2 hp

theorem lookup_of_nodup {qs : List (String × TypeExpr)} (h : (qs.map (·.1)).Nodup)
    {q : String × TypeExpr} (hq : q ∈ qs) : qs.lookup q.1 = some q.2 := by
  induction qs with
  | nil => simp at hq
  | cons p qs ih =>
    rw [List.map_cons, List.nodup_cons] at h
    rcases List.mem_cons.mp hq with rfl | hq
    · exact List.lookup_cons_self
    · have hne : q.1 ≠ p.1 := fun heq => h.1 (heq ▸ List.mem_map_of_mem hq)
      rw [List.lookup_cons, beq_false_of_ne hne]
      exact ih h.2 hq

/-- Parameters of equal dictionaries that have the same name have equal types. -/
theorem same_of_sameParameters {ps qs : List (String × TypeExpr)}
    (hsame : sameParameters ps qs = true) (hnodup : (qs.map (·.1)).Nodup)
    {p q : String × TypeExpr} (hp : p ∈ ps) (hq : q ∈ qs) (hname : p.1 = q.1) :
    p.2.same q.2 = true := by
  obtain ⟨type, hlookup, htype⟩ := lookup_of_sameParameters hsame hp
  rw [hname, lookup_of_nodup hnodup hq] at hlookup
  cases hlookup
  exact htype

/-- Equal dictionaries have the same names, because they have as many. -/
theorem names_of_sameParameters {ps qs : List (String × TypeExpr)}
    (hlength : ps.length = qs.length) (hsame : sameParameters ps qs = true)
    (hnodup : (ps.map (·.1)).Nodup) (name : String) :
    name ∈ ps.map (·.1) ↔ name ∈ qs.map (·.1) := by
  have hsubset : ps.map (·.1) ⊆ qs.map (·.1) := by
    intro name hname
    obtain ⟨p, hp, rfl⟩ := List.mem_map.mp hname
    obtain ⟨type, hlookup, -⟩ := lookup_of_sameParameters hsame hp
    obtain ⟨before, after, hqs, -⟩ := List.lookup_eq_some_iff.mp hlookup
    simp [hqs]
  have hle : (qs.map (·.1)).length ≤ (ps.map (·.1)).length := by simp [hlength]
  exact ((List.Nodup.subperm hnodup hsubset).perm_of_length_le hle).mem_iff

theorem forall₂_of_sameAll {ts us : List TypeExpr} (h : sameAll ts us = true) :
    List.Forall₂ (fun t u => t.same u = true) ts us := by
  induction ts generalizing us with
  | nil =>
    cases us with
    | nil => exact .nil
    | cons u us => simp [sameAll] at h
  | cons t ts ih =>
    cases us with
    | nil => simp [sameAll] at h
    | cons u us =>
      rw [sameAll, Bool.and_eq_true] at h
      exact .cons h.1 (ih h.2)

theorem forall₂_of_sameMembers {ms ns : List Member} (h : sameMembers ms ns = true) :
    List.Forall₂ (fun m n => m.name = n.name ∧ m.optional = n.optional ∧ m.type.same n.type = true)
      ms ns := by
  induction ms generalizing ns with
  | nil =>
    cases ns with
    | nil => exact .nil
    | cons n ns => simp [sameMembers] at h
  | cons m ms ih =>
    cases ns with
    | nil => simp [sameMembers] at h
    | cons n ns =>
      cases m
      cases n
      simp only [sameMembers, Bool.and_eq_true, beq_iff_eq] at h
      obtain ⟨⟨⟨hname, htype⟩, hoptional⟩, hrest⟩ := h
      exact .cons ⟨hname, hoptional, htype⟩ (ih hrest)

theorem isFunction_of_same {t u : TypeExpr} (h : t.same u = true) :
    t.isFunction = u.isFunction := by
  cases t <;> cases u <;> simp_all [same, isFunction]

theorem isProperUnion_of_same {t u : TypeExpr} (h : t.same u = true) :
    t.isProperUnion = u.isProperUnion := by
  cases t <;> cases u <;> simp only [same, Bool.false_eq_true] at h <;> try rfl
  -- two unions are left, which are proper when a member follows the first one
  cases forall₂_of_sameAll h with
  | nil => rfl
  | cons _ hrest => cases hrest <;> rfl

theorem loosens_of_same {t u : TypeExpr} (h : t.same u = true) : t.loosens = u.loosens := by
  rw [loosens, loosens, isFunction_of_same h, isProperUnion_of_same h]

section
variable {P : TypeExpr → TypeExpr → Prop}
  (named : ∀ usage s, P (.named usage s) (.named usage s))
  (applied : ∀ {base base' arguments arguments'}, P base base' →
    List.Forall₂ (fun t u => t.same u = true ∧ P t u) arguments arguments' →
    P (.applied base arguments) (.applied base' arguments'))
  (typeVar : ∀ name bounds bounds', P (.typeVar ⟨name, bounds⟩) (.typeVar ⟨name, bounds'⟩))
  (object : ∀ {members members' : List Member}, List.Forall₂ (fun m n => m.name = n.name ∧
    m.optional = n.optional ∧ P m.type n.type) members members' →
    P (.object members) (.object members'))
  (tuple : ∀ {members members'},
    List.Forall₂ (fun t u => t.same u = true ∧ P t u) members members' →
    P (.tuple members) (.tuple members'))
  (intersection : ∀ {members members'},
    List.Forall₂ (fun t u => t.same u = true ∧ P t u) members members' →
    P (.intersection members) (.intersection members'))
  (union : ∀ {members members'},
    List.Forall₂ (fun t u => t.same u = true ∧ P t u) members members' →
    P (.union members) (.union members'))
  (function : ∀ {parameters parameters' : List (String × TypeExpr)} {returns returns'},
    parameters.length = parameters'.length →
    (∀ name, name ∈ parameters.map (·.1) ↔ name ∈ parameters'.map (·.1)) →
    (∀ p ∈ parameters, ∀ q ∈ parameters', p.1 = q.1 → P p.2 q.2) → P returns returns' →
    P (.function parameters returns) (.function parameters' returns'))
include named applied typeVar object tuple intersection union function

/-- Induction on two equal types. Members and arguments correspond by their places, parameters by
their names. -/
theorem sameInduction (t u : TypeExpr) (h : t.same u = true) (ht : t.isKeyed = true)
    (hu : u.isKeyed = true) : P t u := by
  have hall {ts us : List TypeExpr} (ih : ∀ t ∈ ts, ∀ u, t.same u = true → t.isKeyed = true →
      u.isKeyed = true → P t u) (h : sameAll ts us = true) (hts : areKeyed ts = true)
      (hus : areKeyed us = true) : List.Forall₂ (fun t u => t.same u = true ∧ P t u) ts us := by
    rw [areKeyed_iff] at hts hus
    exact forall₂_imp_of_mem (forall₂_of_sameAll h) fun t ht u hu hsame =>
      ⟨hsame, ih t ht u hsame (hts t ht) (hus u hu)⟩
  induction t using TypeExpr.induction generalizing u with
  | named usage s =>
    cases u with
    | named usage' s' =>
      obtain ⟨rfl, rfl⟩ : usage = usage' ∧ s = s' := by simpa [same] using h
      exact named usage s
    | _ => simp [same] at h
  | typeVar v =>
    cases u with
    | typeVar w =>
      obtain ⟨name, bounds⟩ := v
      obtain ⟨name', bounds'⟩ := w
      simp only [same, TypeVariable.same, Bool.and_eq_true, beq_iff_eq] at h
      rw [h.1]
      exact typeVar name' bounds bounds'
    | _ => simp [same] at h
  | applied base arguments ihBase ih =>
    cases u with
    | applied base' arguments' =>
      rw [same, Bool.and_eq_true] at h
      rw [isKeyed, Bool.and_eq_true] at ht hu
      exact applied (ihBase base' h.1 ht.1 hu.1) (hall ih h.2 ht.2 hu.2)
    | _ => simp [same] at h
  | object members ih =>
    cases u with
    | object members' =>
      rw [same] at h
      rw [isKeyed, membersKeyed_iff] at ht hu
      refine object (forall₂_imp_of_mem (forall₂_of_sameMembers h) ?_)
      rintro m hm n hn ⟨hname, hoptional, htype⟩
      exact ⟨hname, hoptional, ih m hm n.type htype (ht m hm) (hu n hn)⟩
    | _ => simp [same] at h
  | tuple members ih =>
    cases u with
    | tuple members' =>
      rw [same] at h
      exact tuple (hall ih h ht hu)
    | _ => simp [same] at h
  | intersection members ih =>
    cases u with
    | intersection members' =>
      rw [same] at h
      exact intersection (hall ih h ht hu)
    | _ => simp [same] at h
  | union members ih =>
    cases u with
    | union members' =>
      rw [same] at h
      exact union (hall ih h ht hu)
    | _ => simp [same] at h
  | function parameters returns ih ihReturns =>
    cases u with
    | function parameters' returns' =>
      simp only [same, Bool.and_eq_true, beq_iff_eq] at h
      simp only [isKeyed, Bool.and_eq_true, decide_eq_true_eq, parametersKeyed_iff] at ht hu
      obtain ⟨⟨hlength, hsame⟩, hreturns⟩ := h
      refine function hlength (names_of_sameParameters hlength hsame ht.1.1) ?_
        (ihReturns returns' hreturns ht.2 hu.2)
      intro p hp q hq hname
      exact ih p hp q.2 (same_of_sameParameters hsame hu.1.1 hp hq hname) (ht.1.2 p hp)
        (hu.1.2 q hq)
    | _ => simp [same] at h

end

end TypeExpr

end TypeScriptComposer
