import TypeScriptComposer.Proofs.Constraint.Bounds
import TypeScriptComposer.Proofs.TypeExpr.Marks
import TypeScriptComposer.Proofs.TypeExpr.Structure

/-!
# What a constraint means

A bound is combined with the whole of the bounds before it, and an operator of keys takes the whole
type of its bound. The text puts nothing in parentheses for that. It is read as it was meant exactly
when the precedence of the marks does no harm: an ampersand has no bar on either side, an operator
of keys stands in front of a single operand, and a function type stands alone.
-/

set_option autoImplicit false

namespace TypeScriptComposer

namespace TypeExpr

theorem Filled.keyed {as : List (List TypeExpr)} (h : Filled as) (keys : TypeExpr → TypeExpr) :
    Filled (keyed keys as) := by
  obtain ⟨fs, as, rfl⟩ := List.exists_cons_of_ne_nil h.1
  obtain ⟨hfs, has⟩ := List.forall_mem_cons.mp h.2
  refine ⟨by simp [TypeExpr.keyed], List.forall_mem_cons.mpr ⟨?_, has⟩⟩
  cases fs with
  | nil => exact (hfs rfl).elim
  | cons f fs => simp

/-- What stands for the keys of a type does not depend on what its text does not show. -/
def RespectsAlike (keys : TypeExpr → TypeExpr) : Prop :=
  ∀ ⦃t u⦄, Alike t u → Alike (keys t) (keys u)

end TypeExpr

open TypeExpr

/-- A bound combined with all that is in front of it. -/
def Combiner.combine : Combiner → TypeExpr → TypeExpr → TypeExpr
  | .union, t, u => .union [t, u]
  | .intersection, t, u => .intersection [t, u]

namespace Bound
variable (keys : TypeExpr → TypeExpr) (name : Symbol → String)

/-- What a bound says: its whole type, or the keys of its whole type. -/
def meaning (b : Bound) : TypeExpr :=
  if b.keyOf then keys (b.type.spelled name) else b.type.spelled name

/-- What bounds say behind `t`: from left to right, each is combined with all before it. -/
def meaningOfAll (t : TypeExpr) (bs : List Bound) : TypeExpr :=
  bs.foldl (fun t b => b.combiner.combine t (b.meaning keys name)) t

/-- Whether the text of a bound is read as what it says: an operator of keys must have nothing but a
single operand behind it. -/
def isExact (b : Bound) : Bool := b.type.isTight && (!b.keyOf || b.type.marks == 0)

/-- Whether no ampersand between bounds has a bar on either side; `barred` tells whether there is
one in front of them. -/
def meetExactly (barred : Bool) : List Bound → Bool
  | [] => true
  | b :: bs =>
    (b.combiner == .union || !(barred || b.type.bars != 0)) &&
      meetExactly (barred || b.type.bars != 0 || b.combiner == .union) bs

/-- Whether the text of a constraint is read as what its bounds say. A function type must be the only
bound and have no operator in front of it. -/
def areExact (first : Bound) (rest : List Bound) : Bool :=
  if (first :: rest).any (·.type.isFunction) then
    rest.isEmpty && !first.keyOf && first.type.isTight
  else (first :: rest).all isExact && meetExactly (first.type.bars != 0) rest

theorem filled_terms (b : Bound) : Filled (b.terms keys name) := by
  unfold terms
  split
  · exact (TypeExpr.filled_terms name b.type).keyed keys
  · exact TypeExpr.filled_terms name b.type

theorem length_terms (b : Bound) : (b.terms keys name).length = b.type.bars + 1 := by
  unfold terms
  split
  · rw [keyed, List.length_modifyHead, TypeExpr.length_terms]
  · exact TypeExpr.length_terms name b.type

theorem length_terms_ne_one (b : Bound) :
    ((b.terms keys name).length != 1) = (b.type.bars != 0) := by
  simp [b.length_terms keys name, bne]

end Bound

namespace Combiner
variable {as bs : List (List TypeExpr)} {t u : TypeExpr}

theorem filled_join (ha : Filled as) (hb : Filled bs) (c : Combiner) : Filled (c.join as bs) := by
  cases c with
  | union => exact ha.append hb
  | intersection => exact ha.juxtapose hb

theorem length_join_ne_one (ha : Filled as) (hb : Filled bs) (c : Combiner) :
    ((c.join as bs).length != 1) = (as.length != 1 || bs.length != 1 || c == .union) := by
  have hlength := List.length_pos_iff.mpr ha.1
  have hlength' := List.length_pos_iff.mpr hb.1
  rw [Bool.eq_iff_iff]
  cases c with
  | union =>
    have hne : (as ++ bs).length ≠ 1 := by
      rw [List.length_append]
      omega
    simpa [join] using hne
  | intersection =>
    have hjoin := length_juxtapose ha.1 hb.1
    have hne : (juxtapose as bs).length ≠ 1 ↔ as.length ≠ 1 ∨ bs.length ≠ 1 := by omega
    simpa [join] using hne

/-- Where an ampersand has no bar on either side, what is read is what was combined. -/
theorem alike_join (ha : Filled as) (hb : Filled bs) (h : Alike (ofTerms as) t)
    (h' : Alike (ofTerms bs) u) (c : Combiner)
    (hmeet : c = .union ∨ as.length = 1 ∧ bs.length = 1) :
    Alike (ofTerms (c.join as bs)) (c.combine t u) := by
  cases c with
  | union =>
    rw [join, ofTerms, List.map_append]
    refine (Alike.unionOf _).trans (Alike.of_append .union .union .unionInUnion ?_ ?_ ?_ ?_)
    · simpa using ha.1
    · exact (Alike.unionOf _).symm.trans h
    · simpa using hb.1
    · exact (Alike.unionOf _).symm.trans h'
  | intersection =>
    obtain ⟨hlength, hlength'⟩ := hmeet.resolve_left (by simp)
    obtain ⟨fs, rfl⟩ := List.length_eq_one_iff.mp hlength
    obtain ⟨gs, rfl⟩ := List.length_eq_one_iff.mp hlength'
    refine (Alike.intersectionOf (fs ++ gs)).trans
      (Alike.of_append .intersection .intersection .intersectionInIntersection ?_ ?_ ?_ ?_)
    · exact ha.2 fs (by simp)
    · exact (Alike.intersectionOf fs).symm.trans h
    · exact hb.2 gs (by simp)
    · exact (Alike.intersectionOf gs).symm.trans h'

end Combiner

namespace Bound
variable {keys : TypeExpr → TypeExpr} {name : Symbol → String} {as : List (List TypeExpr)}
  {t : TypeExpr} {bs : List Bound}

theorem alike_terms (hkeys : RespectsAlike keys) {b : Bound} (h : b.isExact = true) :
    Alike (ofTerms (b.terms keys name)) (b.meaning keys name) := by
  obtain ⟨htight, hkeyOf⟩ : b.type.isTight = true ∧ (b.keyOf = false ∨ b.type.marks = 0) := by
    simpa [isExact] using h
  have htype : Alike (b.type.reading name) (b.type.spelled name) := alike_reading b.type htight
  unfold terms meaning
  cases hb : b.keyOf with
  | false => exact htype
  | true =>
    obtain ⟨u, hu⟩ := exists_terms_eq name (hkeyOf.resolve_left (by simp [hb]))
    rw [reading, hu] at htype
    rw [if_pos rfl, if_pos rfl, hu]
    exact hkeys htype

theorem alike_termsOfAll (hkeys : RespectsAlike keys) (ha : Filled as)
    (h : Alike (ofTerms as) t) (hexact : ∀ b ∈ bs, b.isExact = true)
    (hmeet : meetExactly (as.length != 1) bs = true) :
    Alike (ofTerms (termsOfAll keys name as bs)) (meaningOfAll keys name t bs) := by
  induction bs generalizing as t with
  | nil => exact h
  | cons b bs ih =>
    obtain ⟨hb, hbs⟩ := List.forall_mem_cons.mp hexact
    have hfilled := b.filled_terms keys name
    rw [meetExactly, Bool.and_eq_true, ← b.length_terms_ne_one keys name] at hmeet
    obtain ⟨hjoin, hmeet⟩ := hmeet
    refine ih (Combiner.filled_join ha hfilled _) ?_ hbs ?_
    · refine Combiner.alike_join ha hfilled h (alike_terms hkeys hb) _ ?_
      simpa using hjoin
    · rw [Combiner.length_join_ne_one ha hfilled]
      exact hmeet

end Bound

/-- The members of a combined type multiply or add up. -/
theorem Combiner.weight_combine (c : Combiner) (t u : TypeExpr) :
    (c.combine t u).weight =
      if c = .union then t.weight + u.weight else t.weight * u.weight := by
  cases c <;> simp [combine, weight, weights]

/-- Keys that square the weight of a type, which tells what an operator was applied to. -/
def twice (t : TypeExpr) : TypeExpr := .intersection [t, t]

theorem respectsAlike_twice : RespectsAlike twice := fun _ _ h =>
  (Alike.intersection [] _ h).trans (.intersection [_] [] h)

theorem weight_twice (t : TypeExpr) : (twice t).weight = t.weight * t.weight := by
  simp [twice, weight, weights]

/-- What is read weighs no more than what is meant, and as much only under the condition. -/
structure Weighs (as : List (List TypeExpr)) (t : TypeExpr) (P : Prop) : Prop where
  filled : Filled as
  le : weightOfTerms as ≤ t.weight
  exact : t.weight ≤ weightOfTerms as → P

theorem Weighs.join {as bs : List (List TypeExpr)} {t u : TypeExpr} {P Q : Prop}
    (ht : Weighs as t P) (hu : Weighs bs u Q) (c : Combiner) :
    Weighs (c.join as bs) (c.combine t u)
      (P ∧ Q ∧ (c = .union ∨ as.length = 1 ∧ bs.length = 1)) := by
  have hle := ht.le
  have hle' := hu.le
  cases c with
  | union =>
    refine ⟨ht.filled.append hu.filled, ?_, ?_⟩
    all_goals
      rw [Combiner.weight_combine, if_pos rfl, Combiner.join, weightOfTerms_append]
    · omega
    · exact fun h => ⟨ht.exact (by omega), hu.exact (by omega), .inl rfl⟩
  | intersection =>
    obtain ⟨hjoin, hjoinlt⟩ := weightOfTerms_juxtapose ht.filled hu.filled
    have hmul := Nat.mul_le_mul hle hle'
    refine ⟨ht.filled.juxtapose hu.filled, ?_, ?_⟩
    all_goals rw [Combiner.weight_combine, if_neg (by simp), Combiner.join]
    · exact hjoin.trans hmul
    · intro h
      have htwo := two_le_weightOfTerms ht.filled
      have htwo' := two_le_weightOfTerms hu.filled
      obtain ⟨heq, heq'⟩ := (mul_eq_mul_iff_eq_and_eq_of_pos hle hle' (by omega) (by omega)).mp
        (Nat.le_antisymm hmul (h.trans hjoin))
      -- several alternatives on either side would make the product smaller
      have hshort : ¬ (2 ≤ as.length ∨ 2 ≤ bs.length) := fun hlong =>
        Nat.lt_irrefl _ (Nat.lt_of_lt_of_le (hjoinlt hlong) (hmul.trans h))
      have hlength := List.length_pos_iff.mpr ht.filled.1
      have hlength' := List.length_pos_iff.mpr hu.filled.1
      exact ⟨ht.exact heq.ge, hu.exact heq'.ge, .inr (by omega)⟩

/-- The square of a sum of products against the sum in which only the first factor is squared. -/
theorem mul_add_le_square (p r : Nat) {f : Nat} (hf : 2 ≤ f) (hp : 0 < p) :
    f * f * p + r ≤ (f * p + r) * (f * p + r) ∧
    ((f * p + r) * (f * p + r) ≤ f * f * p + r → p = 1 ∧ r = 0) := by
  have hproduct : f ≤ f * p := Nat.le_mul_of_pos_right f hp
  have hsquare : f * f * p ≤ f * p * (f * p) := by
    rw [Nat.mul_assoc]
    exact Nat.mul_le_mul_right _ hproduct
  have hrest : 2 * r ≤ f * p * r := Nat.mul_le_mul_right r (hf.trans hproduct)
  have hexpand : (f * p + r) * (f * p + r) = f * p * (f * p) + 2 * (f * p * r) + r * r := by ring
  rw [hexpand]
  refine ⟨by omega, ?_⟩
  intro h
  have hr : r = 0 := by omega
  have hle : f * p * (f * p) ≤ f * (f * p) := by
    rw [← Nat.mul_assoc f f p]
    omega
  have hfp := Nat.le_of_mul_le_mul_right hle (by omega)
  have hp' : p ≤ 1 := Nat.le_of_mul_le_mul_left (by omega) (by omega : 0 < f)
  exact ⟨by omega, hr⟩

/-- Doubling the first factor only weighs less than the square of all, unless it is all. -/
theorem weightOfTerms_keyed_twice {as : List (List TypeExpr)} (h : Filled as) :
    weightOfTerms (keyed twice as) ≤ weightOfTerms as * weightOfTerms as ∧
    (weightOfTerms as * weightOfTerms as ≤ weightOfTerms (keyed twice as) →
      as.flatten.length = 1) := by
  obtain ⟨fs, as, rfl⟩ := List.exists_cons_of_ne_nil h.1
  obtain ⟨hfs, has⟩ := List.forall_mem_cons.mp h.2
  obtain ⟨f, fs, rfl⟩ := List.exists_cons_of_ne_nil hfs
  have hplain : weightOfTerms ((f :: fs) :: as) =
      f.weight * weightOfFactors fs + weightOfTerms as := by
    simp [weightOfTerms, weightOfFactors]
  have hkeyed : weightOfTerms (keyed twice ((f :: fs) :: as)) =
      f.weight * f.weight * weightOfFactors fs + weightOfTerms as := by
    simp [keyed, weightOfTerms, weightOfFactors, weight_twice]
  have hfactors : 0 < weightOfFactors fs ∧ (weightOfFactors fs = 1 → fs = []) := by
    by_cases hnil : fs = []
    · simp [hnil, weightOfFactors]
    · have htwo := two_le_weightOfFactors hnil
      exact ⟨by omega, by omega⟩
  have halternatives : weightOfTerms as = 0 → as = [] := by
    intro hzero
    by_contra hne
    have htwo := two_le_weightOfTerms ⟨hne, has⟩
    omega
  obtain ⟨hle, heq⟩ := mul_add_le_square (weightOfFactors fs) (weightOfTerms as)
    (two_le_weight f) hfactors.1
  rw [hplain, hkeyed]
  refine ⟨hle, ?_⟩
  intro hge
  obtain ⟨hone, hzero⟩ := heq hge
  simp [hfactors.2 hone, halternatives hzero]

namespace Bound
variable {name : Symbol → String} {as : List (List TypeExpr)} {t : TypeExpr} {P : Prop}

theorem weighs_terms (name : Symbol → String) (b : Bound) :
    Weighs (b.terms twice name) (b.meaning twice name) (b.isExact = true) := by
  obtain ⟨hle, htight⟩ : Light name b.type := light b.type
  rw [weight_reading] at hle htight
  cases hb : b.keyOf with
  | false =>
    have hterms : b.terms twice name = b.type.terms name := by simp [terms, hb]
    have hmeaning : (b.meaning twice name).weight = b.type.weight := by
      simp [meaning, hb, weight_spelled]
    refine ⟨b.filled_terms twice name, ?_, ?_⟩
    all_goals rw [hterms, hmeaning]
    · exact hle
    · exact fun hge => by simp [isExact, hb, htight hge]
  | true =>
    have hterms : b.terms twice name = keyed twice (b.type.terms name) := by simp [terms, hb]
    have hmeaning : (b.meaning twice name).weight = b.type.weight * b.type.weight := by
      simp [meaning, hb, weight_twice, weight_spelled]
    have hfilled := TypeExpr.filled_terms name b.type
    obtain ⟨hkeyed, hsingle⟩ := weightOfTerms_keyed_twice hfilled
    have hsquare := Nat.mul_le_mul hle hle
    refine ⟨b.filled_terms twice name, ?_, ?_⟩
    all_goals rw [hterms, hmeaning]
    · exact hkeyed.trans hsquare
    · intro hge
      have hsame := Nat.mul_self_le_mul_self_iff.mp (hge.trans hkeyed)
      have hlength := hsingle (hsquare.trans hge)
      rw [length_flatten_terms] at hlength
      have hmarks : b.type.marks = 0 := by omega
      simp [isExact, htight hsame, hmarks]

theorem weighs_termsOfAll (h : Weighs as t P) (bs : List Bound) :
    Weighs (termsOfAll twice name as bs) (meaningOfAll twice name t bs)
      (P ∧ (∀ b ∈ bs, b.isExact = true) ∧ meetExactly (as.length != 1) bs = true) := by
  induction bs generalizing as t P with
  | nil => exact ⟨h.filled, h.le, fun hge => ⟨h.exact hge, by simp, rfl⟩⟩
  | cons b bs ih =>
    have hb := b.weighs_terms name
    obtain ⟨hfilled, hle, hexact⟩ := ih (h.join hb b.combiner)
    refine ⟨hfilled, hle, fun hge => ?_⟩
    obtain ⟨⟨hP, hbexact, hmeet⟩, hbs, hrest⟩ := hexact hge
    rw [Combiner.length_join_ne_one h.filled hb.filled, length_terms_ne_one] at hrest
    refine ⟨hP, List.forall_mem_cons.mpr ⟨hbexact, hbs⟩, ?_⟩
    rw [meetExactly, hrest, Bool.and_true, ← b.length_terms_ne_one twice name]
    simpa using hmeet

end Bound

namespace Bound
variable {name : Symbol → String} {first : Bound} {rest : List Bound}

theorem isArrow_meaningOfAll (keys : TypeExpr → TypeExpr) (t : TypeExpr) (hne : rest ≠ []) :
    (meaningOfAll keys name t rest).isArrow = false := by
  obtain ⟨front, b, rfl⟩ := (List.eq_nil_or_concat' rest).resolve_left hne
  rw [meaningOfAll, List.foldl_append, List.foldl_cons, List.foldl_nil]
  cases b.combiner <;> rfl

/-- A function type beside an operator or another bound is not read as one of several. -/
theorem not_alike_of_isFunction (keys : TypeExpr → TypeExpr)
    (h : ∀ b ∈ first :: rest, b.type.isPlain name = true)
    (hfunction : ∃ b ∈ first :: rest, b.type.isFunction = true)
    (hbeside : first.keyOf = true ∨ rest ≠ []) {t : TypeExpr}
    (hread : readAsConstraint keys (constraint name first rest) = some t) :
    ¬ Alike t (meaningOfAll keys name (first.meaning keys name) rest) := by
  obtain ⟨ht, hne⟩ := readAsConstraint_of_isFunction keys h hfunction hbeside hread
  intro halike
  have harrow := halike.isArrow_eq
  rw [isArrow_meaningOfAll keys _ hne] at harrow
  cases t with
  | function parameters returns => cases harrow
  | _ => cases ht

/-- One bound without an operator, a function type or not. -/
theorem alike_of_one_iff (keys : TypeExpr → TypeExpr) (hkeyOf : first.keyOf = false) :
    Alike (first.type.reading name) (first.meaning keys name) ↔ first.type.isTight = true := by
  have hmeaning : first.meaning keys name = first.type.spelled name := by simp [meaning, hkeyOf]
  rw [hmeaning]
  refine ⟨fun halike => ?_, alike_reading first.type⟩
  apply (light first.type).isTight
  rw [halike.weight_eq, weight_spelled]

/-- The text of a constraint is read as what the bounds say, whatever the keys of types are, exactly
when the bounds are exact. -/
theorem reads_meaning_iff (h : ∀ b ∈ first :: rest, b.type.isPlain name = true) :
    (∀ keys, RespectsAlike keys → ∃ t, readAsConstraint keys (constraint name first rest) = some t ∧
      Alike t (meaningOfAll keys name (first.meaning keys name) rest)) ↔
    areExact first rest = true := by
  unfold areExact
  split
  · rename_i hfunction
    have hsome : ∃ b ∈ first :: rest, b.type.isFunction = true := by simpa using hfunction
    by_cases hbeside : first.keyOf = true ∨ rest ≠ []
    · have hinexact : (rest.isEmpty && !first.keyOf && first.type.isTight) = false := by
        rcases hbeside with hkeyOf | hne <;> simp [*]
      rw [hinexact]
      refine ⟨fun hall => ?_, by simp⟩
      obtain ⟨t, ht, halike⟩ := hall twice respectsAlike_twice
      exact (not_alike_of_isFunction twice h hsome hbeside ht halike).elim
    · obtain ⟨hkeyOf, rfl⟩ : first.keyOf = false ∧ rest = [] := by simpa using hbeside
      have hread (keys : TypeExpr → TypeExpr) :=
        readAsConstraint_of_one keys (h first (by simp)) hkeyOf
      simp only [hread, hkeyOf, List.isEmpty_nil, Bool.not_false, Bool.true_and]
      constructor
      · intro hall
        obtain ⟨t, ht, halike⟩ := hall twice respectsAlike_twice
        cases ht
        exact (alike_of_one_iff twice hkeyOf).mp halike
      · exact fun htight keys _ => ⟨_, rfl, (alike_of_one_iff keys hkeyOf).mpr htight⟩
  · rename_i hfunction
    have hnone : ∀ b ∈ first :: rest, b.type.isFunction = false := by simpa using hfunction
    have hread (keys : TypeExpr → TypeExpr) := readAsConstraint_of_not_isFunction keys h hnone
    rw [Bool.and_eq_true, List.all_eq_true, List.forall_mem_cons]
    constructor
    · intro hall
      obtain ⟨t, ht, halike⟩ := hall twice respectsAlike_twice
      rw [hread] at ht
      cases ht
      obtain ⟨hfilled, -, hexact⟩ := weighs_termsOfAll (weighs_terms name first) rest
      obtain ⟨hone, hmore, hmeet⟩ := hexact (by rw [← halike.weight_eq, weight_ofTerms hfilled])
      rw [length_terms_ne_one] at hmeet
      exact ⟨⟨hone, hmore⟩, hmeet⟩
    · rintro ⟨⟨hone, hmore⟩, hmeet⟩ keys hkeys
      rw [← first.length_terms_ne_one keys name] at hmeet
      exact ⟨_, hread keys, alike_termsOfAll hkeys (first.filled_terms keys name)
        (alike_terms hkeys hone) hmore hmeet⟩

end Bound

/-- In every context, what a declaration has behind `extends` is read as the type that the bounds
say, with the names that were printed, exactly when no ampersand between bounds has a bar outside of
brackets on either side, an operator of keys stands in front of a single operand, a function type
stands alone, and the types of the bounds are tight. -/
theorem declaration_means_bounds_iff (outputs : Outputs) (c : Context) (parameter : String)
    (first : Bound) (rest : List Bound) :
    let v : TypeVariable := ⟨parameter, first :: rest⟩
    let printed := c.renderIn outputs v.declaration 0
    let name := printed.2.tracker.nameOf
    (∀ b ∈ v.bounds, b.type.isPlain name = true) →
    ∃ text, printed.1 = parameter ++ " extends " ++ text ∧
      ((∀ keys, RespectsAlike keys → ∃ t, readAsConstraint keys text = some t ∧
        Alike t (Bound.meaningOfAll keys name (first.meaning keys name) rest)) ↔
      Bound.areExact first rest = true) := by
  intro v printed name h
  obtain ⟨htext, htracker⟩ := TypeVariable.renderIn_declaration outputs c parameter first rest
  refine ⟨Bound.constraint name first rest, ?_, Bound.reads_meaning_iff h⟩
  rw [htext, ← htracker]
  rfl

/-- Operators in front of names with and without arguments, ampersands in front of bars, and a union
of one function type, which is in parentheses. -/
theorem declaration_means_bounds_iff_exact :
    let first := (Bound.ofUnion (ofSymbol (.named "Foo" "./foo"))).asKeys
    let rest := [.ofIntersection (.union [.function [("f", ofSymbol (.named "B" "./b"))] void]),
      (Bound.ofUnion (array (.union [literal "A", literal "C"]))).asKeys,
      .ofUnion (.intersection [literal "C", literal "D"])]
    let printed := (Context.ofSettings .standard).renderIn []
      (TypeVariable.mk "T" (first :: rest)).declaration 0
    let name := printed.2.tracker.nameOf
    (∀ b ∈ first :: rest, b.type.isPlain name = true) ∧
    printed.1 = "T extends keyof Foo & ((f: B) => void) | keyof Array<A | C> | C & D" ∧
    ∃ text, printed.1 = "T extends " ++ text ∧
      ∀ keys, RespectsAlike keys → ∃ t, readAsConstraint keys text = some t ∧
        Alike t (Bound.meaningOfAll keys name (first.meaning keys name) rest) := by
  intro first rest printed name
  obtain ⟨htext, htracker⟩ := TypeVariable.renderIn_declaration [] (Context.ofSettings .standard)
    "T" first rest
  have hplain : ∀ b ∈ first :: rest, b.type.isPlain name = true := by
    simp only [name, printed, htracker]
    decide +kernel
  have hprinted : printed.1 =
      "T extends keyof Foo & ((f: B) => void) | keyof Array<A | C> | C & D" := by
    rw [htext]
    decide +kernel
  obtain ⟨text, heq, hiff⟩ := declaration_means_bounds_iff [] (Context.ofSettings .standard) "T"
    first rest hplain
  exact ⟨hplain, hprinted, text, heq, hiff.mpr (by decide)⟩

/-- A bound that is combined by an ampersand takes only the last of the alternatives before it, and
brings only its own first alternative. -/
theorem declaration_regroups_bounds :
    let c := Context.ofSettings .standard
    let name := c.tracker.nameOf
    let first := Bound.ofUnion (literal "A")
    let mixed := [.ofUnion (literal "B"), .ofIntersection (literal "C")]
    let compound := [.ofIntersection (.union [literal "B", literal "C"])]
    (c.renderIn [] (TypeVariable.mk "T" (first :: mixed)).declaration 0).1 =
      "T extends A | B & C" ∧
    (c.renderIn [] (TypeVariable.mk "T" (first :: compound)).declaration 0).1 =
      "T extends A & B | C" ∧
    ∀ keys,
      (∃ t, readAsConstraint keys "A | B & C" = some t ∧
        ¬ Alike t (Bound.meaningOfAll keys name (first.meaning keys name) mixed)) ∧
      ∃ t, readAsConstraint keys "A & B | C" = some t ∧
        ¬ Alike t (Bound.meaningOfAll keys name (first.meaning keys name) compound) := by
  intro c name first mixed compound
  have hmixed : Bound.constraint name first mixed = "A | B & C" := by decide +kernel
  have hcompound : Bound.constraint name first compound = "A & B | C" := by decide +kernel
  refine ⟨?_, ?_, fun keys => ⟨?_, ?_⟩⟩
  · rw [(TypeVariable.renderIn_declaration [] c "T" first mixed).1]
    decide +kernel
  · rw [(TypeVariable.renderIn_declaration [] c "T" first compound).1]
    decide +kernel
  · rw [← hmixed]
    refine ⟨.union [literal "A", .intersection [literal "B", literal "C"]],
      Bound.readAsConstraint_of_not_isFunction keys (by decide +kernel) (by decide), ?_⟩
    intro halike
    have hweight : 6 = 8 := halike.weight_eq
    exact absurd hweight (by decide)
  · rw [← hcompound]
    refine ⟨.union [.intersection [literal "A", literal "B"], literal "C"],
      Bound.readAsConstraint_of_not_isFunction keys (by decide +kernel) (by decide), ?_⟩
    intro halike
    have hweight : 6 = 8 := halike.weight_eq
    exact absurd hweight (by decide)

end TypeScriptComposer
