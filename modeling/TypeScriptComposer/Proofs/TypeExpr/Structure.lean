import TypeScriptComposer.Proofs.TypeExpr.Terms

/-!
# What printing keeps of a type

A union of several types is put in parentheses inside an intersection, but a union or an
intersection with one member is not, even when its own text has a bar outside of brackets. An
intersection of several members that has such a member is read as another type. Every other type
is read back as it was, up to what its text does not show.
-/

set_option autoImplicit false

namespace TypeScriptComposer

namespace TypeExpr
open Reader

variable (name : Symbol → String)

mutual

/-- The type with the names that are printed in the place of symbols and type variables. -/
def spelled : TypeExpr → TypeExpr
  | .named usage s => literal (printedName name usage s)
  | .applied base arguments => .applied (spelled base) (spelledAll arguments)
  | .typeVar ⟨parameter, _⟩ => literal parameter
  | .object members => .object (spelledMembers members)
  | .tuple members => .tuple (spelledAll members)
  | .intersection members => .intersection (spelledAll members)
  | .union members => .union (spelledAll members)
  | .function parameters returns => .function (spelledParameters parameters) (spelled returns)

def spelledAll : List TypeExpr → List TypeExpr
  | [] => []
  | t :: ts => spelled t :: spelledAll ts

def spelledMembers : List Member → List Member
  | [] => []
  | ⟨member, type, optional⟩ :: ms => ⟨member, spelled type, optional⟩ :: spelledMembers ms

def spelledParameters : List (String × TypeExpr) → List (String × TypeExpr)
  | [] => []
  | (parameter, type) :: ps => (parameter, spelled type) :: spelledParameters ps

end

mutual

/-- Whether no bar stands outside of brackets in a member of an intersection that has others. -/
def isTight : TypeExpr → Bool
  | .named .. | .typeVar _ => true
  | .applied base arguments => isTight base && areTight arguments
  | .object members => membersTight members
  | .tuple members | .union members => areTight members
  | .intersection members =>
    areTight members && (members.length ≤ 1 || barsOfAll loosens members == 0)
  | .function parameters returns => parametersTight parameters && isTight returns

def areTight : List TypeExpr → Bool
  | [] => true
  | t :: ts => isTight t && areTight ts

def membersTight : List Member → Bool
  | [] => true
  | ⟨_, type, _⟩ :: ms => isTight type && membersTight ms

def parametersTight : List (String × TypeExpr) → Bool
  | [] => true
  | (_, type) :: ps => isTight type && parametersTight ps

end

theorem spelledAll_eq_map (ts : List TypeExpr) : spelledAll name ts = ts.map (spelled name) := by
  induction ts with
  | nil => rfl
  | cons t ts ih => rw [spelledAll, ih, List.map_cons]

theorem spelledMembers_eq_map (ms : List Member) : spelledMembers name ms =
    ms.map fun m => ⟨m.name, m.type.spelled name, m.optional⟩ := by
  induction ms with
  | nil => rfl
  | cons m ms ih =>
    obtain ⟨member, type, optional⟩ := m
    rw [spelledMembers, ih, List.map_cons]

theorem spelledParameters_eq_map (ps : List (String × TypeExpr)) :
    spelledParameters name ps = ps.map fun p => (p.1, p.2.spelled name) := by
  induction ps with
  | nil => rfl
  | cons p ps ih => rw [spelledParameters, ih, List.map_cons]

theorem areTight_iff (ts : List TypeExpr) :
    areTight ts = true ↔ ∀ t ∈ ts, t.isTight = true := by
  induction ts with
  | nil => simp [areTight]
  | cons t ts ih => simp [areTight, ih]

theorem membersTight_iff (ms : List Member) :
    membersTight ms = true ↔ ∀ m ∈ ms, m.type.isTight = true := by
  induction ms with
  | nil => simp [membersTight]
  | cons m ms ih =>
    obtain ⟨member, type, optional⟩ := m
    simp [membersTight, ih]

theorem parametersTight_iff (ps : List (String × TypeExpr)) :
    parametersTight ps = true ↔ ∀ p ∈ ps, p.2.isTight = true := by
  induction ps with
  | nil => simp [parametersTight]
  | cons p ps ih => simp [parametersTight, ih]

variable {name}

/-- The alternatives of all members, in one list. -/
theorem map_foldr_append (f : List TypeExpr → TypeExpr) (ass : List (List (List TypeExpr))) :
    (ass.foldr (· ++ ·) []).map f = (ass.map (·.map f)).flatten := by
  induction ass with
  | nil => rfl
  | cons as ass ih => simp [ih]

theorem foldr_juxtapose_of_length_one {ass : List (List (List TypeExpr))} (hne : ass ≠ [])
    (h : ∀ as ∈ ass, as.length = 1) :
    ass.foldr juxtapose [] = [(ass.map (·.flatten)).flatten] := by
  induction ass with
  | nil => exact (hne rfl).elim
  | cons as ass ih =>
    obtain ⟨has, hass⟩ := List.forall_mem_cons.mp h
    obtain ⟨fs, rfl⟩ := List.length_eq_one_iff.mp has
    by_cases hrest : ass = []
    · simp [hrest]
    · rw [List.foldr_cons, ih hrest hass]
      simp [juxtapose]

theorem alike_union {ts : List TypeExpr} (hne : ts ≠ [])
    (h : ∀ t ∈ ts, Alike (t.reading name) (t.spelled name)) :
    Alike ((TypeExpr.union ts).reading name) ((TypeExpr.union ts).spelled name) := by
  have hterms : (TypeExpr.union ts).terms name =
      (ts.map (memberTerms name isFunction)).foldr (· ++ ·) [] := by
    rw [terms, if_neg (by simpa using hne), termsOfAll_eq_map]
  rw [reading, hterms, ofTerms, map_foldr_append, spelled, spelledAll_eq_map, List.map_map]
  refine (Alike.unionOf _).trans (.of_flatten .union .union .unionInUnion ?_)
  rw [forall₂_map_iff]
  intro t ht
  refine ⟨by simpa using (filled_memberTerms name _ (filled_terms name t)).1, ?_⟩
  refine (Alike.unionOf _).symm.trans ?_
  have hmember := h t ht
  rwa [← ofTerms_memberTerms name isFunction t] at hmember

theorem alike_intersection_of_one {t : TypeExpr} (h : Alike (t.reading name) (t.spelled name)) :
    Alike ((TypeExpr.intersection [t]).reading name)
      ((TypeExpr.intersection [t]).spelled name) := by
  have hreading : (TypeExpr.intersection [t]).reading name = t.reading name := by
    rw [reading, terms, if_neg (by simp), termsOfAll_eq_map, List.map_singleton, List.foldr_cons,
      List.foldr_nil, juxtapose_nil, ofTerms_memberTerms]
  rw [hreading]
  exact h.trans (.symm (.intersectionOfOne _))

theorem alike_intersection_of_no_bars {ts : List TypeExpr} (hne : ts ≠ [])
    (hbars : barsOfAll loosens ts = 0)
    (h : ∀ t ∈ ts, Alike (t.reading name) (t.spelled name)) :
    Alike ((TypeExpr.intersection ts).reading name) ((TypeExpr.intersection ts).spelled name) := by
  have hone : ∀ t ∈ ts, (memberTerms name loosens t).length = 1 := by
    intro t ht
    rw [barsOfAll_eq_sum, List.sum_eq_zero_iff, List.forall_mem_map] at hbars
    rw [length_memberTerms name loosens (length_terms name t), hbars t ht]
  have hterms : (TypeExpr.intersection ts).terms name =
      [(ts.map fun t => (memberTerms name loosens t).flatten).flatten] := by
    rw [terms, if_neg (by simpa using hne), termsOfAll_eq_map,
      foldr_juxtapose_of_length_one (by simpa using hne) (List.forall_mem_map.mpr hone),
      List.map_map]
    rfl
  rw [reading, hterms, spelled, spelledAll_eq_map]
  refine (Alike.intersectionOf _).trans
    (.of_flatten .intersection .intersection .intersectionInIntersection ?_)
  rw [forall₂_map_iff]
  intro t ht
  have hmember := h t ht
  rw [← ofTerms_memberTerms name loosens t] at hmember
  have hfilled := filled_memberTerms name loosens (filled_terms name t)
  obtain ⟨fs, hfs⟩ := List.length_eq_one_iff.mp (hone t ht)
  rw [hfs] at hmember hfilled ⊢
  have hne : fs ≠ [] := hfilled.2 fs (by simp)
  rw [List.flatten_singleton]
  exact ⟨hne, (Alike.intersectionOf fs).symm.trans hmember⟩

theorem alike_reading (t : TypeExpr) (h : t.isTight = true) :
    Alike (t.reading name) (t.spelled name) := by
  induction t using TypeExpr.induction with
  | named usage s => exact .refl _
  | applied base arguments ihbase ih =>
    simp only [isTight, Bool.and_eq_true, areTight_iff] at h
    cases arguments with
    | nil => exact (ihbase h.1).trans (.symm (.noArguments _))
    | cons t ts =>
      have hall : List.Forall₂ Alike ((t :: ts).map (·.reading name))
          ((t :: ts).map (·.spelled name)) :=
        forall₂_map_iff.mpr fun u hu => ih u hu (h.2 u hu)
      have harguments := Alike.of_forall₂ (.applied (base.spelled name))
        (fun ts _ _ vs => .argument _ ts vs) hall
      rw [spelled, spelledAll_eq_map, reading_applied _ _ (by simp)]
      exact (Alike.base _ (ihbase h.1)).trans harguments
  | typeVar v =>
    obtain ⟨parameter, bounds⟩ := v
    exact .refl _
  | object members ih =>
    rw [isTight, membersTight_iff] at h
    rw [reading_object, spelled, spelledMembers_eq_map]
    refine Alike.of_forall₂ .object (R := fun m n =>
      m.name = n.name ∧ m.optional = n.optional ∧ Alike m.type n.type) ?_ ?_
    · rintro ms ⟨_, _, _⟩ ⟨_, _, _⟩ ns ⟨rfl, rfl, htype⟩
      exact .object ms _ _ ns htype
    · exact forall₂_map_iff.mpr fun m hm => ⟨rfl, rfl, ih m hm (h m hm)⟩
  | tuple members ih =>
    rw [isTight, areTight_iff] at h
    rw [reading_tuple, spelled, spelledAll_eq_map]
    exact Alike.of_forall₂ .tuple .tuple
      (forall₂_map_iff.mpr fun t ht => ih t ht (h t ht))
  | intersection members ih =>
    simp only [isTight, Bool.and_eq_true, areTight_iff, Bool.or_eq_true, decide_eq_true_eq,
      beq_iff_eq] at h
    obtain ⟨htight, hbars⟩ := h
    have hmembers : ∀ t ∈ members, Alike (t.reading name) (t.spelled name) :=
      fun t ht => ih t ht (htight t ht)
    match members with
    | [] => exact .symm .emptyIntersection
    | [t] => exact alike_intersection_of_one (hmembers t (by simp))
    | t :: u :: ts =>
      have hbars := hbars.resolve_left (by simp)
      exact alike_intersection_of_no_bars (by simp) hbars hmembers
  | union members ih =>
    rw [isTight, areTight_iff] at h
    cases members with
    | nil => exact .symm .emptyUnion
    | cons t ts => exact alike_union (by simp) fun u hu => ih u hu (h u hu)
  | function parameters returns ih ihreturns =>
    simp only [isTight, Bool.and_eq_true, parametersTight_iff] at h
    rw [reading_function, spelled, spelledParameters_eq_map]
    refine Alike.trans (Alike.of_forall₂ (.function · (returns.reading name))
      (R := fun p q => p.1 = q.1 ∧ Alike p.2 q.2) ?_ ?_) (.result _ (ihreturns h.2))
    · rintro ps ⟨_, _⟩ ⟨_, _⟩ qs ⟨rfl, htype⟩
      exact .parameter ps _ qs _ htype
    · exact forall₂_map_iff.mpr fun p hp => ⟨rfl, ih p hp (h.1 p hp)⟩

theorem weight_spelled (t : TypeExpr) : (t.spelled name).weight = t.weight := by
  induction t using TypeExpr.induction with
  | named usage s => rfl
  | applied base arguments ihbase ih =>
    simp only [spelled, weight, spelledAll_eq_map, weights_eq_map, List.map_map, ihbase]
    rw [List.map_congr_left (f := weight ∘ spelled name) ih]
  | typeVar v =>
    obtain ⟨parameter, bounds⟩ := v
    rfl
  | object members ih =>
    simp only [spelled, weight, spelledMembers_eq_map, weightOfMembers_eq_sum, List.map_map]
    rw [List.map_congr_left (g := (·.type.weight)) ih]
  | tuple members ih | intersection members ih | union members ih =>
    simp only [spelled, weight, spelledAll_eq_map, weights_eq_map, List.map_map, List.isEmpty_map]
    rw [List.map_congr_left (f := weight ∘ spelled name) ih]
  | function parameters returns ih ihreturns =>
    simp only [spelled, weight, spelledParameters_eq_map, weightOfParameters_eq_sum, List.map_map,
      ihreturns]
    rw [List.map_congr_left (g := (·.2.weight)) ih]

section
variable {α : Type} {f g : α → Nat} {as : List α}

theorem le_of_sum_le (hle : ∀ a ∈ as, f a ≤ g a) (h : (as.map g).sum ≤ (as.map f).sum) :
    ∀ a ∈ as, g a ≤ f a := by
  intro a ha
  by_contra hlt
  exact Nat.not_lt.mpr h (List.sum_lt_sum f g hle ⟨a, ha, Nat.not_le.mp hlt⟩)

theorem le_of_prod_le (hpos : ∀ a ∈ as, 0 < f a) (hle : ∀ a ∈ as, f a ≤ g a)
    (h : (as.map g).prod ≤ (as.map f).prod) : ∀ a ∈ as, g a ≤ f a := by
  induction as with
  | nil => simp
  | cons a as ih =>
    obtain ⟨hfa, hfas⟩ := List.forall_mem_cons.mp hpos
    obtain ⟨ha, has⟩ := List.forall_mem_cons.mp hle
    have hprod := List.prod_map_le_prod_map₀ f g (fun _ _ => Nat.zero_le _) has
    have hprodpos : 0 < (as.map f).prod := List.prod_pos (List.forall_mem_map.mpr hfas)
    simp only [List.map_cons, List.prod_cons] at h
    refine List.forall_mem_cons.mpr ⟨?_, ih hfas has ?_⟩
    · have hmul := (Nat.mul_le_mul_left (g a) hprod).trans h
      exact Nat.le_of_mul_le_mul_right hmul hprodpos
    · have hmul := (Nat.mul_le_mul_right _ ha).trans h
      exact Nat.le_of_mul_le_mul_left hmul hfa

end

/-- What is read weighs no more than the type, and as much only when the type is tight. -/
structure Light (name : Symbol → String) (t : TypeExpr) : Prop where
  le : (t.reading name).weight ≤ t.weight
  isTight : t.weight ≤ (t.reading name).weight → t.isTight = true

theorem Light.sum {α : Type} (type : α → TypeExpr) {as : List α}
    (h : ∀ a ∈ as, Light name (type a)) :
    (as.map fun a => ((type a).reading name).weight).sum ≤ (as.map fun a => (type a).weight).sum ∧
    ((as.map fun a => (type a).weight).sum ≤ (as.map fun a => ((type a).reading name).weight).sum →
      ∀ a ∈ as, (type a).isTight = true) := by
  have hle := fun a ha => (h a ha).le
  exact ⟨List.sum_le_sum hle, fun hsum a ha => (h a ha).isTight (le_of_sum_le hle hsum a ha)⟩

theorem light_union {ts : List TypeExpr} (hne : ts ≠ []) (h : ∀ t ∈ ts, Light name t) :
    Light name (.union ts) := by
  have hweight : ((TypeExpr.union ts).reading name).weight =
      (ts.map fun t => (t.reading name).weight).sum := by
    rw [weight_reading, terms, if_neg (by simpa using hne), termsOfAll_eq_map,
      weightOfTerms_foldr_append, List.map_map]
    exact congrArg List.sum (List.map_congr_left fun t _ => weightOfTerms_memberTerms name _ t)
  obtain ⟨hle, htight⟩ := Light.sum (fun t => t) h
  refine ⟨?_, ?_⟩
  all_goals rw [hweight, weight, if_neg (by simpa using hne), weights_eq_map]
  · exact hle
  · intro hsum
    rw [isTight, areTight_iff]
    exact htight hsum

theorem light_intersection {ts : List TypeExpr} (hne : ts ≠ []) (h : ∀ t ∈ ts, Light name t) :
    Light name (.intersection ts) := by
  have hass : ts.map (memberTerms name loosens) ≠ [] := by simpa using hne
  obtain ⟨hfold, hfoldlt⟩ := weightOfTerms_foldr_juxtapose hass
    (List.forall_mem_map.mpr fun t _ => filled_memberTerms name _ (filled_terms name t))
  have hmembers : (ts.map (memberTerms name loosens)).map weightOfTerms =
      ts.map fun t => (t.reading name).weight := by
    rw [List.map_map]
    exact List.map_congr_left fun t _ => weightOfTerms_memberTerms name _ t
  rw [hmembers] at hfold hfoldlt
  have hterms : (TypeExpr.intersection ts).terms name =
      (ts.map (memberTerms name loosens)).foldr juxtapose [] := by
    rw [terms, if_neg (by simpa using hne), termsOfAll_eq_map]
  have hle := fun t ht => (h t ht).le
  have hprodle : (ts.map fun t => (t.reading name).weight).prod ≤ (ts.map weight).prod :=
    List.prod_map_le_prod_map₀ _ _ (fun _ _ => Nat.zero_le _) hle
  refine ⟨?_, ?_⟩
  all_goals rw [weight_reading, hterms, weight, if_neg (by simpa using hne), weights_eq_map]
  · exact hfold.trans hprodle
  · intro hprod
    have hpositive : ∀ t ∈ ts, 0 < (t.reading name).weight := by
      intro t _
      have htwo := two_le_weight (t.reading name)
      omega
    have htight := le_of_prod_le hpositive hle (hprod.trans hfold)
    simp only [isTight, Bool.and_eq_true, areTight_iff, Bool.or_eq_true, decide_eq_true_eq,
      beq_iff_eq]
    refine ⟨fun t ht => (h t ht).isTight (htight t ht), ?_⟩
    by_contra hloose
    simp only [not_or, Nat.not_le] at hloose
    obtain ⟨hlength, hbars⟩ := hloose
    -- a member with a bar has several alternatives, so that something weighs less than it should
    obtain ⟨t, ht, hbar⟩ : ∃ t ∈ ts, memberBars loosens t ≠ 0 := by
      by_contra hnone
      apply hbars
      rw [barsOfAll_eq_sum, List.sum_eq_zero_iff, List.forall_mem_map]
      intro t ht
      by_contra hbar
      exact hnone ⟨t, ht, hbar⟩
    have hlong := length_memberTerms name loosens (length_terms name t)
    have hlt := hfoldlt (by rw [List.length_map]; omega)
      ⟨memberTerms name loosens t, List.mem_map_of_mem ht, by omega⟩
    exact Nat.lt_irrefl _ (Nat.lt_of_lt_of_le hlt (hprodle.trans hprod))

theorem light (t : TypeExpr) : Light name t := by
  induction t using TypeExpr.induction with
  | named usage s => exact ⟨Nat.le_refl _, fun _ => rfl⟩
  | applied base arguments ihbase ih =>
    cases arguments with
    | nil =>
      refine ⟨ihbase.le, fun hle => ?_⟩
      rw [isTight, areTight, Bool.and_true]
      exact ihbase.isTight hle
    | cons t ts =>
      obtain ⟨hle, htight⟩ := Light.sum (fun t => t) ih
      have hbase := ihbase.le
      have hweight : ((TypeExpr.applied base (t :: ts)).reading name).weight =
          (base.reading name).weight + ((t :: ts).map fun t => (t.reading name).weight).sum := by
        rw [reading_applied _ _ (by simp), weight, weights_eq_map, List.map_map]
        rfl
      refine ⟨?_, ?_⟩
      all_goals rw [hweight, weight, weights_eq_map]
      · exact Nat.add_le_add hbase hle
      · intro hsum
        rw [isTight, Bool.and_eq_true, areTight_iff]
        exact ⟨ihbase.isTight (by omega), htight (by omega)⟩
  | typeVar v =>
    obtain ⟨parameter, bounds⟩ := v
    exact ⟨Nat.le_refl _, fun _ => rfl⟩
  | object members ih =>
    obtain ⟨hle, htight⟩ := Light.sum (fun m : Member => m.type) ih
    have hweight : ((TypeExpr.object members).reading name).weight =
        2 + (members.map fun m => (m.type.reading name).weight).sum := by
      rw [reading_object, weight, weightOfMembers_eq_sum, List.map_map]
      rfl
    refine ⟨?_, ?_⟩
    all_goals rw [hweight, weight, weightOfMembers_eq_sum]
    · omega
    · intro hsum
      rw [isTight, membersTight_iff]
      exact htight (by omega)
  | tuple members ih =>
    obtain ⟨hle, htight⟩ := Light.sum (fun t => t) ih
    have hweight : ((TypeExpr.tuple members).reading name).weight =
        2 + (members.map fun t => (t.reading name).weight).sum := by
      rw [reading_tuple, weight, weights_eq_map, List.map_map]
      rfl
    refine ⟨?_, ?_⟩
    all_goals rw [hweight, weight, weights_eq_map]
    · exact Nat.add_le_add_left hle 2
    · intro hsum
      rw [isTight, areTight_iff]
      exact htight (by omega)
  | intersection members ih =>
    cases members with
    | nil => exact ⟨Nat.le_refl _, fun _ => rfl⟩
    | cons t ts => exact light_intersection (by simp) ih
  | union members ih =>
    cases members with
    | nil => exact ⟨Nat.le_refl _, fun _ => rfl⟩
    | cons t ts => exact light_union (by simp) ih
  | function parameters returns ih ihreturns =>
    obtain ⟨hle, htight⟩ := Light.sum (fun p : String × TypeExpr => p.2) ih
    have hreturns := ihreturns.le
    have hweight : ((TypeExpr.function parameters returns).reading name).weight =
        2 + (parameters.map fun p => (p.2.reading name).weight).sum +
          (returns.reading name).weight := by
      rw [reading_function, weight, weightOfParameters_eq_sum, List.map_map]
      rfl
    refine ⟨?_, ?_⟩
    all_goals rw [hweight, weight, weightOfParameters_eq_sum]
    · omega
    · intro hsum
      rw [isTight, Bool.and_eq_true, parametersTight_iff]
      exact ⟨htight (by omega), ihreturns.isTight (by omega)⟩

/-- The text that a tracker gives a type is read, and what is read is the type, with the names that
were printed and up to what the text does not show, exactly when no bar stands outside of brackets
in a member of an intersection that has others. -/
theorem print_keeps_structure_iff (t : TypeExpr) (tracker : Tracker)
    (h : t.isPlain (t.print tracker).2.nameOf = true) :
    ∃ u, read (t.print tracker).1 = some u ∧
      (Alike u (t.spelled (t.print tracker).2.nameOf) ↔ t.isTight = true) := by
  rw [print_eq [] t tracker, List.append_nil] at *
  refine ⟨_, read_spell h, ?_, alike_reading t⟩
  intro halike
  apply (light t).isTight
  rw [halike.weight_eq, weight_spelled]

/-- A function type in a union in an intersection: both are in parentheses and are read back. -/
theorem print_keeps_structure_iff_function :
    let t : TypeExpr := .intersection [literal "A",
      .union [.function [("f", ofSymbol (.named "B" "./b"))] void, literal "C"]]
    let tracker := Tracker.ofSettings .standard
    (t.print tracker).1 = "A & (((f: B) => void) | C)" ∧
    ∃ u, read (t.print tracker).1 = some u ∧ Alike u (t.spelled (t.print tracker).2.nameOf) := by
  intro t tracker
  obtain ⟨u, hread, hiff⟩ := print_keeps_structure_iff t tracker (by cbv)
  exact ⟨by cbv, u, hread, hiff.mpr (by decide)⟩

/-- A union with one member, itself a union of two, is not put in parentheses: its second member is
read as a factor of the intersection. -/
theorem print_loosens_union_of_one :
    let t : TypeExpr := .intersection [.union [.union [literal "A", literal "B"]], literal "C"]
    let tracker := Tracker.ofSettings .standard
    t.isPlain (t.print tracker).2.nameOf = true ∧ (t.print tracker).1 = "A | B & C" ∧
    read (t.print tracker).1 =
      some (.union [literal "A", .intersection [literal "B", literal "C"]]) ∧
    ∀ u, read (t.print tracker).1 = some u →
      ¬ Alike u (t.spelled (t.print tracker).2.nameOf) := by
  intro t tracker
  have hread : read (t.print tracker).1 =
      some (.union [literal "A", .intersection [literal "B", literal "C"]]) := by cbv
  refine ⟨by cbv, by cbv, hread, ?_⟩
  intro u hu halike
  rw [hread] at hu
  cases hu
  have hweight := halike.weight_eq
  rw [weight_spelled] at hweight
  revert hweight
  decide

end TypeExpr

end TypeScriptComposer
