import TypeScriptComposer.Proofs.TypeExpr.Alike

/-!
# Alternatives and factors

What a type is read as has one alternative more than its text has bars outside of brackets. Where
members with such bars stand between ampersands, the product of their weights is more than the
weight of what they are read as.
-/

set_option autoImplicit false

namespace TypeScriptComposer

namespace TypeExpr

/-- There are alternatives, and each of them has factors. -/
def Filled (as : List (List TypeExpr)) : Prop := as ≠ [] ∧ ∀ fs ∈ as, fs ≠ []

theorem Filled.append {as bs : List (List TypeExpr)} (ha : Filled as) (hb : Filled bs) :
    Filled (as ++ bs) :=
  ⟨by simp [ha.1], List.forall_mem_append.mpr ⟨ha.2, hb.2⟩⟩

theorem juxtapose_append_cons (front : List (List TypeExpr)) (fs gs : List TypeExpr)
    (back : List (List TypeExpr)) :
    juxtapose (front ++ [fs]) (gs :: back) = front ++ (fs ++ gs) :: back := by
  induction front with
  | nil => rfl
  | cons a front ih => rw [List.cons_append, juxtapose_cons a (by simp), ih, List.cons_append]

/-- Of two lists of alternatives, the last one of the first and the first one of the second. -/
theorem exists_append_cons {as bs : List (List TypeExpr)} (ha : as ≠ []) (hb : bs ≠ []) :
    ∃ front fs gs back, as = front ++ [fs] ∧ bs = gs :: back ∧
      juxtapose as bs = front ++ (fs ++ gs) :: back := by
  obtain ⟨front, fs, rfl⟩ := (List.eq_nil_or_concat' as).resolve_left ha
  obtain ⟨gs, back, rfl⟩ := List.exists_cons_of_ne_nil hb
  exact ⟨front, fs, gs, back, rfl, rfl, juxtapose_append_cons front fs gs back⟩

theorem Filled.juxtapose {as bs : List (List TypeExpr)} (ha : Filled as) (hb : Filled bs) :
    Filled (juxtapose as bs) := by
  obtain ⟨front, fs, gs, back, rfl, rfl, heq⟩ := exists_append_cons ha.1 hb.1
  rw [heq]
  refine ⟨by simp, ?_⟩
  have hfront := List.forall_mem_append.mp ha.2
  have hback := List.forall_mem_cons.mp hb.2
  refine List.forall_mem_append.mpr ⟨hfront.1, List.forall_mem_cons.mpr ⟨?_, hback.2⟩⟩
  simp [hback.1]

theorem length_juxtapose {as bs : List (List TypeExpr)} (ha : as ≠ []) (hb : bs ≠ []) :
    (juxtapose as bs).length + 1 = as.length + bs.length := by
  obtain ⟨front, fs, gs, back, rfl, rfl, heq⟩ := exists_append_cons ha hb
  rw [heq]
  simp
  omega

/-- What `combine` keeps, holds of the terms of all members. -/
theorem filled_foldr {combine : List (List TypeExpr) → List (List TypeExpr) → List (List TypeExpr)}
    (hcombine : ∀ {as bs}, Filled as → Filled bs → Filled (combine as bs))
    (hnil : ∀ as, combine as [] = as) {ass : List (List (List TypeExpr))} (hne : ass ≠ [])
    (h : ∀ as ∈ ass, Filled as) : Filled (ass.foldr combine []) := by
  induction ass with
  | nil => exact (hne rfl).elim
  | cons as ass ih =>
    obtain ⟨has, hass⟩ := List.forall_mem_cons.mp h
    by_cases hrest : ass = []
    · rw [hrest, List.foldr_cons, List.foldr_nil, hnil]
      exact has
    · exact hcombine has (ih hrest hass)

variable (name : Symbol → String)

theorem filled_memberTerms (wraps : TypeExpr → Bool) {t : TypeExpr} (h : Filled (t.terms name)) :
    Filled (memberTerms name wraps t) := by
  unfold memberTerms
  split
  · exact ⟨by simp, by simp⟩
  · exact h

theorem filled_terms (t : TypeExpr) : Filled (t.terms name) := by
  have hone (u : TypeExpr) : Filled [[u]] := ⟨by simp, by simp⟩
  induction t using TypeExpr.induction with
  | named usage s => exact hone _
  | applied base arguments ihbase _ =>
    rw [terms]
    split
    · exact ihbase
    · exact hone _
  | typeVar v =>
    obtain ⟨parameter, bounds⟩ := v
    exact hone _
  | object members _ => exact hone _
  | tuple members _ => exact hone _
  | intersection members ih =>
    rw [terms]
    split
    · exact hone _
    · rename_i hne
      rw [termsOfAll_eq_map]
      refine filled_foldr .juxtapose juxtapose_nil (by simpa using hne) ?_
      exact List.forall_mem_map.mpr fun t ht => filled_memberTerms name _ (ih t ht)
  | union members ih =>
    rw [terms]
    split
    · exact hone _
    · rename_i hne
      rw [termsOfAll_eq_map]
      refine filled_foldr .append List.append_nil (by simpa using hne) ?_
      exact List.forall_mem_map.mpr fun t ht => filled_memberTerms name _ (ih t ht)
  | function parameters returns _ _ => exact hone _

mutual

/-- The number of bars in the text of a type that are outside of all brackets. -/
def bars : TypeExpr → Nat
  | .applied base arguments => if arguments.isEmpty then bars base else 0
  | .intersection members => barsOfAll loosens members
  | .union members => members.length - 1 + barsOfAll isFunction members
  | _ => 0

/-- The number of bars in the texts of members, `wraps` saying which are in parentheses. -/
def barsOfAll (wraps : TypeExpr → Bool) : List TypeExpr → Nat
  | [] => 0
  | t :: ts => (if wraps t then 0 else bars t) + barsOfAll wraps ts

end

/-- The number of bars that a member brings with it, in parentheses or not. -/
def memberBars (wraps : TypeExpr → Bool) (t : TypeExpr) : Nat := if wraps t then 0 else t.bars

theorem barsOfAll_eq_sum (wraps : TypeExpr → Bool) (ts : List TypeExpr) :
    barsOfAll wraps ts = (ts.map (memberBars wraps)).sum := by
  induction ts with
  | nil => rfl
  | cons t ts ih =>
    rw [barsOfAll, ih, List.map_cons, List.sum_cons]
    rfl

theorem length_memberTerms (wraps : TypeExpr → Bool) {t : TypeExpr}
    (h : (t.terms name).length = t.bars + 1) :
    (memberTerms name wraps t).length = memberBars wraps t + 1 := by
  unfold memberTerms memberBars
  split
  · rfl
  · exact h

theorem sum_length_memberTerms (wraps : TypeExpr → Bool) {ts : List TypeExpr}
    (h : ∀ t ∈ ts, (t.terms name).length = t.bars + 1) :
    ((ts.map (memberTerms name wraps)).map (·.length)).sum = barsOfAll wraps ts + ts.length := by
  rw [barsOfAll_eq_sum]
  induction ts with
  | nil => rfl
  | cons t ts ih =>
    obtain ⟨ht, hts⟩ := List.forall_mem_cons.mp h
    simp only [List.map_cons, List.sum_cons, List.length_cons, ih hts,
      length_memberTerms name wraps ht]
    omega

theorem length_foldr_append {ass : List (List (List TypeExpr))} :
    (ass.foldr (· ++ ·) []).length = (ass.map (·.length)).sum := by
  induction ass with
  | nil => rfl
  | cons as ass ih => simp [ih]

theorem length_foldr_juxtapose (ass : List (List (List TypeExpr))) (hne : ass ≠ [])
    (h : ∀ as ∈ ass, Filled as) :
    (ass.foldr juxtapose []).length + ass.length = (ass.map (·.length)).sum + 1 := by
  induction ass with
  | nil => exact (hne rfl).elim
  | cons as ass ih =>
    obtain ⟨has, hass⟩ := List.forall_mem_cons.mp h
    by_cases hrest : ass = []
    · simp [hrest]
    · have hlength := length_juxtapose has.1 (filled_foldr .juxtapose juxtapose_nil hrest hass).1
      have hih := ih hrest hass
      simp only [List.foldr_cons, List.length_cons, List.map_cons, List.sum_cons]
      omega

theorem length_terms (t : TypeExpr) : (t.terms name).length = t.bars + 1 := by
  induction t using TypeExpr.induction with
  | named usage s => rfl
  | applied base arguments ihbase _ =>
    rw [terms, bars]
    split
    · exact ihbase
    · rfl
  | typeVar v =>
    obtain ⟨parameter, bounds⟩ := v
    rfl
  | object members _ => rfl
  | tuple members _ => rfl
  | intersection members ih =>
    cases members with
    | nil => rfl
    | cons t ts =>
      have hsum := sum_length_memberTerms name loosens ih
      have hfilled := List.forall_mem_map.mpr fun u (_ : u ∈ t :: ts) =>
        filled_memberTerms name loosens (filled_terms name u)
      have hfold := length_foldr_juxtapose ((t :: ts).map (memberTerms name loosens)) (by simp)
        hfilled
      rw [terms, bars, termsOfAll_eq_map, if_neg (by simp)]
      rw [List.length_map] at hfold
      omega
  | union members ih =>
    cases members with
    | nil => rfl
    | cons t ts =>
      have hsum := sum_length_memberTerms name isFunction ih
      rw [terms, bars, termsOfAll_eq_map, if_neg (by simp), length_foldr_append, hsum,
        List.length_cons]
      omega
  | function parameters returns _ _ => rfl

theorem two_le_prod {ns : List Nat} (hne : ns ≠ []) (h : ∀ n ∈ ns, 2 ≤ n) : 2 ≤ ns.prod := by
  induction ns with
  | nil => exact (hne rfl).elim
  | cons n ns ih =>
    obtain ⟨hn, hns⟩ := List.forall_mem_cons.mp h
    rw [List.prod_cons]
    by_cases hrest : ns = []
    · simpa [hrest] using hn
    · exact hn.trans (Nat.le_mul_of_pos_right n (by have hrest := ih hrest hns; omega))

theorem two_le_sum {ns : List Nat} (hne : ns ≠ []) (h : ∀ n ∈ ns, 2 ≤ n) : 2 ≤ ns.sum := by
  obtain ⟨n, ns, rfl⟩ := List.exists_cons_of_ne_nil hne
  have hn := h n (by simp)
  rw [List.sum_cons]
  omega

theorem two_le_weight (t : TypeExpr) : 2 ≤ t.weight := by
  induction t using TypeExpr.induction with
  | named usage s => simp [weight]
  | applied base arguments ihbase _ =>
    rw [weight]
    omega
  | typeVar v => simp [weight]
  | object members _ => simp [weight]
  | tuple members _ => simp [weight]
  | intersection members ih =>
    rw [weight, weights_eq_map]
    split
    · rfl
    · rename_i hne
      exact two_le_prod (by simpa using hne) (List.forall_mem_map.mpr ih)
  | union members ih =>
    rw [weight, weights_eq_map]
    split
    · rfl
    · rename_i hne
      exact two_le_sum (by simpa using hne) (List.forall_mem_map.mpr ih)
  | function parameters returns _ _ =>
    rw [weight]
    omega

def weightOfFactors (fs : List TypeExpr) : Nat := (fs.map weight).prod

def weightOfTerms (as : List (List TypeExpr)) : Nat := (as.map weightOfFactors).sum

theorem two_le_weightOfFactors {fs : List TypeExpr} (h : fs ≠ []) : 2 ≤ weightOfFactors fs :=
  two_le_prod (by simpa using h) (List.forall_mem_map.mpr fun t _ => two_le_weight t)

theorem two_le_weightOfTerms {as : List (List TypeExpr)} (h : Filled as) : 2 ≤ weightOfTerms as :=
  two_le_sum (by simpa using h.1)
    (List.forall_mem_map.mpr fun fs hfs => two_le_weightOfFactors (h.2 fs hfs))

theorem weight_intersectionOf {fs : List TypeExpr} (h : fs ≠ []) :
    (intersectionOf fs).weight = weightOfFactors fs := by
  rw [(Alike.intersectionOf fs).weight_eq, weight, weights_eq_map, if_neg (by simpa using h)]
  rfl

theorem weight_ofTerms {as : List (List TypeExpr)} (h : Filled as) :
    (ofTerms as).weight = weightOfTerms as := by
  have hfactors : (as.map intersectionOf).map weight = as.map weightOfFactors := by
    rw [List.map_map]
    exact List.map_congr_left fun fs hfs => weight_intersectionOf (h.2 fs hfs)
  rw [ofTerms, (Alike.unionOf _).weight_eq, weight, weights_eq_map, hfactors,
    if_neg (by simpa using h.1)]
  rfl

theorem weight_reading (t : TypeExpr) : (t.reading name).weight = weightOfTerms (t.terms name) :=
  weight_ofTerms (filled_terms name t)

theorem ofTerms_memberTerms (wraps : TypeExpr → Bool) (t : TypeExpr) :
    ofTerms (memberTerms name wraps t) = t.reading name := by
  unfold memberTerms
  split <;> rfl

theorem weightOfTerms_memberTerms (wraps : TypeExpr → Bool) (t : TypeExpr) :
    weightOfTerms (memberTerms name wraps t) = (t.reading name).weight := by
  rw [← ofTerms_memberTerms name wraps t,
    weight_ofTerms (filled_memberTerms name _ (filled_terms name t))]

theorem weightOfTerms_append (as bs : List (List TypeExpr)) :
    weightOfTerms (as ++ bs) = weightOfTerms as + weightOfTerms bs := by
  simp [weightOfTerms]

theorem weightOfTerms_foldr_append (ass : List (List (List TypeExpr))) :
    weightOfTerms (ass.foldr (· ++ ·) []) = (ass.map weightOfTerms).sum := by
  induction ass with
  | nil => rfl
  | cons as ass ih => rw [List.foldr_cons, weightOfTerms_append, ih, List.map_cons, List.sum_cons]

/-- Multiplying two sums gives not less than multiplying only their ends, and more when there is
something else to multiply. -/
theorem sum_le_mul (front back : Nat) {p q : Nat} (hp : 2 ≤ p) (hq : 2 ≤ q) :
    front + (p * q + back) ≤ (front + p) * (q + back) ∧
    (0 < front ∨ 0 < back → front + (p * q + back) < (front + p) * (q + back)) := by
  have hfront : 2 * front ≤ front * q := by
    rw [Nat.mul_comm]
    exact Nat.mul_le_mul_left front hq
  have hback : 2 * back ≤ p * back := Nat.mul_le_mul_right back hp
  have hexpand : (front + p) * (q + back) = front * q + front * back + p * q + p * back := by
    rw [Nat.add_mul, Nat.mul_add, Nat.mul_add, ← Nat.add_assoc]
  rw [hexpand]
  exact ⟨by omega, by omega⟩

/-- What is read from two members with an ampersand between them weighs no more than the members
together, and less when one of them has several alternatives. -/
theorem weightOfTerms_juxtapose {as bs : List (List TypeExpr)} (ha : Filled as) (hb : Filled bs) :
    weightOfTerms (juxtapose as bs) ≤ weightOfTerms as * weightOfTerms bs ∧
    (2 ≤ as.length ∨ 2 ≤ bs.length →
      weightOfTerms (juxtapose as bs) < weightOfTerms as * weightOfTerms bs) := by
  obtain ⟨front, fs, gs, back, rfl, rfl, heq⟩ := exists_append_cons ha.1 hb.1
  have hproduct : weightOfFactors (fs ++ gs) = weightOfFactors fs * weightOfFactors gs := by
    simp [weightOfFactors]
  have hlast : weightOfTerms (front ++ [fs]) = weightOfTerms front + weightOfFactors fs := by
    simp [weightOfTerms]
  have hcons (fs : List TypeExpr) (as : List (List TypeExpr)) :
      weightOfTerms (fs :: as) = weightOfFactors fs + weightOfTerms as := by
    simp [weightOfTerms]
  have hpositive {as : List (List TypeExpr)} (hne : as ≠ []) (has : ∀ fs ∈ as, fs ≠ []) :
      0 < weightOfTerms as := by
    have htwo := two_le_weightOfTerms ⟨hne, has⟩
    omega
  obtain ⟨hle, hlt⟩ := sum_le_mul (weightOfTerms front) (weightOfTerms back)
    (two_le_weightOfFactors (ha.2 fs (by simp))) (two_le_weightOfFactors (hb.2 gs (by simp)))
  rw [heq, weightOfTerms_append, hlast, hcons, hcons, hproduct]
  refine ⟨hle, ?_⟩
  rintro (hlength | hlength)
  · have hfront : front ≠ [] := by
      rintro rfl
      simp at hlength
    exact hlt (.inl (hpositive hfront fun fs hfs => ha.2 fs (by simp [hfs])))
  · have hback : back ≠ [] := by
      rintro rfl
      simp at hlength
    exact hlt (.inr (hpositive hback fun fs hfs => hb.2 fs (by simp [hfs])))

theorem length_le_foldr_juxtapose {ass : List (List (List TypeExpr))} (h : ∀ as ∈ ass, Filled as)
    {as : List (List TypeExpr)} (has : as ∈ ass) :
    as.length ≤ (ass.foldr juxtapose []).length := by
  induction ass with
  | nil => simp at has
  | cons first rest ih =>
    obtain ⟨hfirst, hrest⟩ := List.forall_mem_cons.mp h
    by_cases hnil : rest = []
    · have hsame : as = first := by simpa [hnil] using has
      simp [hnil, hsame]
    · have hfilled := filled_foldr .juxtapose juxtapose_nil hnil hrest
      have hlength := length_juxtapose hfirst.1 hfilled.1
      have hpositive := List.length_pos_iff.mpr hfirst.1
      have hpositive' := List.length_pos_iff.mpr hfilled.1
      rw [List.foldr_cons]
      rcases List.mem_cons.mp has with rfl | has
      · omega
      · have hle := ih hrest has
        omega

/-- The same of several members. -/
theorem weightOfTerms_foldr_juxtapose {ass : List (List (List TypeExpr))} (hne : ass ≠ [])
    (h : ∀ as ∈ ass, Filled as) :
    weightOfTerms (ass.foldr juxtapose []) ≤ (ass.map weightOfTerms).prod ∧
    (2 ≤ ass.length → (∃ as ∈ ass, 2 ≤ as.length) →
      weightOfTerms (ass.foldr juxtapose []) < (ass.map weightOfTerms).prod) := by
  induction ass with
  | nil => exact (hne rfl).elim
  | cons as ass ih =>
    obtain ⟨has, hass⟩ := List.forall_mem_cons.mp h
    by_cases hrest : ass = []
    · simp [hrest]
    · obtain ⟨hle, -⟩ := ih hrest hass
      have hfilled := filled_foldr .juxtapose juxtapose_nil hrest hass
      obtain ⟨hpair, hpairlt⟩ := weightOfTerms_juxtapose has hfilled
      have hprod := Nat.mul_le_mul_left (weightOfTerms as) hle
      rw [List.foldr_cons, List.map_cons, List.prod_cons]
      refine ⟨hpair.trans hprod, ?_⟩
      intro _ hlong
      refine Nat.lt_of_lt_of_le (hpairlt ?_) hprod
      obtain ⟨bs, hbs, hlength⟩ := hlong
      rcases List.mem_cons.mp hbs with rfl | hbs
      · exact .inl hlength
      · exact .inr (hlength.trans (length_le_foldr_juxtapose hass hbs))

end TypeExpr

end TypeScriptComposer
