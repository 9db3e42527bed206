import TypeScriptComposer.Proofs.TypeExpr.Terms

/-!
# The shape of a type in its text

How many bars and ampersands stand outside of all brackets, and whether the text is that of a
function type: both are seen in the text, and alike types agree on the second.
-/

set_option autoImplicit false

namespace TypeScriptComposer

namespace TypeExpr

mutual

/-- The number of bars and ampersands in the text of a type that are outside of all brackets. -/
def marks : TypeExpr → Nat
  | .applied base arguments => if arguments.isEmpty then marks base else 0
  | .intersection members => members.length - 1 + marksOfAll loosens members
  | .union members => members.length - 1 + marksOfAll isFunction members
  | _ => 0

/-- The number of them in the texts of members, `wraps` saying which are in parentheses. -/
def marksOfAll (wraps : TypeExpr → Bool) : List TypeExpr → Nat
  | [] => 0
  | t :: ts => (if wraps t then 0 else marks t) + marksOfAll wraps ts

end

variable (name : Symbol → String)

theorem flatten_juxtapose (as bs : List (List TypeExpr)) :
    (juxtapose as bs).flatten = as.flatten ++ bs.flatten := by
  induction as with
  | nil => cases bs <;> rfl
  | cons a as ih =>
    by_cases has : as = []
    · cases bs <;> simp [has, juxtapose]
    · simp [juxtapose_cons a has, ih]

theorem length_flatten_foldr {combine : List (List TypeExpr) → List (List TypeExpr) →
      List (List TypeExpr)}
    (hcombine : ∀ as bs, (combine as bs).flatten = as.flatten ++ bs.flatten)
    (wraps : TypeExpr → Bool) {ts : List TypeExpr}
    (h : ∀ t ∈ ts, (t.terms name).flatten.length = t.marks + 1) :
    ((ts.map (memberTerms name wraps)).foldr combine []).flatten.length =
      ts.length + marksOfAll wraps ts := by
  induction ts with
  | nil => rfl
  | cons t ts ih =>
    obtain ⟨ht, hts⟩ := List.forall_mem_cons.mp h
    have hmember : (memberTerms name wraps t).flatten.length =
        (if wraps t then 0 else t.marks) + 1 := by
      unfold memberTerms
      split
      · rfl
      · exact ht
    rw [List.map_cons, List.foldr_cons, hcombine, List.length_append, hmember, ih hts, marksOfAll,
      List.length_cons]
    omega

theorem length_flatten_terms (t : TypeExpr) : (t.terms name).flatten.length = t.marks + 1 := by
  induction t using TypeExpr.induction with
  | named usage s => rfl
  | applied base arguments ihbase _ =>
    rw [terms, marks]
    split
    · exact ihbase
    · rfl
  | typeVar v =>
    obtain ⟨parameter, bounds⟩ := v
    rfl
  | object members _ => rfl
  | tuple members _ => rfl
  | intersection members ih =>
    cases members with
    | nil => rfl
    | cons t ts =>
      rw [terms, marks, termsOfAll_eq_map, if_neg (by simp),
        length_flatten_foldr name flatten_juxtapose loosens ih, List.length_cons]
      omega
  | union members ih =>
    cases members with
    | nil => rfl
    | cons t ts =>
      rw [terms, marks, termsOfAll_eq_map, if_neg (by simp),
        length_flatten_foldr name (fun _ _ => List.flatten_append) isFunction ih, List.length_cons]
      omega
  | function parameters returns _ _ => rfl

theorem Filled.length_flatten_eq_one {as : List (List TypeExpr)} (h : Filled as)
    (hlength : as.flatten.length = 1) : ∃ t, as = [[t]] := by
  obtain ⟨fs, as, rfl⟩ := List.exists_cons_of_ne_nil h.1
  obtain ⟨hfs, has⟩ := List.forall_mem_cons.mp h.2
  obtain ⟨t, fs, rfl⟩ := List.exists_cons_of_ne_nil hfs
  simp only [List.flatten_cons, List.length_append, List.length_cons] at hlength
  have hnil : fs = [] := List.length_eq_zero_iff.mp (by omega)
  cases as with
  | nil => exact ⟨t, by rw [hnil]⟩
  | cons gs as =>
    have hgs := List.length_pos_iff.mpr (has gs (by simp))
    simp only [List.flatten_cons, List.length_append] at hlength
    omega

theorem exists_terms_eq {t : TypeExpr} (h : t.marks = 0) : ∃ u, t.terms name = [[u]] :=
  (filled_terms name t).length_flatten_eq_one (by rw [length_flatten_terms, h])

mutual

/-- Whether a type is a function type, but for what its text does not show. -/
def isArrow : TypeExpr → Bool
  | .function .. => true
  | .applied base arguments => arguments.isEmpty && isArrow base
  | .intersection members | .union members => isOneArrow members
  | _ => false

def isOneArrow : List TypeExpr → Bool
  | [t] => isArrow t
  | _ => false

end

theorem isOneArrow_append_cons (ts : List TypeExpr) (t : TypeExpr) (us : List TypeExpr) :
    isOneArrow (ts ++ t :: us) = (ts.isEmpty && us.isEmpty && t.isArrow) := by
  match ts, us with
  | [], [] => rfl
  | [], _ :: _ => rfl
  | [_], _ => rfl
  | _ :: _ :: _, _ => rfl

theorem Alike.isArrow_eq {t u : TypeExpr} (h : Alike t u) : t.isArrow = u.isArrow := by
  induction h with
  | refl t => rfl
  | symm _ ih => exact ih.symm
  | trans _ _ ih ih' => exact ih.trans ih'
  | emptyUnion | emptyIntersection => rfl
  | unionOfOne t | intersectionOfOne t | noArguments t => rfl
  | unionInUnion ts vs hne | intersectionInIntersection ts vs hne =>
    obtain ⟨u, us, rfl⟩ := List.exists_cons_of_ne_nil hne
    have hinner := isOneArrow_append_cons [] u us
    simp only [List.nil_append] at hinner
    simp only [isArrow, isOneArrow_append_cons, hinner, List.append_assoc, List.cons_append]
    cases ts <;> cases us <;> cases vs <;> simp
  | base _ _ ih => simp [isArrow, ih]
  | argument _ ts => cases ts <;> rfl
  | union _ _ _ ih | intersection _ _ _ ih => simp [isArrow, isOneArrow_append_cons, ih]
  | object | tuple | parameter | result => rfl

end TypeExpr

end TypeScriptComposer
