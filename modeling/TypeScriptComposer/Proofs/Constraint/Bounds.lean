import TypeScriptComposer.Proofs.Constraint.Text

/-!
# What bounds are read as

The bounds of a constraint are read together: a bar adds the alternatives of the next bound to those
in front of it, an ampersand joins the two alternatives that meet there, and an operator of keys
takes the one operand that it stands in front of. A function type can only be read when it is the
first bound, and then all that follows belongs to its result.
-/

set_option autoImplicit false

namespace TypeScriptComposer

open TypeExpr

/-- What is read from alternatives with the mark of the combiner between them. -/
def Combiner.join : Combiner → List (List TypeExpr) → List (List TypeExpr) → List (List TypeExpr)
  | .union => (· ++ ·)
  | .intersection => juxtapose

namespace Bound
variable {name : Symbol → String} {keys : TypeExpr → TypeExpr} {depth : Nat} {ts : List Token}
  {as : List (List TypeExpr)} {bs : List Bound} {b first : Bound} {rest : List Bound}

/-- The alternatives and factors that the text of a bound is read as. -/
def terms (keys : TypeExpr → TypeExpr) (name : Symbol → String) (b : Bound) :
    List (List TypeExpr) :=
  if b.keyOf then keyed keys (b.type.terms name) else b.type.terms name

/-- The same of bounds behind what is read as `as`. -/
def termsOfAll (keys : TypeExpr → TypeExpr) (name : Symbol → String) (as : List (List TypeExpr))
    (bs : List Bound) : List (List TypeExpr) :=
  bs.foldl (fun as b => b.combiner.join as (b.terms keys name)) as

/-- The names in the type of a bound are words, and there are levels enough to read it. -/
structure IsReadable (name : Symbol → String) (depth : Nat) (b : Bound) : Prop where
  isPlain : b.type.isPlain name = true
  length_le : (b.type.tokens name).length ≤ depth

theorem IsReadable.isFactors (h : b.IsReadable name depth) (keys : TypeExpr → TypeExpr)
    (hfunction : b.type.isFunction = false) :
    IsFactors keys (readConstraint keys depth) (b.tokens name) (b.terms keys name) := by
  have hterms : IsFactors keys (readConstraint keys depth) (b.type.tokens name)
      (b.type.terms name) :=
    ((readsBack b.type h.isPlain).isTerms hfunction depth h.length_le).isFactors
  unfold tokens terms
  split
  · exact hterms.keyOf
  · exact hterms

theorem IsFactors.combiner {type : Reader TypeExpr} {us : List Token} {as' : List (List TypeExpr)}
    (h : IsFactors keys type ts as) (h' : IsFactors keys type us as') (combiner : Combiner) :
    IsFactors keys type (ts ++ .mark combiner.mark :: us) (combiner.join as as') := by
  cases combiner with
  | union => exact h.bar h'
  | intersection => exact h.ampersand h'

/-- Bounds that are no function types are read one after the other. -/
theorem isFactors_append (h : IsFactors keys (readConstraint keys depth) ts as)
    (hbs : ∀ b ∈ bs, b.IsReadable name depth) (hfunction : ∀ b ∈ bs, b.type.isFunction = false) :
    IsFactors keys (readConstraint keys depth) (ts ++ tokensOfAll name bs)
      (termsOfAll keys name as bs) := by
  induction bs generalizing ts as with
  | nil => simpa [tokensOfAll, termsOfAll] using h
  | cons b bs ih =>
    obtain ⟨hb, hbs⟩ := List.forall_mem_cons.mp hbs
    obtain ⟨hbfunction, hfunction⟩ := List.forall_mem_cons.mp hfunction
    have hnext := IsFactors.combiner h (hb.isFactors keys hbfunction) b.combiner
    have hall := ih hnext hbs hfunction
    simpa [tokensOfAll, termsOfAll] using hall

theorem beginsFunction_tokens (name : Symbol → String) {t : TypeExpr} (h : t.isFunction = true)
    (rest : List Token) :
    beginsFunction (t.tokens name ++ rest) = true := by
  cases t with
  | function parameters returns =>
    have hbegins := @beginsParameters_tokens name parameters
      (.arrow :: (returns.tokens name ++ rest))
    simpa [TypeExpr.tokens, inParentheses, beginsFunction] using hbegins
  | _ => cases h

theorem readFactor_of_isFunction (keys : TypeExpr → TypeExpr) (name : Symbol → String) (depth : Nat)
    (h : b.type.isFunction = true) (rest : List Token) :
    readFactor keys (readOperand (readConstraint keys depth)) (b.tokens name ++ rest) = none := by
  obtain ⟨hplain, hkeyOf⟩ := readFactor_of_beginsFunction keys depth
    (beginsFunction_tokens name h rest)
  unfold tokens
  split
  · exact hkeyOf
  · exact hplain

/-- Behind another bound a function type is not read. -/
theorem stuck_append (h : IsFactors keys (readConstraint keys depth) ts as)
    (hbs : ∀ b ∈ bs, b.IsReadable name depth) (hfunction : ∃ b ∈ bs, b.type.isFunction = true) :
    Stuck keys (readConstraint keys depth) (ts ++ tokensOfAll name bs) := by
  induction bs generalizing ts as with
  | nil => simp at hfunction
  | cons b bs ih =>
    obtain ⟨hb, hbs⟩ := List.forall_mem_cons.mp hbs
    rw [tokensOfAll, List.flatMap_cons, List.cons_append]
    cases hbfunction : b.type.isFunction with
    | true =>
      have hnone := readFactor_of_isFunction keys name depth hbfunction (tokensOfAll name bs)
      cases b.combiner with
      | union => exact Stuck.bar h (.of_factor hnone)
      | intersection => exact Stuck.ampersand h hnone
    | false =>
      have hlater : ∃ b ∈ bs, b.type.isFunction = true := by simpa [hbfunction] using hfunction
      have hnext := IsFactors.combiner h (hb.isFactors keys hbfunction) b.combiner
      have hstuck := ih hnext hbs hlater
      simpa [tokensOfAll] using hstuck

variable (name) in
/-- The text behind `extends`. -/
def constraint (first : Bound) (rest : List Bound) : String :=
  first.spell name ++ spellAll name rest

theorem length_tokens_le (h : b ∈ first :: rest) :
    (b.type.tokens name).length ≤ (first.tokens name ++ tokensOfAll name rest).length := by
  have htype (b : Bound) : (b.type.tokens name).length ≤ (b.tokens name).length := by
    simp [tokens]
  rw [List.length_append]
  rcases List.mem_cons.mp h with rfl | hb
  · have hfirst := htype b
    omega
  · obtain ⟨front, back, rfl⟩ := List.append_of_mem hb
    have hlater := htype b
    simp only [tokensOfAll, List.flatMap_append, List.flatMap_cons, List.length_append,
      List.length_cons]
    omega

/-- The text is read from the tokens of the bounds, with levels enough for each of them. -/
theorem exists_readAsConstraint_iff (keys : TypeExpr → TypeExpr)
    (h : ∀ b ∈ first :: rest, b.type.isPlain name = true) :
    ∃ depth, (∀ b ∈ first :: rest, b.IsReadable name depth) ∧
      ∀ t, readAsConstraint keys (constraint name first rest) = some t ↔
        readConstraint keys (depth + 1) (first.tokens name ++ tokensOfAll name rest) =
          some (t, []) := by
  obtain ⟨hfirst, hrest⟩ := List.forall_mem_cons.mp h
  have hscan : Token.scan [] (constraint name first rest).toList =
      first.tokens name ++ tokensOfAll name rest := by
    have hscans := scans_append_spellAll hrest (scans_spell hfirst) [] (by simp [Token.Breaks])
    rwa [List.append_nil, Token.scan, Token.ofWord, List.isEmpty_nil, if_pos rfl,
      List.append_nil] at hscans
  refine ⟨_, fun b hb => ⟨h b hb, length_tokens_le hb⟩, fun t => ?_⟩
  rw [readAsConstraint, hscan]
  split
  · rename_i u hread
    rw [hread]
    simp
  · rename_i hnone
    simp only [reduceCtorEq, false_iff]
    exact hnone t

theorem readAsConstraint_of_not_isFunction (keys : TypeExpr → TypeExpr)
    (h : ∀ b ∈ first :: rest, b.type.isPlain name = true)
    (hfunction : ∀ b ∈ first :: rest, b.type.isFunction = false) :
    readAsConstraint keys (constraint name first rest) =
      some (ofTerms (termsOfAll keys name (first.terms keys name) rest)) := by
  obtain ⟨depth, hreadable, hiff⟩ := exists_readAsConstraint_iff keys h
  obtain ⟨hfirst, hrest⟩ := List.forall_mem_cons.mp hreadable
  obtain ⟨hfirstFunction, hrestFunction⟩ := List.forall_mem_cons.mp hfunction
  exact (hiff _).mpr
    (isFactors_append (hfirst.isFactors keys hfirstFunction) hrest hrestFunction).read

/-- One bound without an operator is read as its type is read elsewhere. -/
theorem readAsConstraint_of_one (keys : TypeExpr → TypeExpr)
    (h : first.type.isPlain name = true) (hkeyOf : first.keyOf = false) :
    readAsConstraint keys (constraint name first []) = some (first.type.reading name) := by
  have hall : ∀ b ∈ [first], b.type.isPlain name = true := by simpa using h
  obtain ⟨depth, hreadable, hiff⟩ := exists_readAsConstraint_iff keys hall
  have hlength := (hreadable first (by simp)).length_le
  have htype := ((readsBack first.type h).isType (depth + 1) (by omega)).reads [] (by simp)
  have hread := Reader.ReadsAlike.constraint keys (depth + 1) rfl htype
  exact (hiff _).mpr (by simpa [tokens, tokensOfAll, hkeyOf] using hread)

theorem isFunction_of_readConstraint {t : TypeExpr} {rest : List Token}
    (h : beginsFunction ts = true) (hread : readConstraint keys depth ts = some (t, rest)) :
    t.isFunction = true := by
  cases depth with
  | zero => cases hread
  | succ depth =>
    rw [readConstraint, if_pos h, Option.bind_eq_bind, Option.bind_eq_some_iff] at hread
    obtain ⟨⟨parameters, rest'⟩, -, hresult⟩ := hread
    dsimp only [readResult] at hresult
    split at hresult
    · obtain ⟨returns, -, rfl⟩ := (Reader.map_eq_some_iff _).mp hresult
      rfl
    · cases hresult

/-- Where a function type has an operator or other bounds beside it, nothing is read, or a function
type whose result is all that follows. -/
theorem readAsConstraint_of_isFunction (keys : TypeExpr → TypeExpr)
    (h : ∀ b ∈ first :: rest, b.type.isPlain name = true)
    (hfunction : ∃ b ∈ first :: rest, b.type.isFunction = true)
    (hbeside : first.keyOf = true ∨ rest ≠ []) {t : TypeExpr}
    (hread : readAsConstraint keys (constraint name first rest) = some t) :
    t.isFunction = true ∧ rest ≠ [] := by
  obtain ⟨depth, hreadable, hiff⟩ := exists_readAsConstraint_iff keys h
  obtain ⟨hfirst, hrest⟩ := List.forall_mem_cons.mp hreadable
  rw [hiff] at hread
  cases hfirstFunction : first.type.isFunction with
  | true =>
    cases hkeyOf : first.keyOf with
    | true =>
      have hnone := readFactor_of_isFunction keys name depth hfirstFunction
        (tokensOfAll name rest)
      have hword : beginsFunction (first.tokens name ++ tokensOfAll name rest) = false := by
        simp [tokens, hkeyOf, beginsFunction]
      rw [(Stuck.of_factor hnone).read hword] at hread
      cases hread
    | false =>
      have hbegins := beginsFunction_tokens name hfirstFunction (tokensOfAll name rest)
      rw [tokens, hkeyOf] at hread
      exact ⟨isFunction_of_readConstraint hbegins hread, hbeside.resolve_left (by simp [hkeyOf])⟩
  | false =>
    have hlater : ∃ b ∈ rest, b.type.isFunction = true := by simpa [hfirstFunction] using hfunction
    have hfactors := hfirst.isFactors keys hfirstFunction
    have hword := separated_notFunction (fun _ _ hfactor => hfactor.notFunction) hfactors
      (tokensOfAll name rest)
    rw [(stuck_append hfactors hrest hlater).read hword] at hread
    cases hread

end Bound

end TypeScriptComposer
