import TypeScriptComposer.Proofs.TypeExpr.Reader

/-!
# What printed types are read as

The text of a type is read as the alternatives that its bars separate, each with the factors that
its ampersands separate. A member in parentheses is one factor; any other member brings its own
alternatives and factors with it, and where these meet a bar or an ampersand of the whole, they are
read by the precedence of the marks, whatever the type was.
-/

set_option autoImplicit false

namespace TypeScriptComposer

namespace TypeExpr
open Reader Token

variable (name : Symbol → String)

mutual

/-- The alternatives and their factors that the text of a type is read as. -/
def terms : TypeExpr → List (List TypeExpr)
  | .named usage s => [[literal (printedName name usage s)]]
  | .applied base arguments =>
    if arguments.isEmpty then terms base
    else [[.applied (ofTerms (terms base)) ((termsOfAll (fun _ => false) arguments).map ofTerms)]]
  | .typeVar ⟨parameter, _⟩ => [[literal parameter]]
  | .object members => [[.object (readingOfMembers members)]]
  | .tuple members => [[.tuple ((termsOfAll (fun _ => false) members).map ofTerms)]]
  | .intersection members =>
    if members.isEmpty then [[unknown]] else (termsOfAll loosens members).foldr juxtapose []
  | .union members =>
    if members.isEmpty then [[never]] else (termsOfAll isFunction members).foldr (· ++ ·) []
  | .function parameters returns =>
    [[.function (readingOfParameters parameters) (ofTerms (terms returns))]]

/-- The terms of several types, `wraps` saying which of them are in parentheses. -/
def termsOfAll (wraps : TypeExpr → Bool) : List TypeExpr → List (List (List TypeExpr))
  | [] => []
  | t :: ts => (if wraps t then [[ofTerms (terms t)]] else terms t) :: termsOfAll wraps ts

def readingOfMembers : List Member → List Member
  | [] => []
  | ⟨member, type, optional⟩ :: ms =>
    ⟨member, ofTerms (terms type), optional⟩ :: readingOfMembers ms

def readingOfParameters : List (String × TypeExpr) → List (String × TypeExpr)
  | [] => []
  | (parameter, type) :: ps => (parameter, ofTerms (terms type)) :: readingOfParameters ps

end

/-- The type that the text of a type is read as. -/
def reading (t : TypeExpr) : TypeExpr := ofTerms (terms name t)

/-- The terms of a member, in parentheses or not. -/
def memberTerms (wraps : TypeExpr → Bool) (t : TypeExpr) : List (List TypeExpr) :=
  if wraps t then [[t.reading name]] else t.terms name

theorem termsOfAll_eq_map (wraps : TypeExpr → Bool) (ts : List TypeExpr) :
    termsOfAll name wraps ts = ts.map (memberTerms name wraps) := by
  induction ts with
  | nil => rfl
  | cons t ts ih =>
    rw [termsOfAll, ih, List.map_cons]
    rfl

theorem readings_eq_map (ts : List TypeExpr) :
    (termsOfAll name (fun _ => false) ts).map ofTerms = ts.map (·.reading name) := by
  rw [termsOfAll_eq_map, List.map_map]
  rfl

theorem readingOfMembers_eq_map (ms : List Member) : readingOfMembers name ms =
    ms.map fun m => ⟨m.name, m.type.reading name, m.optional⟩ := by
  induction ms with
  | nil => rfl
  | cons m ms ih =>
    obtain ⟨member, type, optional⟩ := m
    rw [readingOfMembers, ih, List.map_cons]
    rfl

theorem readingOfParameters_eq_map (ps : List (String × TypeExpr)) :
    readingOfParameters name ps = ps.map fun p => (p.1, p.2.reading name) := by
  induction ps with
  | nil => rfl
  | cons p ps ih =>
    rw [readingOfParameters, ih, List.map_cons]
    rfl

theorem reading_applied (base : TypeExpr) {arguments : List TypeExpr} (h : arguments ≠ []) :
    (TypeExpr.applied base arguments).reading name =
      .applied (base.reading name) (arguments.map (·.reading name)) := by
  rw [reading, terms, if_neg (by simpa using h), readings_eq_map]
  rfl

theorem reading_object (members : List Member) : (TypeExpr.object members).reading name =
    .object (members.map fun m => ⟨m.name, m.type.reading name, m.optional⟩) := by
  rw [reading, terms, readingOfMembers_eq_map]
  rfl

theorem reading_tuple (members : List TypeExpr) :
    (TypeExpr.tuple members).reading name = .tuple (members.map (·.reading name)) := by
  rw [reading, terms, readings_eq_map]
  rfl

theorem reading_function (parameters : List (String × TypeExpr)) (returns : TypeExpr) :
    (TypeExpr.function parameters returns).reading name =
      .function (parameters.map fun p => (p.1, p.2.reading name)) (returns.reading name) := by
  rw [reading, terms, readingOfParameters_eq_map]
  rfl

variable {name}

theorem length_le_joined {tss : List (List Token)} {ts : List Token} (h : ts ∈ tss)
    (separator : Token) : ts.length ≤ (joined separator tss).length := by
  induction tss with
  | nil => simp at h
  | cons us tss ih =>
    cases tss with
    | nil =>
      rw [List.mem_singleton.mp h]
      simp
    | cons us' tss =>
      rw [joined_cons_cons, List.length_append, List.length_cons]
      rcases List.mem_cons.mp h with rfl | hmem
      · omega
      · have hle := ih hmem
        omega

/-- Terms with a mark between them, which `combine` says how to read. -/
theorem isTerms_joined {type : Reader TypeExpr} {mark : Token}
    {combine : List (List TypeExpr) → List (List TypeExpr) → List (List TypeExpr)}
    (hcombine : ∀ {ts us as bs}, IsTerms type ts as → IsTerms type us bs →
      IsTerms type (ts ++ mark :: us) (combine as bs))
    (hnil : ∀ as, combine as [] = as) {tss : List (List Token)}
    {ass : List (List (List TypeExpr))} (h : List.Forall₂ (IsTerms type) tss ass)
    (hne : ass ≠ []) : IsTerms type (joined mark tss) (ass.foldr combine []) := by
  induction h with
  | nil => exact (hne rfl).elim
  | cons hfirst hrest ih =>
    cases hrest with
    | nil =>
      rw [joined_singleton, List.foldr_cons, List.foldr_nil, hnil]
      exact hfirst
    | cons _ _ =>
      rw [joined_cons_cons, List.foldr_cons]
      exact hcombine hfirst (ih (by simp))

/-- The tokens of a type are read back at every depth that their number allows. -/
structure ReadsBack (name : Symbol → String) (t : TypeExpr) : Prop where
  isTerms : t.isFunction = false → ∀ depth, (t.tokens name).length ≤ depth →
    IsTerms (readType depth) (t.tokens name) (t.terms name)
  isType : ∀ depth, (t.tokens name).length < depth →
    IsType (readType depth) (t.tokens name) (t.reading name)

namespace ReadsBack

theorem of_isTerms {t : TypeExpr} (h : ∀ depth, (t.tokens name).length ≤ depth →
    IsTerms (readType depth) (t.tokens name) (t.terms name)) : ReadsBack name t := by
  refine ⟨fun _ => h, ?_⟩
  intro depth hdepth
  obtain ⟨depth, rfl⟩ := Nat.exists_eq_add_of_lt hdepth
  exact (h _ (by omega)).isType

theorem of_operand {t u : TypeExpr} (hterms : t.terms name = [[u]])
    (h : ∀ depth, (t.tokens name).length ≤ depth →
      IsOperand (readType depth) (t.tokens name) u) : ReadsBack name t := by
  apply of_isTerms
  intro depth hdepth
  rw [hterms]
  exact .operand (h depth hdepth)

theorem types {ts : List TypeExpr} (h : ∀ t ∈ ts, ReadsBack name t) (depth : Nat)
    (hdepth : (joined (.mark ',') (tokensOfAll name (fun _ => false) ts)).length < depth) :
    List.Forall₂ (IsType (readType depth)) (tokensOfAll name (fun _ => false) ts)
      ((termsOfAll name (fun _ => false) ts).map ofTerms) := by
  rw [readings_eq_map]
  rw [tokensOfAll_eq_map] at hdepth ⊢
  rw [forall₂_map_iff]
  intro t ht
  exact (h t ht).isType depth
    (Nat.lt_of_le_of_lt (length_le_joined (List.mem_map_of_mem ht) _) hdepth)

theorem members {ms : List Member} (h : ∀ m ∈ ms, ReadsBack name m.type) (depth : Nat)
    (hdepth : (joined (.mark ',') (tokensOfMembers name ms)).length < depth) :
    List.Forall₂ (IsItem (readMember (readType depth))) (tokensOfMembers name ms)
      (readingOfMembers name ms) := by
  rw [readingOfMembers_eq_map]
  rw [tokensOfMembers_eq_map] at hdepth ⊢
  rw [forall₂_map_iff]
  intro m hm
  have hlength := Nat.lt_of_le_of_lt (length_le_joined (List.mem_map_of_mem hm) _) hdepth
  simp only [List.length_append, List.length_cons] at hlength
  exact isItem_member m.name m.optional ((h m hm).isType depth (by omega))

theorem parameters {ps : List (String × TypeExpr)} (h : ∀ p ∈ ps, ReadsBack name p.2)
    (depth : Nat) (hdepth : (joined (.mark ',') (tokensOfParameters name ps)).length < depth) :
    List.Forall₂ (IsItem (readParameter (readType depth))) (tokensOfParameters name ps)
      (readingOfParameters name ps) := by
  rw [readingOfParameters_eq_map]
  rw [tokensOfParameters_eq_map] at hdepth ⊢
  rw [forall₂_map_iff]
  intro p hp
  have hlength := Nat.lt_of_le_of_lt (length_le_joined (List.mem_map_of_mem hp) _) hdepth
  simp only [List.length_cons] at hlength
  exact isItem_parameter p.1 ((h p hp).isType depth (by omega))

/-- Members with marks between them are read when all function types are in parentheses. -/
theorem memberTerms (wraps : TypeExpr → Bool) (hwraps : ∀ t, t.isFunction = true → wraps t = true)
    {ts : List TypeExpr} (h : ∀ t ∈ ts, ReadsBack name t) {depth : Nat} {mark : Token}
    (hdepth : (joined mark (tokensOfAll name wraps ts)).length ≤ depth) :
    List.Forall₂ (IsTerms (readType depth)) (tokensOfAll name wraps ts)
      (termsOfAll name wraps ts) := by
  rw [termsOfAll_eq_map]
  rw [tokensOfAll_eq_map] at hdepth ⊢
  rw [forall₂_map_iff]
  intro t ht
  have hlength := Nat.le_trans (length_le_joined (List.mem_map_of_mem ht) mark) hdepth
  unfold TypeExpr.memberTerms
  cases hw : wraps t with
  | true =>
    rw [hw, if_pos rfl] at hlength
    simp only [inParentheses, List.length_append, List.length_cons] at hlength
    exact .operand (.inParentheses ((h t ht).isType depth (by omega)))
  | false =>
    rw [hw, if_neg (by simp)] at hlength
    have hfunction : t.isFunction = false := by
      by_contra hf
      simp [hwraps t (by simpa using hf)] at hw
    exact (h t ht).isTerms hfunction depth hlength

end ReadsBack

theorem beginsParameters_tokens (ps : List (String × TypeExpr)) (rest : List Token) :
    beginsParameters (joined (.mark ',') (tokensOfParameters name ps) ++ .mark ')' :: rest) =
      true := by
  match ps with
  | [] => rfl
  | [(_, _)] => simp [tokensOfParameters, beginsParameters]
  | (_, _) :: (_, _) :: _ => simp [tokensOfParameters, beginsParameters]

theorem readsBack (t : TypeExpr) (h : t.isPlain name = true) : ReadsBack name t := by
  induction t using TypeExpr.induction with
  | named usage s => exact .of_operand rfl fun _ _ => .word _
  | applied base arguments _ ih =>
    simp only [isPlain, Bool.and_eq_true, arePlain_iff] at h
    obtain ⟨⟨hname, -⟩, harguments⟩ := h
    cases base with
    | named usage s =>
      cases arguments with
      | nil => exact .of_operand rfl fun _ _ => .word _
      | cons t ts =>
        refine .of_operand (u := .applied (literal (printedName name usage s)) _) rfl ?_
        intro depth hdepth
        simp only [tokens, List.isEmpty_cons, Bool.false_eq_true, if_false, List.length_append,
          List.length_cons] at hdepth
        have hlist := ReadsBack.types (fun t ht => ih t ht (harguments t ht)) depth
          (by omega)
        exact .applied _ (.of_forall₂ _ hlist (by simp [termsOfAll]))
    | _ => simp [isName] at hname
  | typeVar v =>
    obtain ⟨parameter, bounds⟩ := v
    exact .of_operand rfl fun _ _ => .word _
  | object members ih =>
    rw [isPlain, membersPlain_iff] at h
    refine .of_operand rfl ?_
    intro depth hdepth
    simp only [tokens, List.length_append, List.length_cons] at hdepth
    have hlist := ReadsBack.members (fun m hm => ih m hm (h m hm).2) depth (by omega)
    exact IsOperand.object hlist
  | tuple members ih =>
    rw [isPlain, arePlain_iff] at h
    refine .of_operand rfl ?_
    intro depth hdepth
    simp only [tokens, List.length_append, List.length_cons] at hdepth
    have hlist := ReadsBack.types (fun t ht => ih t ht (h t ht)) depth (by omega)
    exact IsOperand.tuple (hlist.imp fun _ _ hitem => hitem.isItem)
  | intersection members ih =>
    rw [isPlain, arePlain_iff] at h
    cases members with
    | nil => exact .of_operand rfl fun _ _ => .word _
    | cons t ts =>
      refine .of_isTerms ?_
      intro depth hdepth
      have hlist := ReadsBack.memberTerms loosens (fun t hf => by simp [loosens, hf])
        (fun t ht => ih t ht (h t ht)) hdepth
      exact isTerms_joined .ampersand juxtapose_nil hlist (by simp [termsOfAll])
  | union members ih =>
    rw [isPlain, arePlain_iff] at h
    cases members with
    | nil => exact .of_operand rfl fun _ _ => .word _
    | cons t ts =>
      refine .of_isTerms ?_
      intro depth hdepth
      have hlist := ReadsBack.memberTerms isFunction (fun t hf => hf)
        (fun t ht => ih t ht (h t ht)) hdepth
      exact isTerms_joined .bar List.append_nil hlist (by simp [termsOfAll])
  | function parameters returns ih ihreturns =>
    simp only [isPlain, Bool.and_eq_true, parametersPlain_iff] at h
    refine ⟨by simp [isFunction], ?_⟩
    intro depth hdepth
    cases depth with
    | zero => omega
    | succ depth =>
      simp only [tokens, inParentheses, List.length_append, List.length_cons] at hdepth
      have hlist := ReadsBack.parameters (fun p hp => ih p hp (h.1 p hp).2) depth
        (by omega)
      exact .function hlist (beginsParameters_tokens parameters)
        ((ihreturns h.2).isType depth (by omega))

/-- The text of a type is read as its terms say. -/
theorem read_spell {t : TypeExpr} (h : t.isPlain name = true) :
    read (t.spell name) = some (t.reading name) := by
  have htype := (readsBack t h).isType ((t.tokens name).length + 1) (by omega)
  have hread := htype.reads [] (by simp)
  rw [List.append_nil] at hread
  rw [read, scan_spell h, hread]

end TypeExpr

end TypeScriptComposer
