import TypeScriptComposer.Proofs.TypeExpr.ReadBack

/-!
# Reading constraints

In a constraint the word `keyof` in front of an operand is an operator: it binds closer than the
ampersand and makes of the operand the type of its keys. Where no operand follows it, the word is a
name. What the keys of a type are is left open; `keys` gives the type that stands for them.

The tokens of a printed type never have a word in front of an operand. They are read in a constraint
as they are read elsewhere.
-/

set_option autoImplicit false

namespace TypeScriptComposer

namespace TypeExpr
open Reader Token

def beginsOperand : List Token → Bool
  | .word _ :: _ => true
  | .mark c :: _ => c == '(' || c == '[' || c == '\x7b'
  | _ => false

/-- An operand, perhaps with operators of keys in front of it. -/
def readFactor (keys : TypeExpr → TypeExpr) (operand : Reader TypeExpr) : Reader TypeExpr
  | .word w :: ts =>
    if w = "keyof" ∧ beginsOperand ts = true then
      (readFactor keys operand ts).map fun (t, rest) => (keys t, rest)
    else operand (.word w :: ts)
  | ts => operand ts

/-- The factors of an alternative. -/
def readProduct (keys : TypeExpr → TypeExpr) (type : Reader TypeExpr) : Reader (List TypeExpr) :=
  separated (.mark '&') (readFactor keys (readOperand type))

/-- Constraints are read down to `depth` levels within each other. -/
def readConstraint (keys : TypeExpr → TypeExpr) : Nat → Reader TypeExpr
  | 0, _ => none
  | depth + 1, ts =>
    if beginsFunction ts then do
      let (parameters, rest) ←
        listed (.mark ')') (readParameter (readConstraint keys depth)) ts.tail
      readResult (readConstraint keys depth) parameters rest
    else (separated (.mark '|') (readProduct keys (readConstraint keys depth))).map ofTerms ts

/-- The type that the text of a constraint is read as. -/
def readAsConstraint (keys : TypeExpr → TypeExpr) (text : String) : Option TypeExpr :=
  let ts := Token.scan [] text.toList
  match readConstraint keys (ts.length + 1) ts with
  | some (t, []) => some t
  | _ => none

end TypeExpr

namespace Reader
open TypeExpr
variable {α β : Type} {read read' : Reader α} {ts rest : List Token} {a : α} {as : List α}

theorem map_eq_some_iff (f : α → β) {b : β} :
    map f read ts = some (b, rest) ↔ ∃ a, read ts = some (a, rest) ∧ f a = b := by
  simp [map]

theorem closedBy_eq_some_iff {close : Token} :
    closedBy close read ts = some (a, rest) ↔ read ts = some (a, close :: rest) := by
  simp only [closedBy, Option.bind_eq_bind, Option.bind_eq_some_iff]
  constructor
  · rintro ⟨⟨a', rest'⟩, hread, hclose⟩
    dsimp only at hclose
    split at hclose
    · rename_i hhead
      obtain ⟨rest'', rfl⟩ := List.head?_eq_some_iff.mp hhead
      cases hclose
      exact hread
    · cases hclose
  · intro hread
    exact ⟨_, hread, by simp⟩

theorem separatedUpTo_succ_eq_some_iff {separator : Token} {n : Nat} :
    separatedUpTo separator read (n + 1) ts = some (as, rest) ↔
      (∃ a as' rest', read ts = some (a, separator :: rest') ∧
        separatedUpTo separator read n rest' = some (as', rest) ∧ as = a :: as') ∨
      ∃ a, read ts = some (a, rest) ∧ rest.head? ≠ some separator ∧ as = [a] := by
  simp only [separatedUpTo, Option.bind_eq_bind, Option.bind_eq_some_iff]
  constructor
  · rintro ⟨⟨a, rest'⟩, hread, hmore⟩
    dsimp only at hmore
    split at hmore
    · rename_i hhead
      obtain ⟨rest'', rfl⟩ := List.head?_eq_some_iff.mp hhead
      obtain ⟨⟨as', _⟩, htail, heq⟩ := Option.bind_eq_some_iff.mp hmore
      cases heq
      exact .inl ⟨a, as', rest'', hread, htail, rfl⟩
    · rename_i hhead
      cases hmore
      exact .inr ⟨a, hread, hhead, rfl⟩
  · rintro (⟨a, as', rest', hread, hmore, rfl⟩ | ⟨a, hread, hhead, rfl⟩)
    · exact ⟨_, hread, by simp [hmore]⟩
    · exact ⟨_, hread, by simp [hhead]⟩

theorem listed_eq_some_iff {close : Token} :
    listed close read ts = some (as, rest) ↔
      (ts = close :: rest ∧ as = []) ∨
      (ts.head? ≠ some close ∧ separated (.mark ',') read ts = some (as, close :: rest)) := by
  unfold listed
  split
  · rename_i hhead
    obtain ⟨rest', rfl⟩ := List.head?_eq_some_iff.mp hhead
    simp [eq_comm, and_comm]
  · rename_i hhead
    rw [closedBy_eq_some_iff]
    constructor
    · exact fun hread => .inr ⟨hhead, hread⟩
    · rintro (⟨rfl, -⟩ | ⟨-, hread⟩)
      · simp at hhead
      · exact hread

/-- What `read` reads in front of anything but an operand, `read'` reads as well. -/
def ReadsAlike (read read' : Reader α) : Prop :=
  ∀ ⦃ts a rest⦄, beginsOperand rest = false → read ts = some (a, rest) →
    read' ts = some (a, rest)

namespace ReadsAlike

theorem map (h : ReadsAlike read read') (f : α → β) : ReadsAlike (read.map f) (read'.map f) := by
  intro ts b rest hrest hread
  obtain ⟨a, hinner, rfl⟩ := (map_eq_some_iff f).mp hread
  exact (map_eq_some_iff f).mpr ⟨a, h hrest hinner, rfl⟩

theorem separated (h : ReadsAlike read read') (separator : Token)
    (hseparator : ∀ ts, beginsOperand (separator :: ts) = false) :
    ReadsAlike (separated separator read) (separated separator read') := by
  have hupTo (n : Nat) : ReadsAlike (separatedUpTo separator read n)
      (separatedUpTo separator read' n) := by
    induction n with
    | zero => simp [ReadsAlike, separatedUpTo]
    | succ n ih =>
      intro ts as rest hrest hread
      rw [separatedUpTo_succ_eq_some_iff] at hread ⊢
      rcases hread with ⟨a, as', rest', hread, hmore, has⟩ | ⟨a, hread, hhead, has⟩
      · exact .inl ⟨a, as', rest', h (hseparator _) hread, ih hrest hmore, has⟩
      · exact .inr ⟨a, h hrest hread, hhead, has⟩
  exact fun ts _ _ hrest hread => hupTo (ts.length + 1) hrest hread

/-- Behind a closing token anything may follow. -/
theorem closedBy (h : ReadsAlike read read') {close : Token}
    (hclose : ∀ ts, beginsOperand (close :: ts) = false)
    (hread : closedBy close read ts = some (a, rest)) :
    closedBy close read' ts = some (a, rest) := by
  rw [closedBy_eq_some_iff] at hread ⊢
  exact h (hclose rest) hread

theorem listed (h : ReadsAlike read read') {close : Token}
    (hclose : ∀ ts, beginsOperand (close :: ts) = false)
    (hread : listed close read ts = some (as, rest)) :
    listed close read' ts = some (as, rest) := by
  rw [listed_eq_some_iff] at hread ⊢
  rcases hread with hempty | ⟨hhead, hread⟩
  · exact .inl hempty
  · exact .inr ⟨hhead, h.separated (.mark ',') (fun _ => rfl) (hclose rest) hread⟩

variable {type type' : Reader TypeExpr}

theorem member (h : ReadsAlike type type') :
    ReadsAlike (readMember type) (readMember type') := by
  intro ts m rest hrest hread
  unfold readMember at hread ⊢
  split at hread
  · exact h.map _ hrest hread
  · exact h.map _ hrest hread
  · cases hread

theorem parameter (h : ReadsAlike type type') :
    ReadsAlike (readParameter type) (readParameter type') := by
  intro ts p rest hrest hread
  unfold readParameter at hread ⊢
  split at hread
  · exact h.map _ hrest hread
  · cases hread

theorem operand (h : ReadsAlike type type') {t : TypeExpr}
    (hread : readOperand type ts = some (t, rest)) :
    readOperand type' ts = some (t, rest) := by
  unfold readOperand at hread ⊢
  split at hread
  · obtain ⟨arguments, hlist, rfl⟩ := (map_eq_some_iff _).mp hread
    have hlist' := (h.separated (.mark ',') fun _ => rfl).closedBy
      (fun _ => rfl) hlist
    exact (map_eq_some_iff _).mpr ⟨arguments, hlist', rfl⟩
  · exact hread
  · obtain ⟨members, hlist, rfl⟩ := (map_eq_some_iff _).mp hread
    exact (map_eq_some_iff _).mpr ⟨members, h.member.listed (fun _ => rfl) hlist, rfl⟩
  · obtain ⟨members, hlist, rfl⟩ := (map_eq_some_iff _).mp hread
    exact (map_eq_some_iff _).mpr ⟨members, h.listed (fun _ => rfl) hlist, rfl⟩
  · exact h.closedBy (fun _ => rfl) hread
  · cases hread

/-- A word in front of anything but an operand is a name. -/
theorem factor (h : ReadsAlike type type') (keys : TypeExpr → TypeExpr) :
    ReadsAlike (readOperand type) (readFactor keys (readOperand type')) := by
  intro ts t rest hrest hread
  have hread' := h.operand hread
  unfold readFactor
  split
  · rename_i w ts
    rw [if_neg]
    · exact hread'
    · -- with arguments the word is a name, and without them all that follows it is left
      rintro ⟨-, hoperand⟩
      cases ts with
      | nil => cases hoperand
      | cons t' ts =>
        by_cases harguments : t' = .mark '<'
        · simp [harguments, beginsOperand] at hoperand
        · have hrest' : t' :: ts = rest := by
            simpa [readOperand, harguments] using congrArg (·.map Prod.snd) hread
          rw [hrest', hrest] at hoperand
          cases hoperand
  · exact hread'

theorem constraint (keys : TypeExpr → TypeExpr) (depth : Nat) :
    ReadsAlike (readType depth) (readConstraint keys depth) := by
  induction depth with
  | zero => simp [ReadsAlike, readType]
  | succ depth ih =>
    intro ts t rest hrest hread
    unfold readType at hread
    unfold readConstraint
    split at hread
    · rename_i hfunction
      obtain ⟨⟨parameters, rest'⟩, hparameters, hresult⟩ := Option.bind_eq_some_iff.mp hread
      have hparameters' := ih.parameter.listed (fun _ => rfl) hparameters
      rw [if_pos hfunction]
      refine Option.bind_eq_some_iff.mpr ⟨_, hparameters', ?_⟩
      dsimp only at hresult ⊢
      unfold readResult at hresult ⊢
      split at hresult
      · exact ih.map _ hrest hresult
      · cases hresult
    · rename_i hfunction
      rw [if_neg hfunction]
      refine ReadsAlike.map ?_ ofTerms hrest hread
      exact ((ih.factor keys).separated (.mark '&') fun _ => rfl).separated (.mark '|') fun _ => rfl

end ReadsAlike

/-- The rest is empty, or it begins with one of the tokens. -/
def EndsBefore (next : List Token) (rest : List Token) : Prop :=
  ∀ t, rest.head? = some t → t ∈ next

theorem Separated.readsBefore_endsBefore {separator : Token} {next : List Token}
    (h : Separated separator (ReadsBefore read (EndsBefore (separator :: next))) ts as)
    (hnext : separator ∉ next) : ReadsBefore (separated separator read) (EndsBefore next) ts as := by
  refine h.readsBefore (fun rest t hhead => ?_) fun rest hrest => ⟨fun t hhead => ?_, ?_⟩
  · cases hhead
    exact List.mem_cons_self
  · exact List.mem_cons_of_mem _ (hrest t hhead)
  · exact fun hhead => hnext (hrest _ hhead)

theorem separatedUpTo_eq_none (h : read ts = none) (separator : Token) (n : Nat) :
    separatedUpTo separator read n ts = none := by
  cases n <;> simp [separatedUpTo, h]

/-- Behind items that are read there must be another one. -/
theorem Separated.separatedUpTo_append_eq_none {separator : Token} {inner : List Token → Prop}
    {us : List Token} (h : Separated separator (ReadsBefore read inner) ts as)
    (hseparator : ∀ rest, inner (separator :: rest))
    (hus : ∀ n, separatedUpTo separator read n us = none) (n : Nat) :
    separatedUpTo separator read n (ts ++ separator :: us) = none := by
  induction h generalizing n with
  | single h =>
    cases n with
    | zero => rfl
    | succ n => simp [separatedUpTo, h _ (hseparator us), hus]
  | cons h _ ih =>
    cases n with
    | zero => rfl
    | succ n => simp [separatedUpTo, h _ (hseparator _), ih]

end Reader

namespace TypeExpr
open Reader Token
variable {keys : TypeExpr → TypeExpr} {type : Reader TypeExpr} {depth : Nat}
  {ts us : List Token} {t : TypeExpr} {as bs : List (List TypeExpr)}

/-- The tokens of an operand with operators of keys in front of it, or with none. -/
structure IsFactor (keys : TypeExpr → TypeExpr) (type : Reader TypeExpr) (ts : List Token)
    (t : TypeExpr) : Prop where
  reads : ReadsBefore (readFactor keys (readOperand type)) (EndsBefore [.mark '&', .mark '|']) ts t
  begins : ∀ rest, beginsOperand (ts ++ rest) = true
  notFunction : ∀ rest, beginsFunction (ts ++ rest) = false

/-- The tokens of alternatives, each with its factors. -/
def IsFactors (keys : TypeExpr → TypeExpr) (type : Reader TypeExpr) :
    List Token → List (List TypeExpr) → Prop :=
  Separated (.mark '|') (Separated (.mark '&') (IsFactor keys type))

theorem Opens.beginsOperand (h : Opens ts) (rest : List Token) :
    beginsOperand (ts ++ rest) = true := by
  match ts, h with
  | .word _ :: _, _ => rfl
  | .mark c :: _, h => simpa [Opens, TypeExpr.beginsOperand, or_assoc] using h
  | .arrow :: _, h => simp [Opens] at h

theorem IsOperand.isFactor (h : IsOperand (readType depth) ts t) :
    IsFactor keys (readConstraint keys depth) ts t := by
  refine ⟨?_, h.opens.beginsOperand, h.notFunction⟩
  intro rest hrest
  have hread : readOperand (readType depth) (ts ++ rest) = some (t, rest) := by
    refine h.reads rest ?_
    rintro t ht hhead
    rw [List.mem_singleton.mp ht] at hhead
    have hno : Token.mark '<' ∉ [Token.mark '&', .mark '|'] := by decide
    exact hno (hrest _ hhead)
  have hoperand : TypeExpr.beginsOperand rest = false := by
    cases rest with
    | nil => rfl
    | cons t rest =>
      have ht : t = .mark '&' ∨ t = .mark '|' := by simpa using hrest t rfl
      rcases ht with rfl | rfl <;> rfl
  exact (ReadsAlike.constraint keys depth).factor keys hoperand hread

/-- The operator of keys in front of a factor. -/
theorem IsFactor.keyOf (h : IsFactor keys type ts t) :
    IsFactor keys type (.word "keyof" :: ts) (keys t) := by
  refine ⟨?_, fun _ => rfl, fun _ => rfl⟩
  intro rest hrest
  rw [List.cons_append, readFactor, if_pos ⟨rfl, h.begins rest⟩, h.reads rest hrest]
  rfl

theorem IsTerms.isFactors (h : IsTerms (readType depth) ts as) :
    IsFactors keys (readConstraint keys depth) ts as :=
  h.mono fun _ _ hproduct => hproduct.mono fun _ _ hoperand => hoperand.isFactor

/-- The operator binds the first factor of the first alternative only. -/
def keyed (keys : TypeExpr → TypeExpr) (as : List (List TypeExpr)) : List (List TypeExpr) :=
  as.modifyHead (·.modifyHead keys)

theorem IsFactors.keyOf (h : IsFactors keys type ts as) :
    IsFactors keys type (.word "keyof" :: ts) (keyed keys as) := by
  have hproduct (ts : List Token) (fs : List TypeExpr)
      (h : Separated (.mark '&') (IsFactor keys type) ts fs) :
      Separated (.mark '&') (IsFactor keys type) ([.word "keyof"] ++ ts) (fs.modifyHead keys) :=
    h.modifyHead fun _ _ hfactor => hfactor.keyOf
  exact Separated.modifyHead hproduct h

theorem IsFactors.bar (h : IsFactors keys type ts as) (h' : IsFactors keys type us bs) :
    IsFactors keys type (ts ++ .mark '|' :: us) (as ++ bs) :=
  Separated.append h h'

theorem IsFactors.ampersand (h : IsFactors keys type ts as) (h' : IsFactors keys type us bs) :
    IsFactors keys type (ts ++ .mark '&' :: us) (juxtapose as bs) :=
  separated_juxtapose h h'

/-- The products of factors that stand between bars. -/
theorem IsFactors.products (h : IsFactors keys type ts as) :
    Separated (.mark '|') (ReadsBefore (readProduct keys type) (EndsBefore [.mark '|'])) ts as :=
  h.mono fun _ _ hproduct =>
    (hproduct.mono fun _ _ hfactor => hfactor.reads).readsBefore_endsBefore (by decide)

/-- All tokens are read when they are those of alternatives. -/
theorem IsFactors.read (h : IsFactors keys (readConstraint keys depth) ts as) :
    readConstraint keys (depth + 1) ts = some (ofTerms as, []) := by
  have hread := h.products.readsBefore_endsBefore (by decide) [] (by simp [EndsBefore])
  have hfunction := separated_notFunction (fun _ _ hfactor => hfactor.notFunction) h []
  rw [List.append_nil] at hread hfunction
  rw [readConstraint, hfunction]
  exact (map_eq_some_iff ofTerms).mpr ⟨as, hread, rfl⟩

/-- No alternatives can be read from the tokens. -/
def Stuck (keys : TypeExpr → TypeExpr) (type : Reader TypeExpr) (ts : List Token) : Prop :=
  ∀ n, separatedUpTo (.mark '|') (readProduct keys type) n ts = none

theorem Stuck.of_product (h : readProduct keys type ts = none) : Stuck keys type ts :=
  separatedUpTo_eq_none h _

theorem Stuck.of_factor (h : readFactor keys (readOperand type) ts = none) : Stuck keys type ts :=
  .of_product (separatedUpTo_eq_none h _ _)

theorem Stuck.bar (h : IsFactors keys type ts as) (hus : Stuck keys type us) :
    Stuck keys type (ts ++ .mark '|' :: us) :=
  h.products.separatedUpTo_append_eq_none (fun _ => by simp [EndsBefore]) hus

theorem Stuck.ampersand (h : IsFactors keys type ts as)
    (hus : readFactor keys (readOperand type) us = none) :
    Stuck keys type (ts ++ .mark '&' :: us) := by
  induction h with
  | single h =>
    refine .of_product ?_
    exact (h.mono fun _ _ hfactor => hfactor.reads).separatedUpTo_append_eq_none
      (fun _ => by simp [EndsBefore]) (separatedUpTo_eq_none hus _) _
  | @cons ts ts' fs as h _ ih =>
    rw [List.append_assoc, List.cons_append]
    exact Stuck.bar (.single h) ih

/-- A constraint whose alternatives cannot be read cannot be read. -/
theorem Stuck.read (h : Stuck keys (readConstraint keys depth) ts)
    (hfunction : beginsFunction ts = false) : readConstraint keys (depth + 1) ts = none := by
  rw [readConstraint, hfunction]
  simp [Reader.map, separated, h _]

/-- In parentheses, parameters are not read as a type. -/
theorem closedBy_of_beginsParameters (keys : TypeExpr → TypeExpr) (depth : Nat)
    (h : beginsParameters ts = true) :
    closedBy (.mark ')') (readConstraint keys depth) ts = none := by
  cases depth with
  | zero => rfl
  | succ depth =>
    unfold beginsParameters at h
    split at h
    · rename_i rest
      have hstuck : Stuck keys (readConstraint keys depth) (.mark ')' :: rest) := .of_factor rfl
      simp [closedBy, hstuck.read rfl]
    · rename_i w rest
      -- the name is read as a type, with the colon behind it
      have hname := (IsTerms.operand (@IsOperand.word (readType depth) w)).isType.reads
        (.mark ':' :: rest) (by simp [typeFollow])
      have hread := ReadsAlike.constraint keys (depth + 1) rfl hname
      rw [List.singleton_append] at hread
      simp [closedBy, hread]
    · cases h

/-- A function type is no factor, with or without an operator in front of it. -/
theorem readFactor_of_beginsFunction (keys : TypeExpr → TypeExpr) (depth : Nat)
    (h : beginsFunction ts = true) :
    readFactor keys (readOperand (readConstraint keys depth)) ts = none ∧
    readFactor keys (readOperand (readConstraint keys depth)) (.word "keyof" :: ts) = none := by
  unfold beginsFunction at h
  split at h
  · rename_i ts
    have hnone : readFactor keys (readOperand (readConstraint keys depth)) (.mark '(' :: ts) =
        none := closedBy_of_beginsParameters keys depth h
    refine ⟨hnone, ?_⟩
    rw [readFactor, if_pos ⟨rfl, rfl⟩, hnone]
    rfl
  · cases h

end TypeExpr

end TypeScriptComposer
