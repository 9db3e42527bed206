import TypeScriptComposer.Proofs.TypeExpr.Tokens

/-!
# Reading types

TypeScript reads a type by precedence: a union is made of intersections, an intersection of
operands, and an operand is a name, perhaps with arguments, an object, a tuple, or a type in
parentheses. Parentheses begin a function type when they are empty or begin with a parameter; its
result is all that follows. Names are read as literal names.

A reader reads as much as it can and leaves the rest. What it reads from the tokens of a part does
not depend on the rest, as long as that does not begin with a token that would go on with the part.
-/

set_option autoImplicit false

namespace TypeScriptComposer

abbrev Reader (α : Type) := List Token → Option (α × List Token)

namespace Reader
variable {α β : Type}

/-- At most `n` items, the first of which must be there, with separators between them. -/
def separatedUpTo (separator : Token) (item : Reader α) : Nat → Reader (List α)
  | 0, _ => none
  | n + 1, ts => do
    let (a, rest) ← item ts
    if rest.head? = some separator then
      let (as, rest) ← separatedUpTo separator item n rest.tail
      return (a :: as, rest)
    else return ([a], rest)

def separated (separator : Token) (item : Reader α) : Reader (List α) := fun ts =>
  separatedUpTo separator item (ts.length + 1) ts

/-- What `inner` reads, with a closing token behind it. -/
def closedBy (close : Token) (inner : Reader α) : Reader α := fun ts => do
  let (a, rest) ← inner ts
  if rest.head? = some close then return (a, rest.tail) else none

/-- Items with commas between them, or nothing, and a closing token. -/
def listed (close : Token) (item : Reader α) : Reader (List α) := fun ts =>
  if ts.head? = some close then some ([], ts.tail)
  else closedBy close (separated (.mark ',') item) ts

def map (f : α → β) (read : Reader α) : Reader β := fun ts =>
  (read ts).map fun (a, rest) => (f a, rest)

end Reader

namespace TypeExpr
open Reader

def readParameter (type : Reader TypeExpr) : Reader (String × TypeExpr)
  | .word name :: .mark ':' :: ts => type.map (name, ·) ts
  | _ => none

def readMember (type : Reader TypeExpr) : Reader Member
  | .word name :: .mark '?' :: .mark ':' :: ts => type.map (⟨name, ·, true⟩) ts
  | .word name :: .mark ':' :: ts => type.map (⟨name, ·, false⟩) ts
  | _ => none

def readOperand (type : Reader TypeExpr) : Reader TypeExpr
  | .word name :: .mark '<' :: ts =>
    (closedBy (.mark '>') (separated (.mark ',') type)).map (.applied (literal name)) ts
  | .word name :: ts => some (literal name, ts)
  | .mark '\x7b' :: ts => (listed (.mark '\x7d') (readMember type)).map .object ts
  | .mark '[' :: ts => (listed (.mark ']') type).map .tuple ts
  | .mark '(' :: ts => closedBy (.mark ')') type ts
  | _ => none

/-- The alternatives of a union, each as the list of its factors. -/
def readTerms (type : Reader TypeExpr) : Reader (List (List TypeExpr)) :=
  separated (.mark '|') (separated (.mark '&') (readOperand type))

def unionOf : List TypeExpr → TypeExpr
  | [t] => t
  | ts => .union ts

def intersectionOf : List TypeExpr → TypeExpr
  | [t] => t
  | ts => .intersection ts

def ofTerms (terms : List (List TypeExpr)) : TypeExpr := unionOf (terms.map intersectionOf)

/-- Whether the tokens behind an open parenthesis are those of parameters. -/
def beginsParameters : List Token → Bool
  | .mark ')' :: _ => true
  | .word _ :: .mark ':' :: _ => true
  | _ => false

def readResult (type : Reader TypeExpr) (parameters : List (String × TypeExpr)) : Reader TypeExpr
  | .arrow :: ts => type.map (.function parameters) ts
  | _ => none

def beginsFunction : List Token → Bool
  | .mark '(' :: ts => beginsParameters ts
  | _ => false

/-- Types are read down to `depth` levels within each other. -/
def readType : Nat → Reader TypeExpr
  | 0, _ => none
  | depth + 1, ts =>
    if beginsFunction ts then do
      let (parameters, rest) ← listed (.mark ')') (readParameter (readType depth)) ts.tail
      readResult (readType depth) parameters rest
    else (readTerms (readType depth)).map ofTerms ts

/-- The type that a text is read as. There are not more levels than tokens. -/
def read (text : String) : Option TypeExpr :=
  let ts := Token.scan [] text.toList
  match readType (ts.length + 1) ts with
  | some (t, []) => some t
  | _ => none

end TypeExpr

namespace Reader
variable {α β : Type} {read : Reader α} {follow : List Token}

/-- The tokens are read as `a`, whatever the rest is, unless it begins with one of `follow`. -/
def Reads (read : Reader α) (follow ts : List Token) (a : α) : Prop :=
  ∀ rest, (∀ t ∈ follow, rest.head? ≠ some t) → read (ts ++ rest) = some (a, rest)

theorem Reads.map {ts : List Token} {a : α} (h : Reads read follow ts a) (f : α → β) :
    Reads (read.map f) follow ts (f a) := by
  intro rest hrest
  rw [Reader.map, h rest hrest]
  rfl

theorem Reads.closedBy {ts : List Token} {a : α} (h : Reads read follow ts a) (close : Token)
    (hclose : close ∉ follow) : Reads (closedBy close read) [] (ts ++ [close]) a := by
  intro rest _
  have hfollow : ∀ t ∈ follow, (close :: rest).head? ≠ some t := by
    rintro t ht ⟨⟩
    exact hclose ht
  rw [List.append_assoc, List.singleton_append, Reader.closedBy, h _ hfollow]
  simp

/-- The tokens are read as `a` in front of each rest that may follow. -/
def ReadsBefore (read : Reader α) (mayFollow : List Token → Prop) (ts : List Token) (a : α) :
    Prop :=
  ∀ rest, mayFollow rest → read (ts ++ rest) = some (a, rest)

/-- Items with separators between them, one at least. -/
inductive Separated (separator : Token) (Item : List Token → α → Prop) :
    List Token → List α → Prop
  | single {ts : List Token} {a : α} : Item ts a → Separated separator Item ts [a]
  | cons {ts us : List Token} {a : α} {as : List α} : Item ts a →
      Separated separator Item us as → Separated separator Item (ts ++ separator :: us) (a :: as)

namespace Separated
variable {separator : Token} {Item : List Token → α → Prop} {ts us : List Token} {as bs : List α}

theorem ne_nil (h : Separated separator Item ts as) : as ≠ [] := by
  cases h <;> simp

theorem length_le (h : Separated separator Item ts as) : as.length ≤ ts.length + 1 := by
  induction h with
  | single _ => simp
  | cons _ _ ih =>
    simp only [List.length_cons, List.length_append]
    omega

theorem mono {Item' : List Token → α → Prop} (hitem : ∀ ts a, Item ts a → Item' ts a)
    (h : Separated separator Item ts as) : Separated separator Item' ts as := by
  induction h with
  | single h => exact .single (hitem _ _ h)
  | cons h _ ih => exact .cons (hitem _ _ h) ih

theorem append (h : Separated separator Item ts as) (h' : Separated separator Item us bs) :
    Separated separator Item (ts ++ separator :: us) (as ++ bs) := by
  induction h with
  | single h => exact .cons h h'
  | cons h _ ih =>
    rw [List.append_assoc]
    exact .cons h ih

/-- What holds of the beginning of the first item holds of the beginning of all. -/
theorem begins {P : List Token → Prop} (hitem : ∀ ts a, Item ts a → P ts)
    (happend : ∀ ts us, P ts → P (ts ++ separator :: us)) (h : Separated separator Item ts as) :
    P ts := by
  cases h with
  | single h => exact hitem _ _ h
  | cons h _ => exact happend _ _ (hitem _ _ h)

theorem of_forall₂ (separator : Token) {tss : List (List Token)} (h : List.Forall₂ Item tss as)
    (hne : as ≠ []) :
    Separated separator Item (Token.joined separator tss) as := by
  induction h with
  | nil => exact (hne rfl).elim
  | cons hfirst hrest ih =>
    cases hrest with
    | nil =>
      rw [Token.joined_singleton]
      exact .single hfirst
    | cons _ _ =>
      rw [Token.joined_cons_cons]
      exact .cons hfirst (ih (by simp))

/-- What stands in front of the first item changes that item only. -/
theorem modifyHead {front : List Token} {f : α → α}
    (hitem : ∀ ts a, Item ts a → Item (front ++ ts) (f a)) (h : Separated separator Item ts as) :
    Separated separator Item (front ++ ts) (as.modifyHead f) := by
  cases h with
  | single h => exact .single (hitem _ _ h)
  | cons h hrest =>
    rw [← List.append_assoc]
    exact .cons (hitem _ _ h) hrest

theorem readsBefore {inner outer : List Token → Prop}
    (h : Separated separator (ReadsBefore read inner) ts as)
    (hseparator : ∀ rest, inner (separator :: rest))
    (hend : ∀ rest, outer rest → inner rest ∧ rest.head? ≠ some separator) :
    ReadsBefore (separated separator read) outer ts as := by
  intro rest hrest
  obtain ⟨hinner, hhead⟩ := hend rest hrest
  have hupTo : ∀ n, as.length ≤ n →
      separatedUpTo separator read n (ts ++ rest) = some (as, rest) := by
    induction h with
    | single h =>
      intro n hn
      obtain ⟨n, rfl⟩ := Nat.exists_eq_add_of_le' hn
      simp [separatedUpTo, h rest hinner, hhead]
    | @cons ts us a as h _ ih =>
      intro n hn
      obtain ⟨n, rfl⟩ : ∃ m, n = m + 1 := Nat.exists_eq_add_of_le' (by simp at hn; omega)
      have hlength : as.length ≤ n := by simpa using hn
      simp [separatedUpTo, h _ (hseparator _), ih n hlength]
  apply hupTo
  have hlength := h.length_le
  rw [List.length_append]
  omega

theorem reads (h : Separated separator (Reads read follow) ts as) (hfollow : separator ∉ follow) :
    Reads (separated separator read) (separator :: follow) ts as := by
  refine readsBefore h (fun rest t ht hhead => ?_) fun rest hrest => ?_
  · cases hhead
    exact hfollow ht
  · obtain ⟨hseparator, hrest⟩ := List.forall_mem_cons.mp hrest
    exact ⟨hrest, hseparator⟩

end Separated

def closers : List Token := [.mark ')', .mark ']', .mark '\x7d', .mark '>']

/-- The tokens that go on with a type. -/
def typeFollow : List Token := [.mark '|', .mark '&', .mark '<']

/-- An item of a list: it ends where a comma or a closing bracket follows, and no such bracket
begins it. -/
structure IsItem (read : Reader α) (ts : List Token) (a : α) : Prop where
  reads : Reads read typeFollow ts a
  begins : ∃ t, ts.head? = some t ∧ t ∉ closers

theorem head?_joined {tss : List (List Token)} {ts : List Token} {t : Token}
    (h : ts.head? = some t) (separator : Token) :
    (Token.joined separator (ts :: tss)).head? = some t := by
  cases tss with
  | nil => simpa using h
  | cons us tss => simp [h]

theorem reads_listed {tss : List (List Token)} {as : List α}
    (h : List.Forall₂ (IsItem read) tss as) (close : Token) (hclose : close ∈ closers) :
    Reads (listed close read) [] (Token.joined (.mark ',') tss ++ [close]) as := by
  have hitems : as ≠ [] → Reads (closedBy close (separated (.mark ',') read)) []
      (Token.joined (.mark ',') tss ++ [close]) as := by
    intro hne
    have hseparated := (Separated.of_forall₂ (.mark ',') h hne).mono
      fun _ _ hitem => hitem.reads
    refine (hseparated.reads (by decide)).closedBy close ?_
    rintro hmem
    have hnot : ∀ t ∈ Token.mark ',' :: typeFollow, t ∉ closers := by decide
    exact hnot close hmem hclose
  intro rest hrest
  rw [listed]
  cases h with
  | nil => simp
  | @cons ts a tss as hfirst _ =>
    obtain ⟨t, hhead, ht⟩ := hfirst.begins
    have hopen : (Token.joined (.mark ',') (ts :: tss) ++ [close] ++ rest).head? ≠ some close := by
      rw [List.append_assoc, List.head?_append, head?_joined hhead]
      rintro ⟨⟩
      exact ht hclose
    rw [if_neg hopen]
    exact hitems (by simp) rest hrest

end Reader

namespace TypeExpr
open Reader Token

/-- A type begins with a word, not with the name of a parameter, or with an opening bracket. -/
def Opens : List Token → Prop
  | .word _ :: ts => ts.head? ≠ some (.mark ':')
  | t :: _ => t ∈ [Token.mark '(', Token.mark '[', Token.mark '\x7b']
  | [] => False

theorem Opens.append {ts : List Token} (h : Opens ts) {t : Token} (ht : t ≠ .mark ':')
    (us : List Token) : Opens (ts ++ t :: us) := by
  match ts, h with
  | .word w :: [], _ => simpa [Opens] using ht
  | .word w :: t' :: ts, h => simpa [Opens] using h
  | .mark c :: ts, h => exact h
  | .arrow :: ts, h => exact h

theorem Opens.head? {ts : List Token} (h : Opens ts) :
    ∃ t, ts.head? = some t ∧ t ∉ closers := by
  match ts, h with
  | .word w :: ts, _ => exact ⟨_, rfl, by simp [closers]⟩
  | .mark c :: ts, h =>
    refine ⟨_, rfl, ?_⟩
    have hall : ∀ t ∈ [Token.mark '(', Token.mark '[', Token.mark '\x7b'], t ∉ closers := by decide
    exact hall _ h
  | .arrow :: ts, h => simp [Opens] at h

theorem Opens.beginsParameters {ts : List Token} (h : Opens ts) (rest : List Token)
    (hrest : rest.head? ≠ some (.mark ':')) : beginsParameters (ts ++ rest) = false := by
  match ts, h with
  | [.word w], _ =>
    cases rest with
    | nil => rfl
    | cons t rest =>
      have ht : t ≠ .mark ':' := by simpa using hrest
      simp [TypeExpr.beginsParameters, ht]
  | .word w :: t :: ts, h =>
    have ht : t ≠ .mark ':' := by simpa [Opens] using h
    simp [TypeExpr.beginsParameters, ht]
  | .mark c :: ts, h =>
    have hc : c ≠ ')' := by
      rintro rfl
      simp [Opens] at h
    simp [TypeExpr.beginsParameters, hc]
  | .arrow :: ts, h => simp [Opens] at h

/-- The tokens of an operand. -/
structure IsOperand (type : Reader TypeExpr) (ts : List Token) (t : TypeExpr) : Prop where
  reads : Reads (readOperand type) [.mark '<'] ts t
  opens : Opens ts
  notFunction : ∀ rest, beginsFunction (ts ++ rest) = false

structure IsType (type : Reader TypeExpr) (ts : List Token) (t : TypeExpr) : Prop where
  reads : Reads type typeFollow ts t
  opens : Opens ts

/-- The tokens of alternatives, each with its factors. -/
def IsTerms (type : Reader TypeExpr) : List Token → List (List TypeExpr) → Prop :=
  Separated (.mark '|') (Separated (.mark '&') (IsOperand type))

variable {type : Reader TypeExpr} {ts us : List Token} {t u : TypeExpr}
  {as bs : List (List TypeExpr)}

theorem IsType.isItem (h : IsType type ts t) : IsItem type ts t := ⟨h.reads, h.opens.head?⟩

theorem IsOperand.word (w : String) : IsOperand type [.word w] (literal w) := by
  refine ⟨?_, by simp [Opens], fun _ => rfl⟩
  intro rest hrest
  have hno := hrest (.mark '<') (by simp)
  cases rest with
  | nil => rfl
  | cons t rest =>
    have ht : t ≠ .mark '<' := by simpa using hno
    simp [readOperand, ht]

theorem IsOperand.applied (w : String) {arguments : List TypeExpr}
    (h : Separated (.mark ',') (IsType type) ts arguments) :
    IsOperand type (.word w :: .mark '<' :: ts ++ [.mark '>'])
      (.applied (literal w) arguments) := by
  refine ⟨?_, by simp [Opens], fun _ => rfl⟩
  have hlist := ((h.mono fun _ _ hitem => hitem.reads).reads (by decide)).closedBy
    (.mark '>') (by decide)
  intro rest _
  exact hlist.map (TypeExpr.applied (literal w)) rest (by simp)

theorem IsOperand.object {tss : List (List Token)} {members : List Member}
    (h : List.Forall₂ (IsItem (readMember type)) tss members) :
    IsOperand type (.mark '\x7b' :: joined (.mark ',') tss ++ [.mark '\x7d'])
      (.object members) := by
  refine ⟨?_, by simp [Opens], fun _ => rfl⟩
  intro rest _
  exact (reads_listed h (.mark '\x7d') (by decide)).map TypeExpr.object rest (by simp)

theorem IsOperand.tuple {tss : List (List Token)} {members : List TypeExpr}
    (h : List.Forall₂ (IsItem type) tss members) :
    IsOperand type (.mark '[' :: joined (.mark ',') tss ++ [.mark ']']) (.tuple members) := by
  refine ⟨?_, by simp [Opens], fun _ => rfl⟩
  intro rest _
  exact (reads_listed h (.mark ']') (by decide)).map TypeExpr.tuple rest (by simp)

theorem IsOperand.inParentheses (h : IsType type ts t) :
    IsOperand type (inParentheses ts) t := by
  refine ⟨?_, by simp [Opens, TypeExpr.inParentheses], ?_⟩
  · intro rest _
    exact h.reads.closedBy (.mark ')') (by decide) rest (by simp)
  · intro rest
    have hparameters := h.opens.beginsParameters (.mark ')' :: rest) (by simp)
    simpa [TypeExpr.inParentheses, beginsFunction] using hparameters

theorem IsTerms.operand (h : IsOperand type ts t) : IsTerms type ts [[t]] :=
  .single (.single h)

theorem IsTerms.bar (h : IsTerms type ts as) (h' : IsTerms type us bs) :
    IsTerms type (ts ++ .mark '|' :: us) (as ++ bs) :=
  Separated.append h h'

/-- Two lists of alternatives written with an ampersand between them: the last alternative of the
first list and the first one of the second become one. -/
def juxtapose : List (List TypeExpr) → List (List TypeExpr) → List (List TypeExpr)
  | [], bs => bs
  | [a], [] => [a]
  | [a], b :: bs => (a ++ b) :: bs
  | a :: a' :: as, bs => a :: juxtapose (a' :: as) bs

@[simp] theorem juxtapose_nil (as : List (List TypeExpr)) : juxtapose as [] = as := by
  induction as with
  | nil => rfl
  | cons a as ih =>
    cases as with
    | nil => rfl
    | cons a' as => rw [juxtapose, ih]

theorem juxtapose_cons (a : List TypeExpr) (h : as ≠ []) (bs : List (List TypeExpr)) :
    juxtapose (a :: as) bs = a :: juxtapose as bs := by
  cases as with
  | nil => exact (h rfl).elim
  | cons a' as => rfl

theorem separated_juxtapose {Item : List Token → TypeExpr → Prop}
    (h : Separated (.mark '|') (Separated (.mark '&') Item) ts as)
    (h' : Separated (.mark '|') (Separated (.mark '&') Item) us bs) :
    Separated (.mark '|') (Separated (.mark '&') Item) (ts ++ .mark '&' :: us)
      (juxtapose as bs) := by
  induction h with
  | single h =>
    cases h' with
    | single h' => exact .single (h.append h')
    | cons h' hrest =>
      rw [← List.cons_append, ← List.append_assoc]
      exact .cons (h.append h') hrest
  | cons h hrest ih =>
    rw [List.append_assoc, juxtapose_cons _ hrest.ne_nil]
    exact .cons h ih

theorem IsTerms.ampersand (h : IsTerms type ts as) (h' : IsTerms type us bs) :
    IsTerms type (ts ++ .mark '&' :: us) (juxtapose as bs) :=
  separated_juxtapose h h'

theorem IsTerms.opens (h : IsTerms type ts as) : Opens ts :=
  h.begins (fun _ _ hproduct => hproduct.begins (fun _ _ hoperand => hoperand.opens)
    fun _ us hts => hts.append (by decide) us) fun _ us hts => hts.append (by decide) us

theorem separated_notFunction {Item : List Token → TypeExpr → Prop}
    (hitem : ∀ ts t, Item ts t → ∀ rest, beginsFunction (ts ++ rest) = false)
    (h : Separated (.mark '|') (Separated (.mark '&') Item) ts as) :
    ∀ rest, beginsFunction (ts ++ rest) = false := by
  refine h.begins (fun _ _ hproduct => hproduct.begins hitem ?_) ?_
  all_goals
    intro ts us hts rest
    rw [List.append_assoc]
    exact hts _

theorem IsTerms.notFunction (h : IsTerms type ts as) (rest : List Token) :
    beginsFunction (ts ++ rest) = false :=
  separated_notFunction (fun _ _ hoperand => hoperand.notFunction) h rest

theorem IsTerms.isType {depth : Nat} (h : IsTerms (readType depth) ts as) :
    IsType (readType (depth + 1)) ts (ofTerms as) := by
  refine ⟨?_, h.opens⟩
  intro rest hrest
  rw [readType, h.notFunction rest]
  have hproducts := h.mono fun _ _ hproduct =>
    (hproduct.mono fun _ _ hoperand => hoperand.reads).reads (by decide)
  exact ((hproducts.reads (by decide)).map ofTerms) rest hrest

theorem isItem_member (name : String) (optional : Bool) (h : IsType type ts t) :
    IsItem (readMember type)
      (.word name :: (if optional then [.mark '?'] else []) ++ .mark ':' :: ts)
      ⟨name, t, optional⟩ := by
  refine ⟨?_, _, rfl, by simp [closers]⟩
  intro rest hrest
  cases optional with
  | true => exact h.reads.map (Member.mk name · true) rest hrest
  | false => exact h.reads.map (Member.mk name · false) rest hrest

theorem isItem_parameter (name : String) (h : IsType type ts t) :
    IsItem (readParameter type) (.word name :: .mark ':' :: ts) (name, t) := by
  refine ⟨?_, _, rfl, by simp [closers]⟩
  intro rest hrest
  exact h.reads.map (name, ·) rest hrest

theorem IsType.function {depth : Nat} {tss : List (List Token)}
    {parameters : List (String × TypeExpr)}
    (hparameters : List.Forall₂ (IsItem (readParameter (readType depth))) tss parameters)
    (hbegins : ∀ rest, beginsParameters (joined (.mark ',') tss ++ .mark ')' :: rest) = true)
    (h : IsType (readType depth) ts t) :
    IsType (readType (depth + 1)) (TypeExpr.inParentheses (joined (.mark ',') tss) ++ .arrow :: ts)
      (.function parameters t) := by
  refine ⟨?_, by simp [Opens, TypeExpr.inParentheses]⟩
  intro rest hrest
  have hlist := reads_listed hparameters (.mark ')') (by decide)
    (.arrow :: (ts ++ rest)) (by simp)
  have hresult := h.reads.map (TypeExpr.function parameters) rest hrest
  have htokens : TypeExpr.inParentheses (joined (.mark ',') tss) ++ .arrow :: ts ++ rest =
      .mark '(' :: (joined (.mark ',') tss ++ [.mark ')'] ++ .arrow :: (ts ++ rest)) := by
    simp [TypeExpr.inParentheses]
  have hfunction : beginsFunction (.mark '(' :: (joined (.mark ',') tss ++ [.mark ')'] ++
      .arrow :: (ts ++ rest))) = true := by
    rw [List.append_assoc]
    exact hbegins _
  rw [htokens, readType, if_pos hfunction, List.tail_cons, hlist]
  exact hresult

end TypeExpr

end TypeScriptComposer
