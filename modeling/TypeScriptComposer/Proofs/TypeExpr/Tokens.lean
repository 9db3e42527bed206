import TypeScriptComposer.Proofs.TypeExpr.Induction
import TypeScriptComposer.Proofs.TypeExpr.Spelling

/-!
# Types as tokens

A type is read as TypeScript reads it, from tokens: words, and marks that stand for themselves.
Blanks only separate. When the names in a type are words, the tokens of its text follow from the
type alone, part by part.
-/

set_option autoImplicit false

namespace TypeScriptComposer

inductive Token where
  /-- An identifier, or several with dots between them. -/
  | word (s : String)
  | mark (c : Char)
  /-- The mark between the parameters and the result of a function type. -/
  | arrow
  deriving DecidableEq

def continuesWord (c : Char) : Bool := continuesIdentifier c || c == '.'

def isWord (s : String) : Bool := !s.isEmpty && s.toList.all continuesWord

namespace Token

def ofWord (word : List Char) : List Token :=
  if word.isEmpty then [] else [.word (String.ofList word)]

/-- The tokens of a text; `word` is the word that has begun in front of it. -/
def scan (word : List Char) : List Char → List Token
  | [] => ofWord word
  | '=' :: '>' :: cs => ofWord word ++ .arrow :: scan [] cs
  | c :: cs =>
    if continuesWord c then scan (word ++ [c]) cs
    else if c == ' ' then ofWord word ++ scan [] cs
    else ofWord word ++ .mark c :: scan [] cs

/-- A word does not go on with the text. -/
def Breaks (cs : List Char) : Prop := ∀ c, cs.head? = some c → continuesWord c = false

theorem scan_of_continues {word cs : List Char} {c : Char} (h : continuesWord c = true) :
    scan word (c :: cs) = scan (word ++ [c]) cs := by
  have hne : c ≠ '=' := by
    rintro rfl
    exact absurd h (by decide)
  rw [scan, if_pos h]
  exact fun _ hc _ => hne hc

/-- Characters that are tokens by themselves. -/
def isMark (c : Char) : Bool := !continuesWord c && c != ' ' && c != '='

theorem scan_mark {c : Char} (h : isMark c = true) (word cs : List Char) :
    scan word (c :: cs) = ofWord word ++ .mark c :: scan [] cs := by
  simp only [isMark, Bool.and_eq_true, Bool.not_eq_true', bne_iff_ne] at h
  obtain ⟨⟨hword, hblank⟩, harrow⟩ := h
  rw [scan, if_neg (by simp [hword]), if_neg (by simpa using hblank)]
  exact fun _ hc _ => harrow hc

theorem scan_blank (word cs : List Char) : scan word (' ' :: cs) = ofWord word ++ scan [] cs := by
  rw [scan]
  · rfl
  · exact fun _ hc _ => absurd hc (by decide)

theorem scan_of_breaks {word cs : List Char} (h : Breaks cs) :
    scan word cs = ofWord word ++ scan [] cs := by
  rw [scan.eq_def word, scan.eq_def []]
  split
  · simp [ofWord]
  · simp [ofWord]
  · rename_i c cs _
    have hc : continuesWord c = false := h c rfl
    simp only [hc, Bool.false_eq_true, if_false]
    split <;> simp [ofWord]

theorem scan_append_of_all {word cs rest : List Char} (h : ∀ c ∈ cs, continuesWord c = true) :
    scan word (cs ++ rest) = scan (word ++ cs) rest := by
  induction cs generalizing word with
  | nil => simp
  | cons c cs ih =>
    obtain ⟨hc, hcs⟩ := List.forall_mem_cons.mp h
    rw [List.cons_append, scan_of_continues hc, ih hcs, List.append_assoc]
    rfl

/-- The text has these tokens, whatever follows it. -/
def Scans (text : List Char) (ts : List Token) : Prop :=
  ∀ rest, Breaks rest → scan [] (text ++ rest) = ts ++ scan [] rest

theorem Scans.nil : Scans [] [] := fun _ _ => rfl

theorem Scans.word {s : String} (h : isWord s = true) : Scans s.toList [.word s] := by
  obtain ⟨hne, hall⟩ := (Bool.and_eq_true _ _).mp h
  have hempty : s.toList.isEmpty = false := by simpa using hne
  intro rest hrest
  rw [scan_append_of_all (List.all_eq_true.mp hall), scan_of_breaks hrest, List.nil_append, ofWord,
    hempty, String.ofList_toList]
  rfl

theorem breaks_cons {c : Char} (h : continuesWord c = false) (cs : List Char) :
    Breaks (c :: cs) := by
  rintro _ ⟨⟩
  exact h

theorem Breaks.of_isMark {c : Char} (h : isMark c = true) (cs : List Char) : Breaks (c :: cs) := by
  simp only [isMark, Bool.and_eq_true, Bool.not_eq_true'] at h
  exact breaks_cons h.1.1 cs

theorem Scans.append {a b : List Char} {ts us : List Token} (ha : Scans a ts) (hb : Scans b us)
    (hbreaks : ∀ rest, Breaks (b ++ rest)) : Scans (a ++ b) (ts ++ us) := by
  intro rest hrest
  rw [List.append_assoc, ha _ (hbreaks rest), hb rest hrest, List.append_assoc]

theorem Scans.mark_cons {c : Char} (h : isMark c = true) {text : List Char} {ts : List Token}
    (htext : Scans text ts) : Scans (c :: text) (.mark c :: ts) := by
  intro rest hrest
  rw [List.cons_append, scan_mark h, htext rest hrest]
  rfl

theorem Scans.blank_cons {text : List Char} {ts : List Token} (htext : Scans text ts) :
    Scans (' ' :: text) ts := by
  intro rest hrest
  rw [List.cons_append, scan_blank, htext rest hrest]
  rfl

theorem Scans.append_mark {c : Char} (h : isMark c = true) {a b : List Char} {ts us : List Token}
    (ha : Scans a ts) (hb : Scans b us) : Scans (a ++ c :: b) (ts ++ .mark c :: us) :=
  ha.append (.mark_cons h hb) fun rest => .of_isMark h (b ++ rest)

theorem Scans.append_blank {a b : List Char} {ts us : List Token} (ha : Scans a ts)
    (hb : Scans b us) : Scans (a ++ ' ' :: b) (ts ++ us) :=
  ha.append (.blank_cons hb) fun rest => breaks_cons (by decide) (b ++ rest)

theorem Scans.arrow_cons {text : List Char} {ts : List Token} (htext : Scans text ts) :
    Scans ('=' :: '>' :: text) (.arrow :: ts) := by
  intro rest hrest
  rw [List.cons_append, List.cons_append, scan, htext rest hrest]
  rfl

/-- The tokens of several types, with a mark between two of them. -/
def joined (separator : Token) (tss : List (List Token)) : List Token :=
  [separator].intercalate tss

@[simp] theorem joined_nil (separator : Token) : joined separator [] = [] := rfl

@[simp] theorem joined_singleton (separator : Token) (ts : List Token) :
    joined separator [ts] = ts := List.intercalate_singleton

@[simp] theorem joined_cons_cons (separator : Token) (ts us : List Token)
    (tss : List (List Token)) : joined separator (ts :: us :: tss) =
      ts ++ separator :: joined separator (us :: tss) := by
  simp [joined, List.intercalate_cons_cons]

/-- Separators are a mark with a blank behind it, or between two blanks. -/
theorem Scans.joined (c : Char) (separator : String) (hc : isMark c = true)
    (hseparator : separator.toList = [c, ' '] ∨ separator.toList = [' ', c, ' '])
    {texts : List String} {tss : List (List Token)}
    (h : List.Forall₂ (fun s ts => Scans s.toList ts) texts tss) :
    Scans (separator.intercalate texts).toList (joined (.mark c) tss) := by
  induction h with
  | nil => exact .nil
  | @cons s ts texts tss hfirst hrest ih =>
    cases hrest with
    | nil => simpa using hfirst
    | cons _ _ =>
      rw [String.intercalate_cons_cons, joined_cons_cons, String.toList_append,
        String.toList_append, List.append_assoc]
      rcases hseparator with hsep | hsep
      · rw [hsep]
        exact hfirst.append_mark hc (.blank_cons ih)
      · rw [hsep]
        exact hfirst.append_blank (.mark_cons hc (.blank_cons ih))

end Token

open Token

/-- What a use of a symbol is printed as. Without a symbol it is printed as it is. -/
def printedName (name : Symbol → String) (usage : String) : Option Symbol → String
  | none => usage
  | some s => useAs (name s) s.value usage

namespace TypeExpr
variable (name : Symbol → String)

theorem spell_named (usage : String) (s : Option Symbol) :
    (TypeExpr.named usage s).spell name = printedName name usage s := by
  cases s <;> rfl

def isName : TypeExpr → Bool
  | .named .. => true
  | _ => false

def inParentheses (ts : List Token) : List Token := .mark '(' :: ts ++ [.mark ')']

mutual

/-- The tokens of a type whose symbols have the names that `name` gives. -/
def tokens : TypeExpr → List Token
  | .named usage s => [.word (printedName name usage s)]
  | .applied base arguments =>
    if arguments.isEmpty then tokens base
    else tokens base ++ .mark '<' ::
      joined (.mark ',') (tokensOfAll (fun _ => false) arguments) ++ [.mark '>']
  | .typeVar ⟨parameter, _⟩ => [.word parameter]
  | .object members =>
    .mark '\x7b' :: joined (.mark ',') (tokensOfMembers members) ++ [.mark '\x7d']
  | .tuple members =>
    .mark '[' :: joined (.mark ',') (tokensOfAll (fun _ => false) members) ++ [.mark ']']
  | .intersection members =>
    if members.isEmpty then [.word "unknown"]
    else joined (.mark '&') (tokensOfAll loosens members)
  | .union members =>
    if members.isEmpty then [.word "never"]
    else joined (.mark '|') (tokensOfAll isFunction members)
  | .function parameters returns =>
    inParentheses (joined (.mark ',') (tokensOfParameters parameters)) ++ .arrow :: tokens returns

def tokensOfAll (wraps : TypeExpr → Bool) : List TypeExpr → List (List Token)
  | [] => []
  | t :: ts => (if wraps t then inParentheses (tokens t) else tokens t) :: tokensOfAll wraps ts

def tokensOfMembers : List Member → List (List Token)
  | [] => []
  | ⟨member, type, optional⟩ :: ms =>
    (.word member :: (if optional then [.mark '?'] else []) ++ .mark ':' :: tokens type) ::
      tokensOfMembers ms

def tokensOfParameters : List (String × TypeExpr) → List (List Token)
  | [] => []
  | (parameter, type) :: ps =>
    (.word parameter :: .mark ':' :: tokens type) :: tokensOfParameters ps

end

mutual

/-- Whether the names in a printed type are words, and only names have arguments. -/
def isPlain : TypeExpr → Bool
  | .named usage s => isWord (printedName name usage s)
  | .applied base arguments => base.isName && isPlain base && arePlain arguments
  | .typeVar ⟨parameter, _⟩ => isWord parameter
  | .object members => membersPlain members
  | .tuple members | .intersection members | .union members => arePlain members
  | .function parameters returns => parametersPlain parameters && isPlain returns

def arePlain : List TypeExpr → Bool
  | [] => true
  | t :: ts => isPlain t && arePlain ts

def membersPlain : List Member → Bool
  | [] => true
  | ⟨member, type, _⟩ :: ms => isWord member && isPlain type && membersPlain ms

def parametersPlain : List (String × TypeExpr) → Bool
  | [] => true
  | (parameter, type) :: ps => isWord parameter && isPlain type && parametersPlain ps

end

theorem spellAll_eq_map (wraps : TypeExpr → Bool) (ts : List TypeExpr) :
    spellAll name wraps ts =
      ts.map fun t => if wraps t then parenthesized (t.spell name) else t.spell name := by
  induction ts with
  | nil => rfl
  | cons t ts ih => rw [spellAll, ih, List.map_cons]

theorem spellMembers_eq_map (ms : List Member) : spellMembers name ms =
    ms.map fun m => m.name ++ (if m.optional then "?" else "") ++ ": " ++ m.type.spell name := by
  induction ms with
  | nil => rfl
  | cons m ms ih =>
    obtain ⟨member, type, optional⟩ := m
    rw [spellMembers, ih, List.map_cons]

theorem spellParameters_eq_map (ps : List (String × TypeExpr)) :
    spellParameters name ps = ps.map fun p => p.1 ++ ": " ++ p.2.spell name := by
  induction ps with
  | nil => rfl
  | cons p ps ih => rw [spellParameters, ih, List.map_cons]

theorem tokensOfAll_eq_map (wraps : TypeExpr → Bool) (ts : List TypeExpr) :
    tokensOfAll name wraps ts =
      ts.map fun t => if wraps t then inParentheses (t.tokens name) else t.tokens name := by
  induction ts with
  | nil => rfl
  | cons t ts ih => rw [tokensOfAll, ih, List.map_cons]

theorem tokensOfMembers_eq_map (ms : List Member) : tokensOfMembers name ms =
    ms.map fun m => .word m.name :: (if m.optional then [.mark '?'] else []) ++
      .mark ':' :: m.type.tokens name := by
  induction ms with
  | nil => rfl
  | cons m ms ih =>
    obtain ⟨member, type, optional⟩ := m
    rw [tokensOfMembers, ih, List.map_cons]

theorem tokensOfParameters_eq_map (ps : List (String × TypeExpr)) :
    tokensOfParameters name ps =
      ps.map fun p => .word p.1 :: .mark ':' :: p.2.tokens name := by
  induction ps with
  | nil => rfl
  | cons p ps ih => rw [tokensOfParameters, ih, List.map_cons]

theorem arePlain_iff (ts : List TypeExpr) :
    arePlain name ts = true ↔ ∀ t ∈ ts, t.isPlain name = true := by
  induction ts with
  | nil => simp [arePlain]
  | cons t ts ih => simp [arePlain, ih]

theorem membersPlain_iff (ms : List Member) : membersPlain name ms = true ↔
    ∀ m ∈ ms, isWord m.name = true ∧ m.type.isPlain name = true := by
  induction ms with
  | nil => simp [membersPlain]
  | cons m ms ih =>
    obtain ⟨member, type, optional⟩ := m
    simp [membersPlain, ih]

theorem parametersPlain_iff (ps : List (String × TypeExpr)) : parametersPlain name ps = true ↔
    ∀ p ∈ ps, isWord p.1 = true ∧ p.2.isPlain name = true := by
  induction ps with
  | nil => simp [parametersPlain]
  | cons p ps ih =>
    obtain ⟨parameter, type⟩ := p
    simp [parametersPlain, ih]

variable {name}

/-- The text of a type has the tokens of the type. -/
def TextScans (name : Symbol → String) (t : TypeExpr) : Prop :=
  Scans (t.spell name).toList (t.tokens name)

theorem scans_inParentheses {text : String} {ts : List Token} (h : Scans text.toList ts) :
    Scans (parenthesized text).toList (inParentheses ts) := by
  rw [parenthesized, String.toList_append, String.toList_append]
  exact .mark_cons (c := '(') rfl (h.append_mark (c := ')') rfl .nil)

theorem scans_parameter {parameter : String} (hword : isWord parameter = true) {text : String}
    {ts : List Token} (h : Scans text.toList ts) :
    Scans (parameter ++ ": " ++ text).toList (.word parameter :: .mark ':' :: ts) := by
  rw [String.toList_append, String.toList_append, List.append_assoc]
  exact (Scans.word hword).append_mark (c := ':') rfl (.blank_cons h)

theorem scans_optionalMember {member : String} (hword : isWord member = true) {text : String}
    {ts : List Token} (h : Scans text.toList ts) :
    Scans (member ++ "?" ++ ": " ++ text).toList
      (.word member :: .mark '?' :: .mark ':' :: ts) := by
  rw [String.toList_append, String.toList_append, String.toList_append, List.append_assoc,
    List.append_assoc]
  exact (Scans.word hword).append_mark (c := '?') rfl (.mark_cons (c := ':') rfl (.blank_cons h))

theorem scans_spellAll (wraps : TypeExpr → Bool) {ts : List TypeExpr}
    (h : ∀ t ∈ ts, TextScans name t) : List.Forall₂ (fun s ts => Scans s.toList ts)
      (spellAll name wraps ts) (tokensOfAll name wraps ts) := by
  rw [spellAll_eq_map, tokensOfAll_eq_map, forall₂_map_iff]
  intro t ht
  split
  · exact scans_inParentheses (h t ht)
  · exact h t ht

theorem scans_spellMembers {ms : List Member}
    (h : ∀ m ∈ ms, isWord m.name = true ∧ TextScans name m.type) :
    List.Forall₂ (fun s ts => Scans s.toList ts)
      (spellMembers name ms) (tokensOfMembers name ms) := by
  rw [spellMembers_eq_map, tokensOfMembers_eq_map, forall₂_map_iff]
  intro m hm
  obtain ⟨hword, htype⟩ := h m hm
  split
  · exact scans_optionalMember hword htype
  · simpa using scans_parameter hword htype

theorem scans_spellParameters {ps : List (String × TypeExpr)}
    (h : ∀ p ∈ ps, isWord p.1 = true ∧ TextScans name p.2) :
    List.Forall₂ (fun s ts => Scans s.toList ts)
      (spellParameters name ps) (tokensOfParameters name ps) := by
  rw [spellParameters_eq_map, tokensOfParameters_eq_map, forall₂_map_iff]
  intro p hp
  exact scans_parameter (h p hp).1 (h p hp).2

theorem textScans (t : TypeExpr) (h : t.isPlain name = true) : TextScans name t := by
  unfold TextScans
  induction t using TypeExpr.induction with
  | named usage s =>
    rw [spell_named]
    exact .word h
  | applied base arguments ihbase ih =>
    simp only [isPlain, Bool.and_eq_true, arePlain_iff] at h
    obtain ⟨⟨-, hbase⟩, harguments⟩ := h
    have hhead := ihbase hbase
    have hlist := Scans.joined ',' ", " rfl (.inl rfl)
      (scans_spellAll (fun _ => false) fun t ht => ih t ht (harguments t ht))
    rw [spell, tokens]
    split
    · exact hhead
    · have htext := hhead.append_mark (c := '<') rfl (hlist.append_mark (c := '>') rfl .nil)
      simpa [List.append_assoc] using htext
  | typeVar v =>
    obtain ⟨parameter, bounds⟩ := v
    exact .word h
  | object members ih =>
    rw [isPlain, membersPlain_iff] at h
    have hlist := Scans.joined ',' ", " rfl (.inl rfl)
      (scans_spellMembers fun m hm => ⟨(h m hm).1, ih m hm (h m hm).2⟩)
    rw [spell, tokens]
    split
    · rename_i hempty
      rw [List.isEmpty_iff.mp hempty]
      exact .mark_cons rfl (.mark_cons rfl .nil)
    · rw [braced, String.toList_append, String.toList_append]
      exact .mark_cons rfl (.blank_cons (hlist.append_blank (.mark_cons (c := '\x7d') rfl .nil)))
  | tuple members ih =>
    rw [isPlain, arePlain_iff] at h
    have hlist := Scans.joined ',' ", " rfl (.inl rfl)
      (scans_spellAll (fun _ => false) fun t ht => ih t ht (h t ht))
    rw [spell, tokens, String.toList_append, String.toList_append]
    exact .mark_cons rfl (hlist.append_mark (c := ']') rfl .nil)
  | intersection members ih =>
    rw [isPlain, arePlain_iff] at h
    rw [spell, tokens]
    split
    · exact .word rfl
    · exact .joined '&' " & " rfl (.inr rfl) (scans_spellAll loosens fun t ht => ih t ht (h t ht))
  | union members ih =>
    rw [isPlain, arePlain_iff] at h
    rw [spell, tokens]
    split
    · exact .word rfl
    · exact .joined '|' " | " rfl (.inr rfl)
        (scans_spellAll isFunction fun t ht => ih t ht (h t ht))
  | function parameters returns ih ihreturns =>
    simp only [isPlain, Bool.and_eq_true, parametersPlain_iff] at h
    have hlist := Scans.joined ',' ", " rfl (.inl rfl)
      (scans_spellParameters fun p hp => ⟨(h.1 p hp).1, ih p hp (h.1 p hp).2⟩)
    rw [spell, tokens, String.toList_append, String.toList_append, List.append_assoc]
    exact (scans_inParentheses hlist).append_blank
      (.arrow_cons (.blank_cons (ihreturns h.2)))

theorem scan_spell {t : TypeExpr} (h : t.isPlain name = true) :
    scan [] (t.spell name).toList = t.tokens name := by
  simpa [scan, ofWord] using textScans t h [] (by simp [Breaks])

end TypeExpr

end TypeScriptComposer
