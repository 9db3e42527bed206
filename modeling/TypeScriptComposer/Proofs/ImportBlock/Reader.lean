import TypeScriptComposer.Proofs.ImportBlock.Tokens

/-!
# Reading import statements

The words `type`, `as` and `from` are also names that can be imported, so TypeScript looks ahead to
tell which they are. In front of `from` and a string, `type` is a default import; in front of
another name, a star or a brace it marks the statement. Between braces, the number of words decides:
`type as` imports `as` as a type, and `type as as` imports `type` under the name `as`.

Statements that name no import of the forms of `ImportClause` are not read, nor are comments.
-/

set_option autoImplicit false

namespace TypeScriptComposer

namespace Lexicon
variable (x : Lexicon) (strings : StringState)

/-- The import that the words between two commas make. -/
def readItem : List String → Option ImportItem
  | [n] => if x.binds n then some ⟨n, n, false⟩ else none
  | [t, n] => if t = "type" ∧ x.binds n then some ⟨n, n, true⟩ else none
  | [n, a, l] => if a = "as" ∧ x.isName n ∧ x.binds l then some ⟨n, l, false⟩ else none
  | [t, n, a, l] =>
    if t = "type" ∧ a = "as" ∧ x.isName n ∧ x.binds l then some ⟨n, l, true⟩ else none
  | _ => none

/-- The imports up to the closing brace, with what is behind it; `words` are those of the import
that has begun. -/
def readItems : List String → List ImportToken → Option (List ImportItem × List ImportToken)
  | words, .word w :: ts => readItems (words ++ [w]) ts
  | words, .mark ',' :: ts =>
    match x.readItem words, readItems [] ts with
    | some i, some (is, rest) => some (i :: is, rest)
    | _, _ => none
  | words, .mark '\x7d' :: ts =>
    if words.isEmpty then some ([], ts) else (x.readItem words).map fun i => ([i], ts)
  | _, _ => none

/-- Whether `type` marks the statement, in front of these tokens. -/
def leadsType : List ImportToken → Bool
  | .mark c :: _ => c == '*' || c == '\x7b'
  | .word w :: ts => w != "from" || ts.head? == some (.word "from")
  | _ => false

def readBindings (marked : Bool) : List ImportToken → Option (ImportClause × List ImportToken)
  | .mark '*' :: .word a :: .word l :: ts =>
    if a = "as" ∧ x.binds l then some (.star marked l, ts) else none
  | .mark '\x7b' :: ts => (x.readItems [] ts).map fun (is, rest) => (.named marked is, rest)
  | .word l :: .mark ',' :: .mark '\x7b' :: ts =>
    if marked = false ∧ x.binds l then
      (x.readItems [] ts).map fun (is, rest) => (.defaultAndNamed l is, rest)
    else none
  | .word l :: ts => if x.binds l then some (.default marked l, ts) else none
  | _ => none

def readClause : List ImportToken → Option (ImportClause × List ImportToken)
  | .word w :: ts =>
    if w = "type" ∧ leadsType ts then x.readBindings true ts
    else x.readBindings false (.word w :: ts)
  | ts => x.readBindings false ts

/-- The string of a statement, behind `import`. -/
def readBare : List ImportToken → Option String
  | [.string m, .mark ';'] => some m
  | _ => none

/-- The string of a statement, behind a clause. -/
def readFrom : List ImportToken → Option String
  | .word w :: ts => if w = "from" then readBare ts else none
  | _ => none

def readStatement : List ImportToken → Option ImportStatement
  | .word w :: ts =>
    if w = "import" then
      match x.readClause ts with
      | some (clause, rest) => (readFrom rest).map (⟨clause, ·⟩)
      | none => (readBare ts).map (⟨.nothing, ·⟩)
    else none
  | _ => none

/-- The statement that a text is read as. -/
def read (text : String) : Option ImportStatement := (x.tokens strings text).bind x.readStatement

end Lexicon

namespace ImportItem

def words (i : ImportItem) : List String :=
  (if i.typeOnly then ["type"] else []) ++
    if i.localName = i.name then [i.name] else [i.name, "as", i.localName]

/-- The tokens of imports in braces, behind the opening one. -/
def tokensOfAll : List ImportItem → List ImportToken
  | [] => [.mark '\x7d']
  | [i] => i.words.map .word ++ [.mark '\x7d']
  | i :: j :: is => i.words.map .word ++ .mark ',' :: tokensOfAll (j :: is)

end ImportItem

namespace ImportClause

def markTokens (typeOnly : Bool) : List ImportToken := if typeOnly then [.word "type"] else []

/-- The tokens of a clause, those of `from` not included. -/
def tokens : ImportClause → List ImportToken
  | .nothing => []
  | .star typeOnly l => markTokens typeOnly ++ [.mark '*', .word "as", .word l]
  | .default typeOnly l => markTokens typeOnly ++ [.word l]
  | .named typeOnly items => markTokens typeOnly ++ .mark '\x7b' :: ImportItem.tokensOfAll items
  | .defaultAndNamed l items => .word l :: .mark ',' :: .mark '\x7b' :: ImportItem.tokensOfAll items

/-- The tokens of a statement up to its string. -/
def leadTokens : ImportClause → List ImportToken
  | .nothing => [.word "import"]
  | clause => .word "import" :: clause.tokens ++ [.word "from"]

theorem leadTokens_of_ne {clause : ImportClause} (h : clause ≠ .nothing) :
    clause.leadTokens = .word "import" :: clause.tokens ++ [.word "from"] := by
  cases clause with
  | nothing => exact (h rfl).elim
  | _ => rfl

/-- The names of a clause are identifiers, and those that it binds can be bound. -/
def Admits (x : Lexicon) : ImportClause → Prop
  | .nothing => True
  | .star _ l | .default _ l => x.binds l = true
  | .named _ items => ∀ i ∈ items, x.isName i.name = true ∧ x.binds i.localName = true
  | .defaultAndNamed l items => x.binds l = true ∧
      ∀ i ∈ items, x.isName i.name = true ∧ x.binds i.localName = true

end ImportClause

namespace Lexicon
variable {x : Lexicon} {strings : StringState}

theorem isName_of_binds {s : String} (h : x.binds s = true) : x.isName s = true :=
  ((Bool.and_eq_true _ _).mp h).1

theorem isName_type : x.isName "type" = true := isName_of_isIdentifier (by decide) x

theorem isName_as : x.isName "as" = true := isName_of_isIdentifier (by decide) x

theorem readItem_words {i : ImportItem} (hname : x.isName i.name = true)
    (hlocal : x.binds i.localName = true) : x.readItem i.words = some i := by
  obtain ⟨n, l, typeOnly⟩ := i
  by_cases hsame : l = n
  · subst l
    cases typeOnly <;> simp [ImportItem.words, readItem, hlocal]
  · cases typeOnly <;> simp [ImportItem.words, hsame, readItem, hname, hlocal]

theorem readItems_words (words begun : List String) (ts : List ImportToken) :
    x.readItems begun (words.map .word ++ ts) = x.readItems (begun ++ words) ts := by
  induction words generalizing begun with
  | nil => simp
  | cons w words ih =>
    rw [List.map_cons, List.cons_append, readItems, ih, List.append_assoc]
    rfl

theorem words_ne_nil (i : ImportItem) : i.words ≠ [] := by
  unfold ImportItem.words
  split <;> split <;> simp

theorem readItems_tokensOfAll {items : List ImportItem}
    (h : ∀ i ∈ items, x.isName i.name = true ∧ x.binds i.localName = true)
    (rest : List ImportToken) :
    x.readItems [] (ImportItem.tokensOfAll items ++ rest) = some (items, rest) := by
  induction items with
  | nil => simp [ImportItem.tokensOfAll, readItems]
  | cons i items ih =>
    obtain ⟨⟨hname, hlocal⟩, hitems⟩ := List.forall_mem_cons.mp h
    have hi := readItem_words hname hlocal
    cases items with
    | nil =>
      rw [ImportItem.tokensOfAll, List.append_assoc, readItems_words]
      simp [readItems, words_ne_nil i, hi]
    | cons j items =>
      rw [ImportItem.tokensOfAll, List.append_assoc, readItems_words, List.nil_append,
        List.cons_append, readItems, hi, ih hitems]

/-- A clause is read from its tokens, in front of `from` and a string. -/
theorem readClause_tokens {clause : ImportClause} (h : clause.Admits x) (hne : clause ≠ .nothing)
    (m : String) (rest : List ImportToken) :
    let from? := .word "from" :: .string m :: rest
    x.readClause (clause.tokens ++ from?) = some (clause, from?) := by
  intro from?
  cases clause with
  | nothing => exact (hne rfl).elim
  | star typeOnly l =>
    have hl : x.binds l = true := h
    cases typeOnly <;>
      simp [ImportClause.tokens, ImportClause.markTokens, readClause, leadsType, readBindings, hl]
  | default typeOnly l =>
    have hl : x.binds l = true := h
    -- in front of `from` the name may be any of the words that the reader looks for
    cases typeOnly with
    | false =>
      have hleads : leadsType from? = false := by simp [from?, leadsType]
      simp [ImportClause.tokens, ImportClause.markTokens, readClause, hleads, readBindings, hl,
        from?]
    | true =>
      have hleads : leadsType (.word l :: from?) = true := by simp [from?, leadsType]
      simp [ImportClause.tokens, ImportClause.markTokens, readClause, hleads, readBindings, hl,
        from?]
  | named typeOnly items =>
    have hitems := readItems_tokensOfAll h from?
    cases typeOnly <;>
      simp [ImportClause.tokens, ImportClause.markTokens, readClause, leadsType, readBindings,
        hitems]
  | defaultAndNamed l items =>
    obtain ⟨hl, h⟩ := h
    have hitems := readItems_tokensOfAll h from?
    simp [ImportClause.tokens, readClause, leadsType, readBindings, hl, hitems]

theorem readStatement_tokens {clause : ImportClause} (h : clause.Admits x) (m : String) :
    x.readStatement (clause.leadTokens ++ [.string m, .mark ';']) = some ⟨clause, m⟩ := by
  by_cases hne : clause = .nothing
  · subst clause
    rfl
  · have hclause := readClause_tokens h hne m [.mark ';']
    simp only at hclause
    rw [ImportClause.leadTokens_of_ne hne, List.cons_append, List.cons_append, List.append_assoc,
      List.singleton_append, readStatement, hclause]
    rfl

theorem Scans.word_blank {s : String} (hs : x.isName s = true) {text : List Char}
    {ts : List ImportToken} (h : x.Scans strings text ts) :
    x.Scans strings (s.toList ++ ' ' :: text) (.word s :: ts) :=
  .word_append hs (continuesName_eq_false rfl (by decide) x) (.blank_cons h)

theorem Scans.item {i : ImportItem} (hname : x.isName i.name = true)
    (hlocal : x.binds i.localName = true) {c : Char} {text : List Char} {ts : List ImportToken}
    (hc : x.continuesName c = false) (h : x.Scans strings (c :: text) ts) :
    x.Scans strings (i.text.toList ++ c :: text) (i.words.map .word ++ ts) := by
  have hplain : x.Scans strings
      ((if i.localName = i.name then i.name else i.name ++ " as " ++ i.localName).toList ++
        c :: text)
      ((if i.localName = i.name then [i.name] else [i.name, "as", i.localName]).map .word ++
        ts) := by
    split
    · exact .word_append hname hc h
    · rw [String.toList_append, String.toList_append, List.append_assoc, List.append_assoc]
      exact .word_blank hname (.word_blank isName_as (.word_append (isName_of_binds hlocal) hc h))
  rw [ImportItem.text, ImportItem.words, String.toList_append, List.append_assoc, List.map_append,
    List.append_assoc]
  split
  · exact .word_blank isName_type hplain
  · exact hplain

theorem Scans.items {items : List ImportItem}
    (h : ∀ i ∈ items, x.isName i.name = true ∧ x.binds i.localName = true) :
    x.Scans strings ((", ".intercalate (items.map (·.text))).toList ++ " \x7d".toList)
      (ImportItem.tokensOfAll items) := by
  induction items with
  | nil => exact .blank_cons (.mark_cons rfl .nil)
  | cons i items ih =>
    obtain ⟨⟨hname, hlocal⟩, hitems⟩ := List.forall_mem_cons.mp h
    cases items with
    | nil =>
      rw [List.map_cons, List.map_nil, String.intercalate_singleton]
      exact .item hname hlocal (continuesName_eq_false rfl (by decide) x)
        (.blank_cons (.mark_cons rfl .nil))
    | cons j items =>
      rw [List.map_cons, List.map_cons, String.intercalate_cons_cons, String.toList_append,
        String.toList_append, List.append_assoc, List.append_assoc]
      exact .item hname hlocal (continuesName_eq_false rfl (by decide) x)
        (.mark_cons rfl (.blank_cons (ih hitems)))

theorem Scans.braced {items : List ImportItem}
    (h : ∀ i ∈ items, x.isName i.name = true ∧ x.binds i.localName = true) :
    x.Scans strings (braced (items.map (·.text))).toList
      (.mark '\x7b' :: ImportItem.tokensOfAll items) := by
  rw [TypeScriptComposer.braced, String.toList_append, String.toList_append, List.append_assoc]
  exact .mark_cons rfl (.blank_cons (.items h))

theorem Scans.typeMark (typeOnly : Bool) :
    x.Scans strings (ImportClause.typeMark typeOnly).toList (ImportClause.markTokens typeOnly) := by
  cases typeOnly with
  | false => exact .nil
  | true => exact .word_blank isName_type .nil

theorem isName_from : x.isName "from" = true := isName_of_isIdentifier (by decide) x

theorem Scans.from : x.Scans strings " from ".toList [.word "from"] :=
  .blank_cons (.word_blank isName_from .nil)

theorem isName_import : x.isName "import" = true := isName_of_isIdentifier (by decide) x

theorem Scans.lead {clause : ImportClause} (h : clause.Admits x) :
    x.Scans strings ("import " ++ clause.text).toList clause.leadTokens := by
  have himport {text : List Char} {ts : List ImportToken} (htext : x.Scans strings text ts) :
      x.Scans strings ("import ".toList ++ text) (.word "import" :: ts) :=
    .word_blank (s := "import") isName_import htext
  have hfrom {l : String} (hl : x.binds l = true) :
      x.Scans strings (l.toList ++ " from ".toList) [.word l, .word "from"] :=
    .word_blank (isName_of_binds hl) (.word_blank (s := "from") isName_from .nil)
  rw [String.toList_append]
  cases clause with
  | nothing => exact himport .nil
  | star typeOnly l =>
    have hstar : x.Scans strings ("* as ".toList ++ (l.toList ++ " from ".toList))
        (.mark '*' :: .word "as" :: [.word l, .word "from"]) :=
      .mark_cons rfl (.blank_cons (.word_blank (s := "as") isName_as (hfrom h)))
    have htext := himport ((Scans.typeMark typeOnly).append hstar)
    simpa [ImportClause.text, ImportClause.leadTokens, ImportClause.tokens] using htext
  | default typeOnly l =>
    have htext := himport ((Scans.typeMark typeOnly).append (hfrom h))
    simpa [ImportClause.text, ImportClause.leadTokens, ImportClause.tokens] using htext
  | named typeOnly items =>
    have htext := himport ((Scans.typeMark typeOnly).append ((Scans.braced h).append .from))
    simpa [ImportClause.text, ImportClause.leadTokens, ImportClause.tokens] using htext
  | defaultAndNamed l items =>
    obtain ⟨hl, h⟩ := h
    have hcomma : x.Scans strings (l.toList ++ (", ".toList ++
        ((TypeScriptComposer.braced (items.map (·.text))).toList ++ " from ".toList)))
        (.word l :: .mark ',' ::
          (.mark '\x7b' :: ImportItem.tokensOfAll items ++ [.word "from"])) :=
      .word_append (isName_of_binds hl) (continuesName_eq_false rfl (by decide) x)
        (.mark_cons rfl (.blank_cons ((Scans.braced h).append .from)))
    simpa [ImportClause.text, ImportClause.leadTokens, ImportClause.tokens] using himport hcomma

/-- A statement is read with its own clause and with the module that its string stands for. -/
theorem read_text {s : ImportStatement} (h : s.clause.Admits x) {quote : Quote}
    (hquote : quote.char ∉ s.module.toList) :
    x.read strings (s.text quote) =
      (strings.value? s.module).map fun m => ⟨s.clause, m⟩ := by
  have htext : (s.text quote).toList = ("import " ++ s.clause.text).toList ++
      (quote.char :: (s.module.toList ++ [quote.char, ';'])) := by
    simp [ImportStatement.text, Quote.wrap, Quote.toList_mark]
  rw [read, tokens, htext, Scans.lead h, scan_string hquote, Option.map_map]
  cases strings.value? s.module with
  | none => rfl
  | some m => exact readStatement_tokens h m

end Lexicon

end TypeScriptComposer
