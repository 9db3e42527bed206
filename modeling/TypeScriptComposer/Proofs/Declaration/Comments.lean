import TypeScriptComposer.Declaration.Interface
import TypeScriptComposer.Proofs.Render.Sequence
import TypeScriptComposer.Proofs.Text.CommentEnds

/-!
# What a doc comment encloses

The text of a doc comment is copied line by line. Neither the beginnings of the lines nor their ends
nor a margin make a comment end or hide where it does; so the ends in a block are those in the doc
text, and the one that the last line is for.
-/

set_option autoImplicit false

namespace TypeScriptComposer

theorem commentEnds_dropReturn (l : List Char) : commentEnds (dropReturn l) = commentEnds l := by
  unfold dropReturn
  split
  · rename_i hlast
    obtain ⟨front, rfl⟩ := List.getLast?_eq_some_iff.mp hlast
    rw [List.dropLast_concat, commentEnds_append_plain front (by decide) (by decide)]
  · rfl

theorem map_commentEnds_dropReturns (ls : List (List Char)) :
    (dropReturns ls).map commentEnds = ls.map commentEnds := by
  fun_induction dropReturns ls with
  | case1 => rfl
  | case2 => rfl
  | case3 l ls _ ih => rw [List.map_cons, List.map_cons, commentEnds_dropReturn, ih]

theorem commentEnds_trimBreaks (s : String) :
    commentEnds (trimBreaks s) = commentEnds s.toList := by
  have hbreaks : ∀ c ∈ (s.toList.reverse.takeWhile (· == '\n')).reverse, c = '\n' := by
    intro c hc
    simpa using List.mem_takeWhile_imp (List.mem_reverse.mp hc)
  have hsplit : s.toList = trimBreaks s ++ (s.toList.reverse.takeWhile (· == '\n')).reverse := by
    rw [trimBreaks, ← List.reverse_append, List.takeWhile_append_dropWhile, List.reverse_reverse]
  rw [hsplit, commentEnds_append_plain]
  · exact fun hmem => absurd (hbreaks _ hmem) (by decide)
  · exact fun hmem => absurd (hbreaks _ hmem) (by decide)

theorem commentEnds_docLine_append (l cs : List Char) :
    commentEnds ((docLine l).toList ++ cs) = commentEnds l + commentEnds cs := by
  unfold docLine
  split
  · rename_i hempty
    rw [List.isEmpty_iff.mp hempty]
    simp [commentEnds]
  · have hline : (" * " ++ String.ofList l ++ "\n").toList ++ cs =
        [' ', '*', ' '] ++ (l ++ '\n' :: cs) := by simp
    rw [hline, commentEnds_append (by simp), commentEnds_append (by simp),
      commentEnds_cons_of_ne (by decide)]
    simp [commentEnds]

/-- The lines of a block between the first and the last one. -/
def docLines (cs : List Char) : String := String.join ((dropReturns (lines cs)).map docLine)

theorem docText_eq (cs : List Char) : docText cs = "/**\n" ++ docLines cs ++ " */\n" := rfl

/-- Between the first and the last line a comment ends as often as in the text. -/
theorem commentEnds_docLines (cs : List Char) :
    commentEnds (docLines cs).toList = commentEnds cs := by
  have hlines (ls : List (List Char)) :
      commentEnds (String.join (ls.map docLine)).toList = (ls.map commentEnds).sum := by
    induction ls with
    | nil => rfl
    | cons l ls ih =>
      rw [List.map_cons, String.join_cons, String.toList_append, commentEnds_docLine_append, ih]
      rfl
  rw [docLines, hlines, map_commentEnds_dropReturns, sum_commentEnds_lines]

theorem commentEnds_docText (cs : List Char) :
    commentEnds (docText cs).toList = commentEnds cs + 1 := by
  have hopen : commentEnds ("/**\n".toList ++ (docLines cs).toList) = commentEnds cs := by
    rw [commentEnds_append (by simp), commentEnds_docLines]
    simp [commentEnds]
  rw [docText_eq, String.toList_append, String.toList_append, commentEnds_append (by simp), hopen]
  rfl

theorem endsLine_docLines (cs : List Char) : endsLine (docLines cs).toList = true := by
  apply endsLine_join
  intro s hs
  obtain ⟨l, -, rfl⟩ := List.mem_map.mp hs
  unfold docLine
  split
  · rfl
  · rw [String.toList_append]
    exact endsLine_append_of_getLast? rfl _

/-- The text of a doc comment; it is empty where no comment is written. -/
def docBlock (doc : Option String) : String :=
  match doc.map trimBreaks with
  | none | some [] => ""
  | some cs => docText cs

theorem docComment_cases (doc : Option String) :
    (docComment doc = [] ∧ docBlock doc = "") ∨
      ∃ s, doc = some s ∧ docComment doc = [.text (docText (trimBreaks s))] ∧
        docBlock doc = docText (trimBreaks s) := by
  cases doc with
  | none => exact Or.inl ⟨rfl, rfl⟩
  | some s =>
    unfold docComment docBlock
    rw [Option.map_some]
    cases htrim : trimBreaks s with
    | nil => exact Or.inl ⟨rfl, rfl⟩
    | cons c cs => exact Or.inr ⟨s, rfl, by rw [htrim], by rw [htrim]⟩

theorem docBlock_of_ne_nil {doc : String} (h : docComment (some doc) ≠ []) :
    docBlock (some doc) = docText (trimBreaks doc) := by
  rcases docComment_cases (some doc) with ⟨hnone, -⟩ | ⟨s, hs, -, hblock⟩
  · exact (h hnone).elim
  · rw [hblock, Option.some.inj hs]

theorem opensBlock_docText (cs : List Char) : opensBlock (docText cs) = false := by
  simp [opensBlock, docText, indentsLine, opensBracket, List.dropWhile, isBlank, blankRanges]

theorem endsLine_docBlock (doc : Option String) : endsLine (docBlock doc).toList = true := by
  rcases docComment_cases doc with ⟨-, heq⟩ | ⟨s, -, -, heq⟩
  · rw [heq]
    rfl
  · rw [heq, docText_eq, String.toList_append]
    exact endsLine_append_of_getLast? rfl _

namespace Context
variable (outputs : Outputs) (c : Context)

/-- A doc comment stands in front of what it is for, whatever that is. -/
theorem renderIn_docComment_append (doc : Option String) (t : Template) :
    c.renderIn outputs (docComment doc ++ t) 0 =
      (docBlock doc ++ (c.renderIn outputs t 0).1, (c.renderIn outputs t 0).2) := by
  rcases docComment_cases doc with ⟨hnone, hblock⟩ | ⟨s, -, hsome, hblock⟩
  · rw [hnone, hblock, List.nil_append, String.empty_append]
  · rw [hsome, hblock, List.singleton_append,
      renderIn_text_cons outputs c (opensBlock_docText (trimBreaks s))]

theorem renderIn_docComment_append_level (doc : Option String) (t : Template) (level : Nat) :
    c.renderIn outputs (docComment doc ++ t) level =
      (indented (c.indent.margin level) (docBlock doc) ++ (c.renderIn outputs t level).1,
        (c.renderIn outputs t level).2) := by
  rw [renderIn_level, renderIn_docComment_append, renderIn_level outputs c t level]
  refine Prod.ext ?_ rfl
  simp only [indented, String.toList_append, String.ofList_append,
    withMargin_append_of_endsLine _ (endsLine_docBlock doc)]

end Context

/-- A block begins with `/**` and ends with a line for `*/`, whatever stands between. -/
theorem exists_indented_docText (margin : String) (cs : List Char) :
    (margin ++ "/**").toList <+: (indented margin (docText cs)).toList ∧
      ∃ above, indented margin (docText cs) = above ++ "\n" ++ margin ++ " */\n" := by
  have hopen : withMargin margin.toList "/**\n".toList = margin.toList ++ "/**\n".toList := by
    simp [withMargin, lines, pieces, marginBefore, glue]
  have hclose : withMargin margin.toList " */\n".toList = margin.toList ++ " */\n".toList := by
    simp [withMargin, lines, pieces, marginBefore, glue]
  have hblock : (indented margin (docText cs)).toList = (margin.toList ++ "/**\n".toList) ++
      withMargin margin.toList (docLines cs).toList ++ (margin.toList ++ " */\n".toList) := by
    rw [indented, String.toList_ofList, docText_eq, String.toList_append, String.toList_append,
      List.append_assoc, withMargin_append_of_endsLine _ rfl,
      withMargin_append_of_endsLine _ (endsLine_docLines cs), hopen, hclose]
    simp only [List.append_assoc]
  constructor
  · rw [hblock]
    simp
  · have hends : endsLine ((margin.toList ++ "/**\n".toList) ++
        withMargin margin.toList (docLines cs).toList) = true := by
      rw [endsLine_append (endsLine_append_of_getLast? rfl _),
        endsLine_withMargin _ (endsLine_docLines cs)]
    obtain ⟨front, hfront⟩ := exists_of_endsLine (by simp) hends
    refine ⟨String.ofList front, ?_⟩
    rw [← String.toList_inj, hblock, hfront]
    simp

theorem commentEnds_closing_line (above : String) {margin : String} (hstar : '*' ∉ margin.toList) :
    commentEnds (above ++ "\n" ++ margin ++ " */\n").toList = commentEnds above.toList + 1 := by
  have hsplit : (above ++ "\n" ++ margin ++ " */\n").toList =
      above.toList ++ (('\n' :: margin.toList) ++ " */\n".toList) := by simp
  rw [hsplit, commentEnds_append (by simp), commentEnds_append_of_not_mem (by simpa using hstar)]
  rfl

/-- A template that is built from a doc text has the comment in front, and does not depend on the
text anywhere else. -/
def BeginsWithComment (build : Option String → Template) : Prop :=
  ∃ rest : Template, ∀ doc, build doc = docComment doc ++ rest

theorem FunctionDecl.member_begins_with_comment (f : FunctionDecl) :
    BeginsWithComment fun doc => { f with doc := doc }.member := by
  refine ⟨.text (Modifier.text f.modifiers [.isPublic]) ::
    ((if f.kind = .construct then [.text "new"] else []) ++ [.nested f.signature, .text ";\n"]), ?_⟩
  intro doc
  simp [FunctionDecl.member, FunctionDecl.signature, FunctionDecl.callForm,
    FunctionDecl.parameterList]

theorem FunctionDecl.standing_begins_with_comment (f : FunctionDecl) (keyword : String) :
    BeginsWithComment fun doc => { f with doc := doc }.standing keyword := by
  refine ⟨.text (Modifier.text f.modifiers []) :: .text keyword :: .nested f.signature ::
    f.bodyBlock, ?_⟩
  intro doc
  simp [FunctionDecl.standing, FunctionDecl.signature, FunctionDecl.callForm,
    FunctionDecl.parameterList, FunctionDecl.bodyBlock]

theorem FunctionDecl.begins_with_comment (f : FunctionDecl) :
    BeginsWithComment fun doc => { f with doc := doc }.template := by
  cases hkind : f.kind with
  | function name =>
    simpa [FunctionDecl.template, hkind] using f.standing_begins_with_comment "function "
  | construct =>
    simpa [FunctionDecl.template, hkind] using f.standing_begins_with_comment "constructor"
  | indexSignature | callSignature =>
    simpa [FunctionDecl.template, hkind] using f.member_begins_with_comment

theorem PropertyDecl.begins_with_comment (p : PropertyDecl) :
    BeginsWithComment fun doc => { p with doc := doc }.template := by
  obtain ⟨name, type, optional, modifiers, doc, initializer?⟩ := p
  let head := (PropertyDecl.mk name type optional modifiers doc initializer?).head []
  cases initializer? with
  | none =>
    refine ⟨[.text head, .type type, .text ";\n"], ?_⟩
    intro doc
    simp [PropertyDecl.template, PropertyDecl.head, head]
  | some value =>
    refine ⟨[.text head, .type type, .text " = ", .nested value, .text ";\n"], ?_⟩
    intro doc
    simp [PropertyDecl.template, PropertyDecl.head, head]

theorem PropertyDecl.member_begins_with_comment (p : PropertyDecl) :
    BeginsWithComment fun doc => { p with doc := doc }.member := by
  refine ⟨[.text (p.head [.isPublic]), .type p.type, .text ";\n"], ?_⟩
  intro doc
  simp [PropertyDecl.member, PropertyDecl.head]

theorem InterfaceDecl.begins_with_comment (i : InterfaceDecl) :
    BeginsWithComment fun doc => { i with doc := doc }.template := by
  refine ⟨[.nested i.header, .text blockOpening, .nested i.members, .text blockClosing], ?_⟩
  intro doc
  simp [InterfaceDecl.template, InterfaceDecl.header, InterfaceDecl.members,
    InterfaceDecl.functionMembers]

/-- A doc comment is written in one place, in front of its declaration. It begins with `/**`, its
last line closes it, and above that line it is closed as often as its text closes a comment: only
the text itself can end the comment early, and nothing that is added to the text can. -/
theorem doc_comment_encloses (outputs : Outputs) (c : Context) {doc : String}
    (h : docComment (some doc) ≠ []) :
    (∀ (rest : Template) (level : Nat), ∃ block above : String,
      c.renderIn outputs (docComment (some doc) ++ rest) level =
        (block ++ (c.renderIn outputs rest level).1, (c.renderIn outputs rest level).2) ∧
      (c.indent.margin level ++ "/**").toList <+: block.toList ∧
      block = above ++ "\n" ++ c.indent.margin level ++ " */\n" ∧
      commentEnds above.toList = commentEnds doc.toList ∧
      commentEnds block.toList = commentEnds doc.toList + 1 ∧
      (commentEnds block.toList = 1 ↔ ¬ ['*', '/'] <:+: doc.toList)) ∧
    (∀ i : InterfaceDecl, BeginsWithComment fun doc => { i with doc := doc }.template) ∧
    (∀ p : PropertyDecl, BeginsWithComment (fun doc => { p with doc := doc }.template) ∧
      BeginsWithComment fun doc => { p with doc := doc }.member) ∧
    ∀ f : FunctionDecl, BeginsWithComment (fun doc => { f with doc := doc }.template) ∧
      BeginsWithComment fun doc => { f with doc := doc }.member := by
  refine ⟨?_, InterfaceDecl.begins_with_comment, ?_, ?_⟩
  · intro rest level
    have hstar : '*' ∉ (c.indent.margin level).toList := fun hmem => by
      simpa [indentsLine] using c.indent.margin_blank level _ hmem
    obtain ⟨hopen, above, habove⟩ :=
      exists_indented_docText (c.indent.margin level) (trimBreaks doc)
    have hcount : commentEnds (indented (c.indent.margin level) (docText (trimBreaks doc))).toList =
        commentEnds doc.toList + 1 := by
      rw [indented, String.toList_ofList, commentEnds_withMargin hstar, commentEnds_docText,
        commentEnds_trimBreaks]
    refine ⟨_, above, ?_, hopen, habove, ?_, hcount, ?_⟩
    · rw [c.renderIn_docComment_append_level, docBlock_of_ne_nil h]
    · have hlast := commentEnds_closing_line above hstar
      rw [← habove] at hlast
      omega
    · rw [hcount, ← commentEnds_eq_zero_iff]
      omega
  · exact fun p => ⟨p.begins_with_comment, p.member_begins_with_comment⟩
  · exact fun f => ⟨f.begins_with_comment, f.member_begins_with_comment⟩

/-- Lines that begin with a slash or end with a star, and carriage returns, close no comment. -/
theorem doc_comment_encloses_slashes :
    let doc := "/ first *\r\n\n/ last *\n"
    let c := Context.ofSettings .standard
    docComment (some doc) ≠ [] ∧ ∃ block,
      (c.renderIn [] (docComment (some doc) ++ [.text "x"]) 1).1 = block ++ "  x" ∧
      commentEnds block.toList = 1 := by
  intro doc c
  have h : docComment (some doc) ≠ [] := by decide
  obtain ⟨block, -, hrender, -, -, -, -, hone⟩ :=
    (doc_comment_encloses [] c h).1 [.text "x"] 1
  refine ⟨h, block, ?_, hone.mpr ?_⟩
  · have hrest : (c.renderIn [] [.text "x"] 1).1 = "  x" := by cbv
    rw [hrender, hrest]
  · decide

/-- The comment of this property is closed in its second line, in front of its last one. -/
theorem doc_comment_closed_by_text :
    let p : PropertyDecl := ⟨"a", .literal "A", false, [], some "x */ y", none⟩
    docComment p.doc ≠ [] ∧ docBlock p.doc = "/**\n * x */ y\n */\n" ∧
    ((Context.ofSettings .standard).renderIn [] p.template 0).1 = docBlock p.doc ++ "a: A;\n" ∧
    commentEnds (docBlock p.doc).toList = 2 := by
  intro p
  have hblock : docBlock p.doc = "/**\n * x */ y\n */\n" := by cbv
  have hrest : ((Context.ofSettings .standard).renderIn [] [.text "a: ", .type p.type, .text ";\n"]
      0).1 = "a: A;\n" := by cbv
  have htemplate : p.template = docComment p.doc ++ [.text "a: ", .type p.type, .text ";\n"] := rfl
  refine ⟨by decide, hblock, ?_, ?_⟩
  · rw [htemplate, Context.renderIn_docComment_append, hrest]
  · rw [hblock]
    decide

end TypeScriptComposer
