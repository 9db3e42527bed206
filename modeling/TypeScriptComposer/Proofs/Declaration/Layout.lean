import TypeScriptComposer.Proofs.Declaration.Pieces

/-!
# How declarations are laid out

An interface and a function with a body are a line that opens a block, the block, and a brace that
closes it. The block is what its parts give on their own, one after the other, moved to the right by
one unit. The names, comments and values of the parts do not matter: none of them stands directly in
front of the block but the text that opens it.
-/

set_option autoImplicit false

namespace TypeScriptComposer

theorem opensBlock_blockOpening : opensBlock blockOpening = true := by decide

theorem throughLastBreak_blockOpening : throughLastBreak blockOpening = " \x7b\n" := by decide

theorem PropertyDecl.endsLine_member (outputs : Outputs) (c : Context) (p : PropertyDecl) :
    endsLine (c.renderIn outputs p.member 0).1.toList = true := by
  rw [renderIn_member]
  simp only [String.toList_append]
  exact endsLine_append_of_getLast? rfl _

theorem FunctionDecl.endsLine_member (outputs : Outputs) (c : Context) (f : FunctionDecl) :
    endsLine (c.renderIn outputs f.member 0).1.toList = true := by
  rw [renderIn_member]
  simp only [String.toList_append]
  exact endsLine_append_of_getLast? rfl _

/-- A brace behind whole lines in a block begins a line. -/
theorem exists_above_closing {inner : String} (h : endsLine inner.toList = true)
    (front unit : String) : ∃ above : String,
      front ++ " \x7b\n" ++ indented unit inner ++ "\x7d" = above ++ "\n\x7d" := by
  have hopening : endsLine (front ++ " \x7b\n").toList = true := by
    rw [String.toList_append]
    exact endsLine_append_of_getLast? rfl _
  have hends : endsLine (front ++ " \x7b\n" ++ indented unit inner).toList = true := by
    rw [String.toList_append, endsLine_append hopening, indented, String.toList_ofList,
      endsLine_withMargin _ h]
  obtain ⟨above, habove⟩ := exists_of_endsLine (by simp) hends
  refine ⟨String.ofList above, ?_⟩
  rw [← String.toList_inj, String.toList_append, habove]
  simp

namespace InterfaceDecl
variable (outputs : Outputs) (c : Context) (i : InterfaceDecl)

/-- The members that have no empty line around them: all but the functions. -/
def plainMembers : List Template :=
  i.properties.map (·.member) ++ i.indexSignatures.map (·.member) ++
    i.callSignature?.toList.map (·.member)

theorem members_eq : i.members = i.plainMembers.map .nested ++
    ((i.functions.map (·.member)).flatMap fun t => [.text "\n", .nested t]) ++
      if i.functions.isEmpty then [] else [.text "\n"] := by
  unfold members plainMembers functionMembers
  cases i.functions with
  | nil => simp [Function.comp_def]
  | cons f fs => simp [Function.comp_def, List.flatMap_map]

/-- The members: those without empty lines, then the functions, with a line break in front of each
and one more behind the last. -/
theorem renderIn_members :
    c.renderIn outputs i.members 0 =
      let (plain, c) := c.renderEach outputs i.plainMembers
      let (functions, c) := c.renderEach outputs (i.functions.map (·.member))
      (String.join (plain ++ functions.map ("\n" ++ ·) ++
        if i.functions.isEmpty then [] else ["\n"]), c) := by
  have hlast (c : Context) :
      c.renderIn outputs (if i.functions.isEmpty then [] else [.text "\n"]) 0 =
        (String.join (if i.functions.isEmpty then [] else ["\n"]), c) := by
    split
    · exact Context.renderIn_nil outputs c
    · exact Context.renderIn_text outputs c "\n"
  rw [members_eq, List.append_assoc, Context.renderIn_map_nested_append]
  simp only [Context.renderIn_flatMap_nested_append, hlast, String.join_append, String.append_assoc]

theorem endsLine_plainMembers : ∀ t ∈ i.plainMembers, ∀ c : Context,
    endsLine (c.renderIn outputs t 0).1.toList = true := by
  intro t ht c
  simp only [plainMembers, List.mem_append, List.mem_map] at ht
  rcases ht with (⟨p, -, rfl⟩ | ⟨f, -, rfl⟩) | ⟨f, -, rfl⟩
  · exact p.endsLine_member outputs c
  · exact f.endsLine_member outputs c
  · exact f.endsLine_member outputs c

theorem endsLine_members : endsLine (c.renderIn outputs i.members 0).1.toList = true := by
  rw [renderIn_members]
  cases hnone : i.functions with
  | nil =>
    have hplain : endsLine (String.join (c.renderEach outputs i.plainMembers).1).toList = true :=
      endsLine_join (Context.forall_mem_renderEach (i.endsLine_plainMembers outputs))
    simpa [Context.renderEach] using hplain
  | cons f fs =>
    simp only [List.isEmpty_cons, Bool.false_eq_true, if_false, String.join_append,
      String.toList_append]
    exact endsLine_append_of_getLast? rfl _

theorem renderIn_template :
    c.renderIn outputs i.template 0 =
      let (header, c') := c.renderIn outputs i.header 0
      let (members, c') := c'.renderIn outputs i.members 0
      (docBlock i.doc ++ header ++ " \x7b\n" ++ indented c.indent.unit members ++ "\x7d", c') := by
  have hclose (c : Context) : c.renderIn outputs [.text blockClosing] 0 = ("\x7d", c) :=
    Context.renderIn_text outputs c blockClosing
  have happend : i.template = docComment i.doc ++
      .nested i.header :: .text blockOpening :: .nested i.members :: [.text blockClosing] := rfl
  rw [happend, Context.renderIn_docComment_append, Context.renderIn_nested_cons]
  simp only [Context.renderIn_block_cons _ _ opensBlock_blockOpening,
    throughLastBreak_blockOpening, hclose, Context.indent_renderIn, String.append_assoc]

end InterfaceDecl

/-- The keyword of a function that stands alone. -/
def FunctionKind.keyword? : FunctionKind → Option String
  | .function _ => some "function "
  | .construct => some "constructor"
  | .indexSignature | .callSignature => none

namespace FunctionDecl
variable (outputs : Outputs) (c : Context) (f : FunctionDecl)

theorem renderIn_bodyBlock :
    c.renderIn outputs f.bodyBlock 0 =
      let body := f.body?.getD []
      let (text, c') := c.renderIn outputs body 0
      (" \x7b\n" ++ (if body.isEmpty then "" else indented c.indent.unit text ++ "\n") ++ "\x7d",
        c') := by
  have hempty (c : Context) : c.renderIn outputs [.text (blockOpening ++ blockClosing)] 0 =
      (" \x7b\n" ++ "\x7d", c) := Context.renderIn_text outputs c _
  have hclose (c : Context) : c.renderIn outputs [.text ("\n" ++ blockClosing)] 0 =
      ("\n" ++ "\x7d", c) := Context.renderIn_text outputs c _
  match hbody : f.body? with
  | none | some [] =>
    simp only [bodyBlock, hbody, hempty, Option.getD, Context.renderIn_nil, List.isEmpty_nil,
      if_true, String.append_empty]
  | some (p :: ps) =>
    simp only [bodyBlock, hbody, Context.renderIn_block_cons _ _ opensBlock_blockOpening,
      throughLastBreak_blockOpening, hclose, Option.getD, List.isEmpty_cons, Bool.false_eq_true,
      if_false, String.append_assoc]

theorem renderIn_standing {keyword : String} (h : opensBlock keyword = false) :
    c.renderIn outputs (f.standing keyword) 0 =
      let (signature, c') := c.renderIn outputs f.signature 0
      let (block, c') := c'.renderIn outputs f.bodyBlock 0
      (docBlock f.doc ++ Modifier.text f.modifiers [] ++ keyword ++ signature ++ block, c') := by
  have happend : f.standing keyword = docComment f.doc ++ .text (Modifier.text f.modifiers []) ::
      .text keyword :: .nested f.signature :: f.bodyBlock := by
    simp [standing]
  rw [happend, Context.renderIn_docComment_append,
    Context.renderIn_text_cons _ _ (Modifier.opensBlock_text _ _),
    Context.renderIn_text_cons _ _ h, Context.renderIn_nested_cons]
  simp only [String.append_assoc]

theorem template_of_keyword? {keyword : String} (h : f.kind.keyword? = some keyword) :
    f.template = f.standing keyword ∧ opensBlock keyword = false := by
  cases hkind : f.kind with
  | function name =>
    obtain rfl : "function " = keyword := by simpa [FunctionKind.keyword?, hkind] using h
    exact ⟨by simp [template, hkind], by decide⟩
  | construct =>
    obtain rfl : "constructor" = keyword := by simpa [FunctionKind.keyword?, hkind] using h
    exact ⟨by simp [template, hkind], by decide⟩
  | indexSignature | callSignature => simp [FunctionKind.keyword?, hkind] at h

end FunctionDecl

/-- An interface is its doc comment, its header and a block with its members, and a function with a
keyword is its doc comment, modifiers, keyword and signature and a block with its body. The parts
are written as they are on their own at that point of the render; those in the block are moved to
the right by one unit, and the brace behind them begins a line. Headers, signatures, members and
parameters are on their own what they are made of, from left to right. -/
theorem declarations_laid_out (outputs : Outputs) (c : Context) :
    (∀ i : InterfaceDecl,
      let header := c.renderIn outputs i.header 0
      let properties := header.2.renderEach outputs (i.properties.map (·.member))
      let indexes := properties.2.renderEach outputs (i.indexSignatures.map (·.member))
      let call := indexes.2.renderEach outputs (i.callSignature?.toList.map (·.member))
      let functions := call.2.renderEach outputs (i.functions.map (·.member))
      let members := String.join (properties.1 ++ indexes.1 ++ call.1 ++
        functions.1.map ("\n" ++ ·) ++ if i.functions.isEmpty then [] else ["\n"])
      let text :=
        docBlock i.doc ++ header.1 ++ " \x7b\n" ++ indented c.indent.unit members ++ "\x7d"
      c.renderIn outputs i.template 0 = (text, functions.2) ∧
        ∃ above, text = above ++ "\n\x7d") ∧
    (∀ (f : FunctionDecl) (keyword : String), f.kind.keyword? = some keyword →
      let signature := c.renderIn outputs f.signature 0
      let parts := f.body?.getD []
      let body := signature.2.renderIn outputs parts 0
      let block := if parts.isEmpty then "" else indented c.indent.unit body.1 ++ "\n"
      c.renderIn outputs f.template 0 =
        (docBlock f.doc ++ Modifier.text f.modifiers [] ++ keyword ++ signature.1 ++
          " \x7b\n" ++ block ++ "\x7d", body.2)) ∧
    (∀ i : InterfaceDecl,
      let typeVariables := c.renderEach outputs (i.typeVariables.map (·.declaration))
      let supers := typeVariables.2.renderEach outputs (i.supers.map ([.type ·]))
      c.renderIn outputs i.header 0 =
        (Modifier.text i.modifiers [] ++ "interface " ++ i.name ++ angled typeVariables.1 ++
          (if i.supers.isEmpty then "" else " extends " ++ ", ".intercalate supers.1), supers.2)) ∧
    (∀ f : FunctionDecl,
      let typeVariables := c.renderEach outputs (f.writtenTypeVariables.map (·.declaration))
      let parameters := typeVariables.2.renderEach outputs (f.parameters.map (·.template))
      let returns := parameters.2.renderEach outputs (f.returns?.toList.map ([.type ·]))
      let signature := f.kind.callText typeVariables.1 parameters.1 ++
        String.join (returns.1.map (": " ++ ·))
      c.renderIn outputs f.signature 0 = (signature, returns.2) ∧
        c.renderIn outputs f.member 0 =
          (docBlock f.doc ++ Modifier.text f.modifiers [.isPublic] ++
            (if f.kind = .construct then "new" else "") ++ signature ++ ";\n", returns.2)) ∧
    (∀ p : PropertyDecl,
      let type := c.renderIn outputs [.type p.type] 0
      c.renderIn outputs p.member 0 =
        (docBlock p.doc ++ Modifier.text p.modifiers [.isPublic] ++ p.name ++
          (if p.optional then "?" else "") ++ ": " ++ type.1 ++ ";\n", type.2)) ∧
    ∀ p : ParameterDecl,
      let type := c.renderIn outputs [.type p.type] 0
      let values := type.2.renderEach outputs p.default?.toList
      c.renderIn outputs p.template 0 =
        (Modifier.text p.modifiers [] ++ (if p.rest then "..." else "") ++ p.name ++
          (if p.optional then "?" else "") ++ ": " ++ type.1 ++
          String.join (values.1.map (" = " ++ ·)), values.2) := by
  refine ⟨?_, ?_, InterfaceDecl.renderIn_header outputs c, ?_,
    PropertyDecl.renderIn_member outputs c, ParameterDecl.renderIn_template outputs c⟩
  · intro i header properties indexes call functions members text
    have hmembers : header.2.renderIn outputs i.members 0 = (members, functions.2) := by
      rw [InterfaceDecl.renderIn_members, InterfaceDecl.plainMembers, Context.renderEach_append,
        Context.renderEach_append]
    have htext : c.renderIn outputs i.template 0 = (text, functions.2) := by
      rw [InterfaceDecl.renderIn_template]
      simp only [header, hmembers, text]
    have hends : endsLine members.toList = true := by
      have hends := InterfaceDecl.endsLine_members outputs header.2 i
      rwa [hmembers] at hends
    exact ⟨htext, exists_above_closing hends (docBlock i.doc ++ header.1) c.indent.unit⟩
  · intro f keyword hkeyword signature parts body block
    obtain ⟨htemplate, hopens⟩ := f.template_of_keyword? hkeyword
    rw [htemplate, FunctionDecl.renderIn_standing outputs c f hopens]
    simp only [FunctionDecl.renderIn_bodyBlock, String.append_assoc]
    rfl
  · intro f typeVariables parameters returns signature
    have hsignature : c.renderIn outputs f.signature 0 = (signature, returns.2) :=
      FunctionDecl.renderIn_signature outputs c f
    exact ⟨hsignature, by rw [FunctionDecl.renderIn_member, hsignature]⟩

/-- The list in the signature has a block of its own, and the body ends with an open bracket. -/
theorem declarations_laid_out_brackets :
    let c := Context.ofSettings .standard
    let list : Template := [.text "[\n", .nested [.text "1"], .text "\n]"]
    let f : FunctionDecl := ⟨.construct, some "d", [.isPublic], [],
      [⟨"a", .literal "A", false, false, [], some list⟩], none, some [.text "f(\n"]⟩
    f.kind.keyword? = some "constructor" ∧ (c.renderIn [] f.template 0).1 =
      "/**\n * d\n */\npublic constructor(a: A = [\n  1\n]) \x7b\n  f(\n\n\x7d" := by
  intro c list f
  have h : f.kind.keyword? = some "constructor" := rfl
  have hsignature : c.renderIn [] f.signature 0 = ("(a: A = [\n  1\n])", c) := by cbv
  have hbody : c.renderIn [] [.text "f(\n"] 0 = ("f(\n", c) := by cbv
  refine ⟨h, ?_⟩
  rw [(declarations_laid_out [] c).2.1 f "constructor" h, hsignature]
  dsimp only [f, Option.getD_some]
  rw [hbody]
  decide

end TypeScriptComposer
