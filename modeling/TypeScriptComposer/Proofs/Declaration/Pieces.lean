import TypeScriptComposer.Proofs.Declaration.Comments

/-!
# The pieces of a declaration

Headers, signatures and members are written from left to right: fixed texts and names, and between
them what types, type variables and parameters give on their own. What follows a name is text or
nothing, never a block, so that it does not matter what the name is.
-/

set_option autoImplicit false

namespace TypeScriptComposer

theorem opensBlock_of_not_mem {s : String} (h : '\n' ∉ s.toList) : opensBlock s = false := by
  rw [← Bool.not_eq_true]
  intro hopens
  obtain ⟨front, blanks, hs, -⟩ := exists_of_opensBlock hopens
  simp [hs] at h

theorem opensBlock_comma : opensBlock ", " = false := by decide

theorem Modifier.opensBlock_text (ms implicit : List Modifier) :
    opensBlock (Modifier.text ms implicit) = false := by
  have hkeyword : ∀ m : Modifier, '\n' ∉ (m.keyword ++ " ").toList := by
    intro m
    cases m <;> decide
  apply opensBlock_of_not_mem
  simp only [Modifier.text, String.toList_join, List.mem_flatMap, List.mem_map]
  rintro ⟨_, ⟨m, -, rfl⟩, hmem⟩
  exact hkeyword m hmem

/-- Texts in angle brackets, with commas between them; nothing for no texts. -/
def angled (texts : List String) : String :=
  if texts.isEmpty then "" else "<" ++ ", ".intercalate texts ++ ">"

theorem not_block_typeVariableList_append (vs : List TypeVariable) {t : Template}
    (h : t.head?.any Part.isBlock = false) :
    (typeVariableList vs ++ t).head?.any Part.isBlock = false := by
  cases vs with
  | nil => exact h
  | cons => rfl

theorem Context.renderIn_typeVariableList_append (outputs : Outputs) (c : Context)
    (vs : List TypeVariable) (t : Template) :
    c.renderIn outputs (typeVariableList vs ++ t) 0 =
      let (texts, c) := c.renderEach outputs (vs.map (·.declaration))
      let (more, c) := c.renderIn outputs t 0
      (angled texts ++ more, c) := by
  cases vs with
  | nil => simp [typeVariableList, renderEach, angled]
  | cons v vs =>
    have happend : typeVariableList (v :: vs) ++ t =
        .text "<" :: .list (((v :: vs).map (·.declaration)).map .nested) ", " ::
          .text ">" :: t := by
      simp [typeVariableList]
    have hangled (text : String) (texts : List String) :
        angled (text :: texts) = "<" ++ ", ".intercalate (text :: texts) ++ ">" := rfl
    rw [happend, renderIn_text_cons outputs c (by decide), renderIn_cons outputs c rfl,
      renderIn_list_nested opensBlock_comma]
    have hclose : opensBlock ">" = false := by decide
    simp only [renderIn_text_cons _ _ hclose, List.map_cons, renderEach, hangled,
      String.append_assoc]

namespace InterfaceDecl
variable (outputs : Outputs) (c : Context) (i : InterfaceDecl)

theorem renderIn_header :
    c.renderIn outputs i.header 0 =
      let (typeVariables, c) := c.renderEach outputs (i.typeVariables.map (·.declaration))
      let (supers, c) := c.renderEach outputs (i.supers.map ([.type ·]))
      (Modifier.text i.modifiers [] ++ "interface " ++ i.name ++ angled typeVariables ++
        (if i.supers.isEmpty then "" else " extends " ++ ", ".intercalate supers), c) := by
  have hextends (c : Context) :
      c.renderIn outputs
        (if i.supers.isEmpty then [] else [.text " extends ", .list (i.supers.map .type) ", "]) 0 =
      let (supers, c) := c.renderEach outputs (i.supers.map ([.type ·]))
      (if i.supers.isEmpty then "" else " extends " ++ ", ".intercalate supers, c) := by
    cases i.supers with
    | nil => simp [Context.renderEach]
    | cons t ts =>
      simp only [List.isEmpty_cons, Bool.false_eq_true, if_false]
      rw [Context.renderIn_text_cons outputs c (by decide), Context.renderIn_list opensBlock_comma,
        List.map_map]
      rfl
  rw [header, List.cons_append, Context.renderIn_text_cons_of_not_block outputs c,
    Context.renderIn_typeVariableList_append]
  · simp only [hextends, String.append_assoc]
  · apply not_block_typeVariableList_append
    cases i.supers <;> rfl

end InterfaceDecl

theorem ParameterDecl.renderIn_template (outputs : Outputs) (c : Context) (p : ParameterDecl) :
    c.renderIn outputs p.template 0 =
      let (type, c) := c.renderIn outputs [.type p.type] 0
      let (values, c) := c.renderEach outputs p.default?.toList
      (Modifier.text p.modifiers [] ++ (if p.rest then "..." else "") ++ p.name ++
        (if p.optional then "?" else "") ++ ": " ++ type ++
        String.join (values.map (" = " ++ ·)), c) := by
  have hequals : opensBlock " = " = false := by decide
  rw [template, List.cons_append, Context.renderIn_text_cons_of_not_block outputs c _ rfl,
    List.singleton_append, Context.renderIn_cons outputs c rfl]
  cases p.default? with
  | none => simp [Context.renderEach, head]
  | some value =>
    simp [Context.renderEach, Context.renderIn_text_cons outputs _ hequals, head,
      String.append_assoc]

theorem PropertyDecl.renderIn_member (outputs : Outputs) (c : Context) (p : PropertyDecl) :
    c.renderIn outputs p.member 0 =
      let (type, c) := c.renderIn outputs [.type p.type] 0
      (docBlock p.doc ++ Modifier.text p.modifiers [.isPublic] ++ p.name ++
        (if p.optional then "?" else "") ++ ": " ++ type ++ ";\n", c) := by
  rw [member, Context.renderIn_docComment_append,
    Context.renderIn_text_cons_of_not_block outputs c _ rfl, Context.renderIn_cons outputs c rfl]
  simp only [Context.renderIn_text, head, String.append_assoc]

/-- A signature without its return type. -/
def FunctionKind.callText (typeVariables parameters : List String) : FunctionKind → String
  | .function name => name ++ angled typeVariables ++ "(" ++ ", ".intercalate parameters ++ ")"
  | .indexSignature => "[" ++ ", ".intercalate parameters ++ "]"
  | .callSignature | .construct =>
    angled typeVariables ++ "(" ++ ", ".intercalate parameters ++ ")"

namespace FunctionDecl
variable (outputs : Outputs) (c : Context) (f : FunctionDecl)

/-- The type variables that are written. An index signature has no place for them. -/
def writtenTypeVariables : List TypeVariable :=
  if f.kind = .indexSignature then [] else f.typeVariables

theorem renderIn_parameterList_append {opening closing : String}
    (hopening : opensBlock opening = false) (hclosing : opensBlock closing = false)
    (t : Template) :
    c.renderIn outputs (.text opening :: f.parameterList :: .text closing :: t) 0 =
      let (parameters, c) := c.renderEach outputs (f.parameters.map (·.template))
      let (more, c) := c.renderIn outputs t 0
      (opening ++ ", ".intercalate parameters ++ closing ++ more, c) := by
  have hlist : f.parameterList = .list ((f.parameters.map (·.template)).map .nested) ", " := by
    rw [parameterList, List.map_map]
    rfl
  rw [hlist, Context.renderIn_text_cons outputs c hopening, Context.renderIn_cons outputs c rfl,
    Context.renderIn_list_nested opensBlock_comma]
  simp only [Context.renderIn_text_cons _ _ hclosing, String.append_assoc]

theorem renderIn_callForm_append (t : Template) :
    c.renderIn outputs (f.callForm ++ t) 0 =
      let (typeVariables, c) := c.renderEach outputs (f.typeVariables.map (·.declaration))
      let (parameters, c) := c.renderEach outputs (f.parameters.map (·.template))
      let (more, c) := c.renderIn outputs t 0
      (angled typeVariables ++ "(" ++ ", ".intercalate parameters ++ ")" ++ more, c) := by
  have hopening : opensBlock "(" = false := by decide
  have hclosing : opensBlock ")" = false := by decide
  rw [callForm, List.append_assoc, Context.renderIn_typeVariableList_append]
  simp only [List.cons_append, List.nil_append,
    renderIn_parameterList_append outputs _ f hopening hclosing, String.append_assoc]

def returnPart : Template :=
  match f.returns? with
  | none => []
  | some type => [.text ": ", .type type]

theorem renderIn_returnPart :
    c.renderIn outputs f.returnPart 0 =
      let (returns, c) := c.renderEach outputs (f.returns?.toList.map ([.type ·]))
      (String.join (returns.map (": " ++ ·)), c) := by
  have hcolon : opensBlock ": " = false := by decide
  unfold returnPart
  cases f.returns? with
  | none => simp [Context.renderEach]
  | some type => simp [Context.renderEach, Context.renderIn_text_cons outputs _ hcolon]

theorem renderIn_signature :
    c.renderIn outputs f.signature 0 =
      let (typeVariables, c) := c.renderEach outputs (f.writtenTypeVariables.map (·.declaration))
      let (parameters, c) := c.renderEach outputs (f.parameters.map (·.template))
      let (returns, c) := c.renderEach outputs (f.returns?.toList.map ([.type ·]))
      (f.kind.callText typeVariables parameters ++ String.join (returns.map (": " ++ ·)), c) := by
  cases hkind : f.kind with
  | function name =>
    have hsignature : f.signature = .text name :: (f.callForm ++ f.returnPart) := by
      rw [signature, hkind]
      rfl
    have hnames : f.writtenTypeVariables = f.typeVariables := by simp [writtenTypeVariables, hkind]
    have hblock : (f.callForm ++ f.returnPart).head?.any Part.isBlock = false := by
      rw [callForm, List.append_assoc]
      exact not_block_typeVariableList_append _ rfl
    rw [hsignature, hnames, Context.renderIn_text_cons_of_not_block outputs c name hblock,
      renderIn_callForm_append]
    simp only [renderIn_returnPart, FunctionKind.callText, String.append_assoc]
  | indexSignature =>
    have hsignature : f.signature =
        .text "[" :: f.parameterList :: .text "]" :: f.returnPart := by
      rw [signature, hkind]
      rfl
    have hnone : f.writtenTypeVariables = [] := by simp [writtenTypeVariables, hkind]
    rw [hsignature, hnone, renderIn_parameterList_append outputs c f (by decide) (by decide)]
    simp only [renderIn_returnPart, FunctionKind.callText, List.map_nil, Context.renderEach]
  | callSignature | construct =>
    have hsignature : f.signature = f.callForm ++ f.returnPart := by
      rw [signature, hkind]
      rfl
    have hnames : f.writtenTypeVariables = f.typeVariables := by simp [writtenTypeVariables, hkind]
    rw [hsignature, hnames, renderIn_callForm_append]
    simp only [renderIn_returnPart, FunctionKind.callText]

theorem renderIn_member :
    c.renderIn outputs f.member 0 =
      let (signature, c) := c.renderIn outputs f.signature 0
      (docBlock f.doc ++ Modifier.text f.modifiers [.isPublic] ++
        (if f.kind = .construct then "new" else "") ++ signature ++ ";\n", c) := by
  have hnew : opensBlock "new" = false := by decide
  rw [member, List.append_assoc, List.append_assoc, Context.renderIn_docComment_append,
    List.singleton_append, Context.renderIn_text_cons _ _ (Modifier.opensBlock_text _ _)]
  split
  · rw [List.singleton_append, Context.renderIn_text_cons _ _ hnew, Context.renderIn_nested_cons]
    simp only [Context.renderIn_text, String.append_assoc]
  · rw [List.nil_append, Context.renderIn_nested_cons]
    simp only [Context.renderIn_text, String.empty_append, String.append_assoc]

end FunctionDecl

end TypeScriptComposer
