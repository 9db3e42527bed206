import Mathlib.Data.List.Destutter
import Mathlib.Data.List.Sort
import TypeScriptComposer.Declaration.Interface

/-!
# Modifiers as sets

A declaration is given its modifiers as a list, but only the set of its members counts. What is
written is the one list of these modifiers, without the implicit ones, that strictly increases in
the order of the keywords; sorting the given list and dropping repetitions comes to the same list.
-/

set_option autoImplicit false

namespace TypeScriptComposer

namespace Modifier

theorem ctorIdx_injective {a b : Modifier} (h : a.ctorIdx = b.ctorIdx) : a = b := by
  cases a <;> cases b <;> first | rfl | cases h

instance : Std.Irrefl (α := Modifier) (· < ·) := ⟨fun a => Nat.lt_irrefl a.ctorIdx⟩

instance : Std.Antisymm (α := Modifier) (· < ·) :=
  ⟨fun _ _ h h' => (Nat.lt_asymm h h').elim⟩

instance : Std.Antisymm (α := Modifier) (· ≤ ·) :=
  ⟨fun _ _ h h' => ctorIdx_injective (Nat.le_antisymm h h')⟩

instance : Std.Total (α := Modifier) (· ≤ ·) := ⟨fun a b => Nat.le_total a.ctorIdx b.ctorIdx⟩

instance : IsTrans Modifier (· ≤ ·) := ⟨fun _ _ _ => Nat.le_trans⟩

theorem pairwise_all : all.Pairwise (· < ·) := by
  change all.Pairwise fun a b => a.ctorIdx < b.ctorIdx
  decide

theorem pairwise_written (ms implicit : List Modifier) :
    (written ms implicit).Pairwise (· < ·) :=
  pairwise_all.filter _

theorem written_eq_of_mem_iff {ms ms' : List Modifier} (h : ∀ m, m ∈ ms ↔ m ∈ ms')
    (implicit : List Modifier) : written ms implicit = written ms' implicit := by
  apply (pairwise_written ms implicit).eq_of_mem_iff (pairwise_written ms' implicit)
  intro m
  rw [mem_written_iff, mem_written_iff, h]

theorem pairwise_sort (ms : List Modifier) : (sort ms).Pairwise (· ≤ ·) :=
  List.pairwise_mergeSort' (· ≤ ·) ms

theorem sort_perm (ms : List Modifier) : (sort ms).Perm ms := List.mergeSort_perm ms _

/-- What is written is the sorted list without its repetitions, which stand side by side there. -/
theorem written_eq_destutter (ms implicit : List Modifier) : written ms implicit =
    (sort (ms.filter fun m => !implicit.contains m)).destutter (· ≠ ·) := by
  let sorted := sort (ms.filter fun m => !implicit.contains m)
  have hsorted : sorted.Pairwise (· ≤ ·) := pairwise_sort _
  have hstrict : sorted.dedup.Pairwise (· < ·) := by
    have hle := hsorted.sublist (List.dedup_sublist _)
    refine (hle.and (List.nodup_dedup sorted)).imp ?_
    rintro a b ⟨hab, hne⟩
    exact Nat.lt_of_le_of_ne hab fun h => hne (ctorIdx_injective h)
  rw [hsorted.destutter_eq_dedup]
  apply (pairwise_written ms implicit).eq_of_mem_iff hstrict
  intro m
  rw [mem_written_iff, List.mem_dedup, (sort_perm _).mem_iff, List.mem_filter]
  simp

end Modifier

/-- Whether a function of this kind can be written outside of an interface. -/
def FunctionKind.standsAlone : FunctionKind → Bool
  | .function _ | .construct => true
  | .indexSignature | .callSignature => false

/-- A template that is built from modifiers has them in one text, each once and in order, and does
not depend on them anywhere else. -/
inductive WritesModifiers (implicit : List Modifier) : (List Modifier → Template) → Prop where
  | text (front : Template) (s : String) (back : Template) :
    WritesModifiers implicit fun ms => front ++ .text (Modifier.text ms implicit ++ s) :: back
  | nested (front : Template) {build : List Modifier → Template} (back : Template) :
    WritesModifiers implicit build →
      WritesModifiers implicit fun ms => front ++ .nested (build ms) :: back

namespace WritesModifiers
variable {implicit : List Modifier} {build build' : List Modifier → Template}

theorem congr (h : WritesModifiers implicit build') (heq : ∀ ms, build ms = build' ms) :
    WritesModifiers implicit build := by
  rwa [funext heq]

theorem eq_of_mem_iff (h : WritesModifiers implicit build) {ms ms' : List Modifier}
    (hms : ∀ m, m ∈ ms ↔ m ∈ ms') : build ms = build ms' := by
  induction h with
  | text front s back =>
    have htext : Modifier.text ms implicit = Modifier.text ms' implicit := by
      unfold Modifier.text
      rw [Modifier.written_eq_of_mem_iff hms]
    dsimp only
    rw [htext]
  | nested front back _ ih =>
    dsimp only
    rw [ih]

theorem parameter (p : ParameterDecl) :
    WritesModifiers [] fun ms => { p with modifiers := ms }.template := by
  obtain ⟨name, type, optional, rest, -, default?⟩ := p
  let s := (if rest then "..." else "") ++ name ++ (if optional then "?" else "") ++ ": "
  cases default? with
  | none =>
    refine (text [] s [.type type]).congr fun ms => ?_
    simp [ParameterDecl.template, ParameterDecl.head, s, String.append_assoc]
  | some value =>
    refine (text [] s [.type type, .text " = ", .nested value]).congr fun ms => ?_
    simp [ParameterDecl.template, ParameterDecl.head, s, String.append_assoc]

theorem property (p : PropertyDecl) :
    WritesModifiers [] fun ms => { p with modifiers := ms }.template := by
  obtain ⟨name, type, optional, -, doc, initializer?⟩ := p
  let s := name ++ (if optional then "?" else "") ++ ": "
  cases initializer? with
  | none =>
    refine (text (docComment doc) s [.type type, .text ";\n"]).congr fun ms => ?_
    simp [PropertyDecl.template, PropertyDecl.head, s, String.append_assoc]
  | some value =>
    refine (text (docComment doc) s
      [.type type, .text " = ", .nested value, .text ";\n"]).congr fun ms => ?_
    simp [PropertyDecl.template, PropertyDecl.head, s, String.append_assoc]

theorem propertyMember (p : PropertyDecl) :
    WritesModifiers [.isPublic] fun ms => { p with modifiers := ms }.member := by
  let s := p.name ++ (if p.optional then "?" else "") ++ ": "
  refine (text (docComment p.doc) s [.type p.type, .text ";\n"]).congr fun ms => ?_
  simp [PropertyDecl.member, PropertyDecl.head, s, String.append_assoc]

theorem functionMember (f : FunctionDecl) :
    WritesModifiers [.isPublic] fun ms => { f with modifiers := ms }.member := by
  let back : Template := (if f.kind = .construct then [.text "new"] else []) ++
    [.nested f.signature, .text ";\n"]
  refine (text (docComment f.doc) "" back).congr fun ms => ?_
  simp [FunctionDecl.member, back, FunctionDecl.signature, FunctionDecl.callForm,
    FunctionDecl.parameterList]

theorem standing (f : FunctionDecl) (keyword : String) :
    WritesModifiers [] fun ms => { f with modifiers := ms }.standing keyword := by
  let back : Template := .text keyword :: .nested f.signature :: f.bodyBlock
  refine (text (docComment f.doc) "" back).congr fun ms => ?_
  simp [FunctionDecl.standing, back, FunctionDecl.signature, FunctionDecl.callForm,
    FunctionDecl.parameterList, FunctionDecl.bodyBlock]

theorem function (f : FunctionDecl) :
    WritesModifiers (if f.kind.standsAlone then [] else [.isPublic])
      fun ms => { f with modifiers := ms }.template := by
  cases hkind : f.kind with
  | function name =>
    refine (standing f "function ").congr fun ms => ?_
    simp [FunctionDecl.template, hkind]
  | construct =>
    refine (standing f "constructor").congr fun ms => ?_
    simp [FunctionDecl.template, hkind]
  | indexSignature | callSignature =>
    refine (functionMember f).congr fun ms => ?_
    simp [FunctionDecl.template, hkind]

theorem interface (i : InterfaceDecl) :
    WritesModifiers [] fun ms => { i with modifiers := ms }.template := by
  let back : Template := typeVariableList i.typeVariables ++
    if i.supers.isEmpty then [] else [.text " extends ", .list (i.supers.map .type) ", "]
  have hheader : WritesModifiers [] fun ms => { i with modifiers := ms }.header := by
    refine (text [] ("interface " ++ i.name) back).congr fun ms => ?_
    simp [InterfaceDecl.header, back, String.append_assoc]
  refine (nested (docComment i.doc) [.text blockOpening, .nested i.members, .text blockClosing]
    hheader).congr fun ms => ?_
  simp [InterfaceDecl.template, InterfaceDecl.members, InterfaceDecl.functionMembers]

end WritesModifiers

/-- Modifiers are written as the set that they are: lists with the same members give the same text,
and it has a keyword and a blank for each member of the one list that strictly increases and has
the given modifiers that are not implicit. Every declaration has its modifiers written in one place
only, so that it is the same template for both lists. -/
theorem modifiers_written_as_set (implicit : List Modifier) {ms ms' : List Modifier}
    (h : ∀ m, m ∈ ms ↔ m ∈ ms') :
    Modifier.text ms implicit = Modifier.text ms' implicit ∧
    (∃ l : List Modifier,
      (∀ l' : List Modifier, (l'.Pairwise (· < ·) ∧ ∀ m, m ∈ l' ↔ m ∈ ms ∧ m ∉ implicit) ↔
        l' = l) ∧
      l = (Modifier.sort (ms.filter fun m => !implicit.contains m)).destutter (· ≠ ·) ∧
      Modifier.text ms implicit = String.join (l.map fun m => m.keyword ++ " ")) ∧
    (∀ build, WritesModifiers implicit build → build ms = build ms') ∧
    (∀ p : ParameterDecl, WritesModifiers [] fun ms => { p with modifiers := ms }.template) ∧
    (∀ p : PropertyDecl, WritesModifiers [] (fun ms => { p with modifiers := ms }.template) ∧
      WritesModifiers [.isPublic] fun ms => { p with modifiers := ms }.member) ∧
    (∀ f : FunctionDecl, WritesModifiers [.isPublic] (fun ms => { f with modifiers := ms }.member) ∧
      WritesModifiers (if f.kind.standsAlone then [] else [.isPublic])
        fun ms => { f with modifiers := ms }.template) ∧
    ∀ i : InterfaceDecl, WritesModifiers [] fun ms => { i with modifiers := ms }.template := by
  have hwritten := Modifier.written_eq_of_mem_iff h implicit
  refine ⟨by rw [Modifier.text, Modifier.text, hwritten], ?_, ?_, WritesModifiers.parameter, ?_, ?_,
    WritesModifiers.interface⟩
  · refine ⟨Modifier.written ms implicit, ?_, Modifier.written_eq_destutter ms implicit, rfl⟩
    intro l'
    constructor
    · rintro ⟨hl, hmem⟩
      apply hl.eq_of_mem_iff (Modifier.pairwise_written ms implicit)
      intro m
      rw [hmem, Modifier.mem_written_iff]
    · rintro rfl
      exact ⟨Modifier.pairwise_written ms implicit, fun m => Modifier.mem_written_iff m ms implicit⟩
  · exact fun build hbuild => hbuild.eq_of_mem_iff h
  · exact fun p => ⟨WritesModifiers.property p, WritesModifiers.propertyMember p⟩
  · exact fun f => ⟨WritesModifiers.functionMember f, WritesModifiers.function f⟩

/-- Repeated and out of order, with one that members of an interface do not write. -/
theorem modifiers_written_as_set_repeated :
    let ms : List Modifier := [.isAsync, .isPublic, .exported, .isAsync]
    let ms' : List Modifier := [.exported, .isAsync, .isPublic]
    (∀ m, m ∈ ms ↔ m ∈ ms') ∧
      Modifier.text ms [.isPublic] = Modifier.text ms' [.isPublic] ∧
      Modifier.text ms [.isPublic] = "export async " := by
  intro ms ms'
  have h : ∀ m, m ∈ ms ↔ m ∈ ms' := by
    intro m
    cases m <;> decide
  exact ⟨h, (modifiers_written_as_set [.isPublic] h).1, by decide⟩

end TypeScriptComposer
