import TypeScriptComposer.Proofs.Constraint.Reader
import TypeScriptComposer.Proofs.Render.PlainText

/-!
# The text of a constraint

The declaration of a type variable is its name and, behind `extends`, the texts of its bounds, each
but the first behind the mark of its combiner. The names in it are those of the tracker that has
seen all bounds, and the tokens of the text follow from the bounds, one after the other.
-/

set_option autoImplicit false

namespace TypeScriptComposer

open Token

def Combiner.mark : Combiner → Char
  | .union => '|'
  | .intersection => '&'

namespace Bound
variable (name : Symbol → String)

def spell (b : Bound) : String := (if b.keyOf then "keyof " else "") ++ b.type.spell name

def tokens (b : Bound) : List Token :=
  (if b.keyOf then [.word "keyof"] else []) ++ b.type.tokens name

/-- The bounds behind the first one, with the marks of their combiners. -/
def spellAll : List Bound → String
  | [] => ""
  | b :: bs => " " ++ b.combiner.token ++ " " ++ b.spell name ++ spellAll bs

def tokensOfAll (bs : List Bound) : List Token :=
  bs.flatMap fun b => .mark b.combiner.mark :: b.tokens name

variable {name}

theorem scans_spell {b : Bound} (h : b.type.isPlain name = true) :
    Scans (b.spell name).toList (b.tokens name) := by
  have htype : Scans (b.type.spell name).toList (b.type.tokens name) := TypeExpr.textScans b.type h
  unfold spell tokens
  cases b.keyOf with
  | false => simpa using htype
  | true =>
    rw [if_pos rfl, if_pos rfl, String.toList_append]
    exact (Scans.word (s := "keyof") rfl).append_blank htype

theorem scans_append_spellAll {bs : List Bound} (h : ∀ b ∈ bs, b.type.isPlain name = true)
    {front : String} {ts : List Token} (hfront : Scans front.toList ts) :
    Scans (front ++ spellAll name bs).toList (ts ++ tokensOfAll name bs) := by
  induction bs generalizing front ts with
  | nil => simpa [spellAll, tokensOfAll] using hfront
  | cons b bs ih =>
    obtain ⟨hb, hbs⟩ := List.forall_mem_cons.mp h
    have hbound : Scans (front ++ (" " ++ b.combiner.token ++ " " ++ b.spell name)).toList
        (ts ++ .mark b.combiner.mark :: b.tokens name) := by
      cases hcombiner : b.combiner
      all_goals
        simp only [Combiner.token, String.toList_append, List.append_assoc]
        exact hfront.append_blank (.mark_cons rfl (.blank_cons (scans_spell hb)))
    have hall := ih hbs hbound
    simpa [spellAll, tokensOfAll, String.append_assoc] using hall

end Bound

namespace Transcript
variable (outputs : Outputs)

theorem add_bound (b : Bound) (more : List Symbol) (x : Transcript) :
    add outputs b.template x = { x with
      tracker := x.tracker.registerAll b.type.symbols
      text := x.text ++ b.spell (x.tracker.registerAll (b.type.symbols ++ more)).nameOf } := by
  have hprint := TypeExpr.print_eq more b.type x.tracker
  cases hkeyOf : b.keyOf
  all_goals
    simp [Bound.template, Bound.spell, add, write, printType, hkeyOf, hprint,
      String.append_assoc]

theorem add_bounds (bs : List Bound) (x : Transcript) :
    add outputs (bs.flatMap fun b => [.text (" " ++ b.combiner.token ++ " "), .nested b.template]) x =
      { x with
        tracker := x.tracker.registerAll (bs.flatMap (·.type.symbols))
        text := x.text ++
          Bound.spellAll (x.tracker.registerAll (bs.flatMap (·.type.symbols))).nameOf bs } := by
  induction bs generalizing x with
  | nil => simp [add, Bound.spellAll]
  | cons b bs ih =>
    rw [List.flatMap_cons, List.cons_append, List.singleton_append, add, add, add_append,
      add_bound outputs b (bs.flatMap (·.type.symbols)), ih]
    simp [write, Bound.spellAll, Tracker.registerAll_append, String.append_assoc]

end Transcript

namespace TypeVariable
variable (outputs : Outputs) (c : Context) (parameter : String) (first : Bound) (rest : List Bound)

/-- No block stands behind a text that opens one, whatever the name of the variable is. -/
theorem isFlat_declaration (v : TypeVariable) : Template.isFlat v.declaration = true := by
  have hbound (b : Bound) : Template.isFlatAfter none b.template = true := by
    cases hkeyOf : b.keyOf
    all_goals
      simp [Bound.template, hkeyOf, Template.isFlatAfter, Part.isFlat, Part.held?, Part.isBlock]
  have hmark (b : Bound) : (Part.text (" " ++ b.combiner.token ++ " ")).held? = none := by
    cases b.combiner <;> rfl
  have hrest (bs : List Bound) : Template.isFlatAfter none (bs.flatMap fun b =>
      [.text (" " ++ b.combiner.token ++ " "), .nested b.template]) = true := by
    induction bs with
    | nil => rfl
    | cons b bs ih =>
      simp only [List.flatMap_cons, List.cons_append, Template.isFlatAfter, hmark]
      simpa [Part.isFlat, Part.held?, hbound] using ih
  obtain ⟨parameter, bounds⟩ := v
  cases bounds with
  | nil => simp [declaration, joinedBounds, Template.isFlat, Template.isFlatAfter, Part.isFlat]
  | cons b bs =>
    have hextends : (Part.text " extends ").held? = none := rfl
    simp only [declaration, joinedBounds, Template.isFlat, Template.isFlatAfter, hextends]
    simpa [Part.isFlat, Part.isBlock, Part.held?, hbound] using hrest bs

/-- The text of the declaration, and the tracker behind it. -/
theorem renderIn_declaration :
    let v : TypeVariable := ⟨parameter, first :: rest⟩
    let tracker := c.tracker.registerAll ((first :: rest).flatMap (·.type.symbols))
    (c.renderIn outputs v.declaration 0).1 = parameter ++ " extends " ++
      (first.spell tracker.nameOf ++ Bound.spellAll tracker.nameOf rest) ∧
    (c.renderIn outputs v.declaration 0).2.tracker = tracker := by
  intro v tracker
  have hdeclaration : v.declaration = .text parameter :: .text " extends " ::
      .nested first.template :: rest.flatMap fun b =>
        [.text (" " ++ b.combiner.token ++ " "), .nested b.template] := rfl
  have hadd : Transcript.add outputs v.declaration ⟨c.tracker, c.registry, ""⟩ =
      ⟨tracker, c.registry, parameter ++ " extends " ++
        (first.spell tracker.nameOf ++ Bound.spellAll tracker.nameOf rest)⟩ := by
    rw [hdeclaration, Transcript.add, Transcript.add, Transcript.add, Transcript.add_append,
      Transcript.add_bound outputs first (rest.flatMap (·.type.symbols)), Transcript.add_bounds]
    simp [Transcript.write, Tracker.registerAll_append, String.append_assoc, tracker]
  have hbodies : ∀ o, (c.plainIn outputs v.declaration).2.registry.state o = .emitted →
      c.registry.state o ≠ .emitted → ¬ False → Template.isFlat (outputs.body o) = true := by
    intro o hemitted hnot
    rw [Context.plainIn, hadd] at hemitted
    exact (hnot hemitted).elim
  obtain ⟨w, htext, -, hsame⟩ := Context.exists_writer_of_tracking SameText.tracking c
    v.declaration 0 ⟨rfl, by simp [Writer.start]⟩ (fun _ => isFlat_declaration v) hbodies
  rw [htext, Context.context_renderIn_eq_plainIn]
  rw [Context.plainIn, hadd] at hsame ⊢
  exact ⟨by simpa using hsame, rfl⟩

end TypeVariable

end TypeScriptComposer
