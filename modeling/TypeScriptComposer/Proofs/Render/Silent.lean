import TypeScriptComposer.Proofs.Render.Levels
import TypeScriptComposer.Proofs.Render.PlainText
import TypeScriptComposer.Proofs.Template.Joined

/-!
# Parts that print nothing

A use that has been noted before and the site of a declaration that has been written print nothing
and change nothing. Still, such a part stands between its neighbours, and where they decide a layout
together it comes in between: a block is indented only directly behind the text that opens it, and
the indentation held back there is dropped in front of a site. Everywhere else the part may be left
out.
-/

set_option autoImplicit false

namespace TypeScriptComposer

namespace Part

/-- Whether a part prints nothing and changes nothing when the outputs are in the states of `r`: a
use of an output that has been used, or a site of one that has been declared. -/
def isSilent (r : Registry) : Part → Bool
  | .reference o => r.state o != .unreferenced
  | .declaration o => r.state o == .emitted
  | _ => false

/-- Whether `p` may stand between two templates without coming between an opening text and what it
opens: no text in front of it opens a block, or none of the parts behind it is the block and a site
finds no indentation to drop. -/
def KeepsLayout (front : Template) (p : Part) (back : Template) : Prop :=
  front.held? = none ∨
    back.head?.any isBlock = false ∧ (p.isBlock = true → front.held? = some "")

/-- A part of the same kind that has nothing to print. -/
def emptied : Part → Part
  | .declaration _ => .nested []
  | _ => .text ""

variable {p : Part} {r r' : Registry}

theorem isSilent_cases (h : p.isSilent r = true) :
    (∃ o, p = .reference o ∧ r.state o ≠ .unreferenced) ∨
      ∃ o, p = .declaration o ∧ r.state o = .emitted := by
  cases p with
  | reference o => exact Or.inl ⟨o, rfl, by simpa [isSilent] using h⟩
  | declaration o => exact Or.inr ⟨o, rfl, by simpa [isSilent] using h⟩
  | _ => simp [isSilent] at h

/-- Outputs only go forward, so that a silent part stays silent. -/
theorem isSilent_of_trace {calls : List Registry.Call} (h : p.isSilent r = true)
    (htrace : r.Trace calls r') : p.isSilent r' = true := by
  rcases isSilent_cases h with ⟨o, rfl, hused⟩ | ⟨o, rfl, hemitted⟩
  · simpa [isSilent] using (htrace.used_iff o).mpr (Or.inl hused)
  · simpa [isSilent] using (htrace.emitted_iff o).mpr (Or.inl hemitted)

end Part

namespace Writing
variable {outputs : Outputs} {w : Writing} {p : Part}

theorem reference_of_used {o : OutputId} (h : w.registry.state o ≠ .unreferenced) :
    w.reference o = w := by
  cases hstate : w.registry.state o with
  | unreferenced => exact (h hstate).elim
  | _ => simp [reference, Registry.reference, hstate]

theorem registry_perform_held (held : Option String) :
    (perform outputs (held.map Action.write).toList w).registry = w.registry := by
  cases held with
  | none => rw [Option.map_none, Option.toList_none, perform]
  | some s => rw [Option.map_some, Option.toList_some, perform, perform]; rfl

theorem perform_raise_lower : perform outputs [.raise, .lower] w = w := by
  rw [perform, perform, perform]
  rfl

/-- Of a silent part only its place is left: a use lets the indentation in front of it be written,
and a site lets it be dropped. -/
theorem perform_placed_of_isSilent (h : p.isSilent w.registry = true) (held : Option String) :
    perform outputs (p.placed held p.script) w =
      if p.isBlock then w else perform outputs (held.map Action.write).toList w := by
  rcases Part.isSilent_cases h with ⟨o, rfl, hused⟩ | ⟨o, rfl, hemitted⟩
  · have hplaced : (Part.reference o).placed held (Part.reference o).script =
        (held.map Action.write).toList ++ [.reference o] := by
      simp [Part.placed, Part.isBlock, Part.script]
    rw [hplaced, perform_append, perform, perform, reference_of_used]
    · rfl
    · rwa [registry_perform_held]
  · have hnot (v : Writing) (hv : v.registry = w.registry) : v.isDue outputs o = false := by
      simp [isDue, hv, hemitted]
    cases held with
    | none =>
      change perform outputs [.declare o] w = w
      rw [perform_declare_of_not_isDue (hnot w rfl), perform]
    | some s =>
      change perform outputs [.raise, .declare o, .lower] w = w
      rw [perform, perform_declare_of_not_isDue (hnot { w with writer := w.writer.raise } rfl),
        perform, perform]
      rfl

theorem perform_placed_emptied (h : p.isSilent w.registry = true) (held : Option String) :
    perform outputs (p.emptied.placed held p.emptied.script) w =
      if p.isBlock then w else perform outputs (held.map Action.write).toList w := by
  rcases Part.isSilent_cases h with ⟨o, rfl, -⟩ | ⟨o, rfl, -⟩
  · have hplaced : (Part.text "").placed held (Part.text "").script =
        (held.map Action.write).toList ++ [.write ""] := by
      have hopens : opensBlock "" = false := rfl
      simp [Part.placed, Part.isBlock, Part.script, hopens]
    change perform outputs ((Part.text "").placed held (Part.text "").script) w = _
    rw [hplaced, perform_append, perform, perform]
    rfl
  · have hscript : (Part.nested []).script = [] := rfl
    change perform outputs ((Part.nested []).placed held (Part.nested []).script) w = w
    rw [hscript]
    cases held with
    | none => exact perform.eq_1 outputs w
    | some s => exact perform_raise_lower

section
variable (front back : Template)

/-- The parts in front leave a silent part silent. -/
theorem isSilent_perform (outputs : Outputs) (h : p.isSilent w.registry = true)
    (actions : List Action) : p.isSilent (perform outputs actions w).registry = true :=
  Part.isSilent_of_trace h (trace_perform outputs actions w)

theorem perform_insert_emptied (h : p.isSilent w.registry = true) :
    perform outputs (Template.script (front ++ p :: back)) w =
      perform outputs (Template.script (front ++ p.emptied :: back)) w := by
  have hfront := isSilent_perform outputs h (Template.scriptBefore none front)
  have hheld : p.held? = none ∧ p.emptied.held? = none := by
    rcases Part.isSilent_cases h with ⟨o, rfl, -⟩ | ⟨o, rfl, -⟩ <;> exact ⟨rfl, rfl⟩
  simp only [Template.script_append, Template.scriptAfter, perform_append, hheld.1, hheld.2,
    perform_placed_of_isSilent hfront, perform_placed_emptied hfront]

theorem perform_insert_of_isSilent (h : p.isSilent w.registry = true)
    (hkeeps : p.KeepsLayout front back) :
    perform outputs (Template.script (front ++ p :: back)) w =
      perform outputs (Template.script (front ++ back)) w := by
  have hfront := isSilent_perform outputs h (Template.scriptBefore none front)
  have hheld : p.held? = none := by
    rcases Part.isSilent_cases h with ⟨o, rfl, -⟩ | ⟨o, rfl, -⟩ <;> rfl
  simp only [Template.script_append, Template.scriptAfter, perform_append, hheld,
    perform_placed_of_isSilent hfront]
  generalize perform outputs (Template.scriptBefore none front) w = v
  rcases hkeeps with hnone | ⟨hback, hsite⟩
  · rw [hnone]
    simp only [Option.map_none, Option.toList_none, perform, ite_self]
  · rw [Template.scriptAfter_of_not_block hback front.held?, perform_append]
    split
    · rename_i hblock
      have hempty : perform outputs [.write ""] v = v := by
        rw [perform, perform]
        rfl
      rw [hsite hblock]
      change perform outputs (Template.scriptAfter none back) v =
        perform outputs (Template.scriptAfter none back) (perform outputs [.write ""] v)
      rw [hempty]
    · rfl

end

end Writing

namespace Transcript
variable {outputs : Outputs} {p : Part} {x : Transcript}

theorem add_of_isSilent (h : p.isSilent x.registry = true) (rest : List Part) :
    add outputs (p :: rest) x = add outputs rest x := by
  rcases Part.isSilent_cases h with ⟨o, rfl, hused⟩ | ⟨o, rfl, hemitted⟩
  · have hsame : x.reference o = x :=
      congrArg (fun w : Writing => (⟨w.tracker, w.registry, x.text⟩ : Transcript))
        (Writing.reference_of_used (w := x.on (.start .tab 0)) hused)
    rw [add, hsame]
  · have hnot : x.isDue outputs o = false := by simp [isDue, hemitted]
    rw [add, dif_neg (by simp [hnot])]

end Transcript

namespace Context
variable {outputs : Outputs} {c : Context} {p : Part}

theorem plainIn_insert_of_isSilent (outputs : Outputs) (front back : Template)
    (h : p.isSilent c.registry = true) :
    c.plainIn outputs (front ++ p :: back) = c.plainIn outputs (front ++ back) := by
  obtain ⟨v, hfront⟩ := c.perform_eq_plain outputs front (.start c.indent 0)
  have hsilent : p.isSilent (c.transcript.add outputs front).registry = true := by
    have hperform := Writing.isSilent_perform outputs
      (w := c.transcript.on (.start c.indent 0)) h front.script
    rwa [hfront] at hperform
  have hadd : c.transcript.add outputs (front ++ p :: back) =
      c.transcript.add outputs (front ++ back) := by
    rw [Transcript.add_append, Transcript.add_append, Transcript.add_of_isSilent hsilent]
  exact congrArg (fun x : Transcript =>
    (x.text, { c with tracker := x.tracker, registry := x.registry })) hadd

theorem bareLines_renderIn (c : Context) (t : Template) (level : Nat) :
    bareLines (c.renderIn outputs t level).1.toList =
      bareLines (c.plainIn outputs t).1.toList := by
  obtain ⟨v, htext, hv⟩ := c.exists_writer_of_tracking SameLines.tracking t level
    ⟨rfl, rfl, by simp⟩ (fun h => (h trivial).elim) fun o _ _ h => (h trivial).elim
  rw [htext]
  exact hv.lines

end Context

/-- What a silent part between two templates does to a render. It changes neither the context that
the render leaves nor any line but for the blanks it begins with, and where it keeps the layout it
changes nothing at all. In any place it does what an empty text or an empty nested template does. -/
theorem renderIn_insert_silent (outputs : Outputs) {c : Context} {p : Part}
    (h : p.isSilent c.registry = true) (front back : Template) (level : Nat) :
    let inserted := c.renderIn outputs (front ++ p :: back) level
    let without := c.renderIn outputs (front ++ back) level
    inserted.2 = without.2 ∧
    bareLines inserted.1.toList = bareLines without.1.toList ∧
    (p.KeepsLayout front back → inserted = without) ∧
    inserted = c.renderIn outputs (front ++ p.emptied :: back) level := by
  intro inserted without
  have hplain := Context.plainIn_insert_of_isSilent outputs front back h
  refine ⟨?_, ?_, ?_, ?_⟩
  · exact (c.context_renderIn_eq_plainIn _ level).trans
      ((congrArg Prod.snd hplain).trans (c.context_renderIn_eq_plainIn _ level).symm)
  · rw [c.bareLines_renderIn, c.bareLines_renderIn, hplain]
  · intro hkeeps
    exact Context.renderIn_congr
      (Writing.perform_insert_of_isSilent (w := c.writing level) front back h hkeeps)
  · exact Context.renderIn_congr
      (Writing.perform_insert_emptied (w := c.writing level) front back h)

/-- Behind a text that opens a block and keeps nothing back, in front of another text, a site that
is done with may be left out. -/
theorem renderIn_insert_silent_site :
    let c : Context := { Context.ofSettings .standard with registry := .set .empty 0 .emitted }
    let front : Template := [.text "a\x7b\n"]
    let back : Template := [.text "\x7d"]
    (Part.declaration 0).isSilent c.registry = true ∧
    c.renderIn [] (front ++ .declaration 0 :: back) 1 = c.renderIn [] (front ++ back) 1 ∧
    (c.renderIn [] (front ++ .declaration 0 :: back) 1).1 = "  a\x7b\n  \x7d" := by
  intro c front back
  have hsilent : (Part.declaration 0).isSilent c.registry = true := by decide
  have hkeeps : (Part.declaration 0).KeepsLayout front back := Or.inr ⟨rfl, fun _ => by decide⟩
  exact ⟨hsilent, (renderIn_insert_silent [] hsilent front back 1).2.2.1 hkeeps, by cbv⟩

/-- A silent part between a text that opens a block and the block takes the indentation away, and a
site drops the indentation that another text would be written behind. -/
theorem renderIn_insert_silent_unindents :
    let c : Context := { Context.ofSettings .standard with registry := .set .empty 0 .emitted }
    let front : Template := [.text "\x7b\n"]
    let back : Template := [.nested [.text "x"]]
    let indented : Template := [.text "\x7b\n  "]
    let word : Template := [.text "x"]
    (∀ p ∈ [Part.reference 0, Part.declaration 0], p.isSilent c.registry = true ∧
      (c.renderIn [] (front ++ p :: back) 0).1 = "\x7b\nx") ∧
    (c.renderIn [] (front ++ back) 0).1 = "\x7b\n  x" ∧
    (c.renderIn [] (indented ++ .declaration 0 :: word) 0).1 = "\x7b\nx" ∧
    (c.renderIn [] (indented ++ word) 0).1 = "\x7b\n  x" := by
  intro c front back indented word
  refine ⟨?_, by cbv, by cbv, by cbv⟩
  intro p hp
  rcases List.mem_pair.mp hp with rfl | rfl
  · exact ⟨by decide, by cbv⟩
  · exact ⟨by decide, by cbv⟩

end TypeScriptComposer
