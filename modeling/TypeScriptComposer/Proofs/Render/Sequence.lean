import TypeScriptComposer.Proofs.Render.Levels
import TypeScriptComposer.Proofs.Template.Joined
import TypeScriptComposer.Proofs.Writing.Resuming

/-!
# Rendering one template after another

A template that ends without an open block is a sequence with what follows it: their texts on level
zero stand one behind the other, and the second one is rendered in the context that the first one
leaves. So a list of templates is rendered member by member, whatever the texts are.
-/

set_option autoImplicit false

namespace TypeScriptComposer

namespace Template

/-- A part alone does what it does apart from its surroundings, unless it ends with indentation. -/
theorem script_singleton {p : Part} (h : p.held? = none) : Template.script [p] = p.script := by
  have hplaced : p.placed none p.script = p.script := by
    cases p with
    | text s =>
      have hopens : opensBlock s = false := by simpa [Part.held?] using h
      simp [Part.placed, hopens]
    | _ => rfl
  rw [script, scriptAfter, hplaced, h, scriptAfter, Option.map_none, Option.toList_none,
    List.append_nil]

@[simp] theorem script_nested (t : Template) : Template.script [.nested t] = t.script :=
  script_singleton rfl

@[simp] theorem script_list (items : List Part) (separator : String) :
    Template.script [.list items separator] = Part.scriptOfItems separator items :=
  script_singleton rfl

/-- In front of anything but a block the indentation that a text ends with is kept. -/
theorem script_text_cons_of_not_block (s : String) {t : Template}
    (h : t.head?.any Part.isBlock = false) :
    Template.script (.text s :: t) = Template.script (.nested [.text s] :: t) := by
  cases hopens : opensBlock s with
  | false => simp [script, scriptAfter, Part.placed, Part.script, Part.held?, hopens]
  | true =>
    simp [script, scriptAfter, Part.placed, Part.script, Part.held?, hopens,
      scriptAfter_of_not_block h (some _)]

end Template

theorem Writing.perform_text (outputs : Outputs) (s : String) (w : Writing) :
    perform outputs (Template.script [.text s]) w = w.write s := by
  cases hopens : opensBlock s with
  | false =>
    rw [Template.script_singleton (by simp [Part.held?, hopens]), Part.script, perform, perform]
  | true =>
    have hscript : Template.script [.text s] =
        [.write (throughLastBreak s), .write (afterLastBreak s)] := by
      simp [Template.script, Template.scriptAfter, Part.placed, Part.held?, hopens]
    rw [hscript, perform, perform, perform, write, write, write, ← Writer.write_append,
      throughLastBreak_append_afterLastBreak]

namespace Context
variable (outputs : Outputs) (c : Context)

theorem indent_renderIn (t : Template) (level : Nat) :
    (c.renderIn outputs t level).2.indent = c.indent := rfl

/-- On level zero a template ends on level zero, wherever it leaves the line. -/
theorem resumes_start (t : Template) :
    let w := (Writing.perform outputs t.script (c.writing 0)).writer
    w.Resumes w.text (.start c.indent 0) := by
  intro w
  have hcourse : Course outputs t.script (c.events outputs t) :=
    Writing.course_events outputs t.script _
  have hwriter : w = (c.events outputs t).foldl Event.write (.start c.indent 0) :=
    Writing.writer_perform outputs t.script (c.writing 0)
  obtain ⟨hlevel, hshifted⟩ := hcourse.shifted (Template.settles_script t) (Nat.zero_le _)
    (Writer.Shifted.start c.indent 0 0)
  rw [← hwriter] at hlevel
  refine ⟨?_, hlevel, by simp [Writer.start], Or.inl hlevel⟩
  rw [hwriter]
  exact hshifted.left

/-- What stands behind a template that leaves no block open is written behind its text. -/
theorem renderIn_append {front : Template} (h : front.held? = none) (back : Template) :
    c.renderIn outputs (front ++ back) 0 =
      let (text, c) := c.renderIn outputs front 0
      let (more, c) := c.renderIn outputs back 0
      (text ++ more, c) := by
  let w := Writing.perform outputs front.script (c.writing 0)
  let between := (c.renderIn outputs front 0).2
  have hwriter : w = (between.writing 0).onWriter w.writer := rfl
  have hperform : Writing.perform outputs (front ++ back).script (c.writing 0) =
      (Writing.perform outputs back.script (between.writing 0)).onWriter
        ((between.events outputs back).foldl Event.write w.writer) := by
    rw [Template.script_append_of_held?_eq_none h, Writing.perform_append,
      ← between.perform_script outputs back w.writer, ← hwriter]
  -- the second template goes on where the first one stops, perhaps in the middle of a line
  have hresumes : ((between.events outputs back).foldl Event.write w.writer).Resumes w.writer.text
      ((between.events outputs back).foldl Event.write (.start c.indent 0)) :=
    Writing.resumes_events back.raisesOnLines_script (c.resumes_start outputs front) (by simp)
  refine Prod.ext ((congrArg (·.writer.text) hperform).trans ?_)
    (congrArg (fun w : Writing => { c with tracker := w.tracker, registry := w.registry }) hperform)
  exact hresumes.text.trans
    (congrArg (w.writer.text ++ ·) (between.text_renderIn outputs back 0).symm)

@[simp] theorem renderIn_nil : c.renderIn outputs [] 0 = ("", c) := by
  simp [renderIn, Template.script, Template.scriptAfter, Writing.perform, Writer.start]

theorem renderIn_congr_script {t t' : Template} (h : t.script = t'.script) (level : Nat) :
    c.renderIn outputs t level = c.renderIn outputs t' level := by
  rw [renderIn, renderIn, h]

@[simp] theorem renderIn_nested (t : Template) (level : Nat) :
    c.renderIn outputs [.nested t] level = c.renderIn outputs t level :=
  c.renderIn_congr_script outputs (Template.script_nested t) level

theorem renderIn_text (s : String) : c.renderIn outputs [.text s] 0 = (s, c) := by
  have htext := Writer.text_write_of_level_zero (w := .start c.indent 0) rfl s
  simp only [renderIn, Writing.perform_text, Writing.write, htext]
  simp [Writer.start]

/-- A part that leaves no block open is written on its own. -/
theorem renderIn_cons {p : Part} (h : p.held? = none) (t : Template) :
    c.renderIn outputs (p :: t) 0 =
      let (text, c) := c.renderIn outputs [p] 0
      let (more, c) := c.renderIn outputs t 0
      (text ++ more, c) := by
  rw [← List.singleton_append, renderIn_append outputs c (by simpa [Template.held?] using h)]

theorem renderIn_nested_cons (t u : Template) : c.renderIn outputs (.nested t :: u) 0 =
    let (text, c) := c.renderIn outputs t 0
    let (more, c) := c.renderIn outputs u 0
    (text ++ more, c) := by
  rw [renderIn_cons outputs c rfl, renderIn_nested]

theorem renderIn_text_cons {s : String} (h : opensBlock s = false) (t : Template) :
    c.renderIn outputs (.text s :: t) 0 =
      (s ++ (c.renderIn outputs t 0).1, (c.renderIn outputs t 0).2) := by
  rw [renderIn_cons outputs c (by simp [Part.held?, h]), renderIn_text]

theorem renderIn_text_cons_of_not_block (s : String) {t : Template}
    (h : t.head?.any Part.isBlock = false) :
    c.renderIn outputs (.text s :: t) 0 =
      (s ++ (c.renderIn outputs t 0).1, (c.renderIn outputs t 0).2) := by
  rw [renderIn_congr_script outputs c (Template.script_text_cons_of_not_block s h),
    renderIn_nested_cons, renderIn_text]

theorem renderIn_block_cons {s : String} (h : opensBlock s = true) (t u : Template) :
    c.renderIn outputs (.text s :: .nested t :: u) 0 =
      let (text, c') := c.renderIn outputs t 0
      let (more, c') := c'.renderIn outputs u 0
      (throughLastBreak s ++ indented c.indent.unit text ++ more, c') := by
  have hsplit : (.text s :: .nested t :: u : Template) = [.text s, .nested t] ++ u := rfl
  rw [hsplit, renderIn_append outputs c rfl, renderIn_block outputs c t h,
    renderIn_level outputs c t 1, Indent.margin_one]

/-- Templates one after the other: each is rendered on level zero, in the context that the ones in
front of it leave. -/
def renderEach (outputs : Outputs) : Context → List Template → List String × Context
  | c, [] => ([], c)
  | c, t :: ts =>
    let (text, c) := c.renderIn outputs t 0
    let (texts, c) := c.renderEach outputs ts
    (text :: texts, c)

variable {outputs : Outputs} {c : Context}

theorem renderEach_append (ts us : List Template) : c.renderEach outputs (ts ++ us) =
    let (texts, c) := c.renderEach outputs ts
    let (more, c) := c.renderEach outputs us
    (texts ++ more, c) := by
  induction ts generalizing c with
  | nil => rfl
  | cons t ts ih => simp only [List.cons_append, renderEach, ih]

/-- What holds of every text that the templates can have holds of the texts that they get. -/
theorem forall_mem_renderEach {P : String → Prop} {ts : List Template}
    (h : ∀ t ∈ ts, ∀ c : Context, P (c.renderIn outputs t 0).1) :
    ∀ s ∈ (c.renderEach outputs ts).1, P s := by
  induction ts generalizing c with
  | nil => simp [renderEach]
  | cons t ts ih =>
    obtain ⟨ht, hts⟩ := List.forall_mem_cons.mp h
    simp only [renderEach]
    exact List.forall_mem_cons.mpr ⟨ht c, ih hts⟩

theorem renderEach_map_nested (ts : List Template) :
    c.renderEach outputs (ts.map fun t => [.nested t]) = c.renderEach outputs ts := by
  induction ts generalizing c with
  | nil => rfl
  | cons t ts ih => simp only [List.map_cons, renderEach, renderIn_nested, ih]

theorem renderIn_list_singleton (p : Part) (separator : String) :
    c.renderIn outputs [.list [p] separator] 0 = c.renderIn outputs [p] 0 := by
  cases hheld : p.held? with
  | none =>
    apply renderIn_congr_script
    rw [Template.script_list, Part.scriptOfItems, Part.scriptOfRest, List.append_nil,
      Template.script_singleton hheld]
  | some held =>
    cases p with
    | text s =>
      have hscript : Template.script [.list [.text s] separator] = [.write s] := by
        simp [Part.scriptOfItems, Part.scriptOfRest, Part.script]
      apply renderIn_congr
      rw [hscript, Writing.perform_text, Writing.perform, Writing.perform]
    | _ => cases hheld

/-- The items of a list are rendered one after the other, with the separator between them. -/
theorem renderIn_list {separator : String} (h : opensBlock separator = false)
    (items : List Part) :
    c.renderIn outputs [.list items separator] 0 =
      let (texts, c) := c.renderEach outputs (items.map ([·]))
      (separator.intercalate texts, c) := by
  induction items generalizing c with
  | nil =>
    have hscript : Template.script [.list [] separator] = Template.script [] := by
      rw [Template.script_list]
      rfl
    rw [renderIn_congr_script outputs c hscript, renderIn_nil]
    rfl
  | cons p ps ih =>
    cases ps with
    | nil =>
      rw [renderIn_list_singleton]
      simp [renderEach]
    | cons q qs =>
      have hscript : Template.script [.list (p :: q :: qs) separator] =
          Template.script [.list [p] separator, .text separator, .list (q :: qs) separator] := by
        simp [Template.script, Template.scriptAfter, Part.placed, Part.held?, Part.script,
          Part.scriptOfItems, Part.scriptOfRest, h]
      rw [renderIn_congr_script outputs c hscript, renderIn_cons outputs c rfl,
        renderIn_list_singleton]
      simp only [renderIn_text_cons outputs _ h, ih, renderEach, List.map_cons,
        String.intercalate_cons_cons, String.append_assoc]

theorem renderIn_list_nested {separator : String} (h : opensBlock separator = false)
    (ts : List Template) :
    c.renderIn outputs [.list (ts.map .nested) separator] 0 =
      let (texts, c) := c.renderEach outputs ts
      (separator.intercalate texts, c) := by
  rw [renderIn_list h, List.map_map, ← renderEach_map_nested ts]
  rfl

/-- Nested templates one behind the other are rendered member by member. -/
theorem renderIn_map_nested_append (ts : List Template) (u : Template) :
    c.renderIn outputs (ts.map .nested ++ u) 0 =
      let (texts, c) := c.renderEach outputs ts
      let (more, c) := c.renderIn outputs u 0
      (String.join texts ++ more, c) := by
  induction ts generalizing c with
  | nil => simp [renderEach]
  | cons t ts ih =>
    rw [List.map_cons, List.cons_append, renderIn_nested_cons]
    simp only [renderEach, ih, String.join_cons, String.append_assoc]

/-- The same with a line break in front of each of them. -/
theorem renderIn_flatMap_nested_append (ts : List Template) (u : Template) :
    c.renderIn outputs ((ts.flatMap fun t => [.text "\n", .nested t]) ++ u) 0 =
      let (texts, c) := c.renderEach outputs ts
      let (more, c) := c.renderIn outputs u 0
      (String.join (texts.map ("\n" ++ ·)) ++ more, c) := by
  have hbreak : opensBlock "\n" = false := by decide
  induction ts generalizing c with
  | nil => simp [renderEach]
  | cons t ts ih =>
    have hcons : ((t :: ts).flatMap fun t => [Part.text "\n", .nested t]) ++ u =
        .text "\n" :: .nested t :: ((ts.flatMap fun t => [.text "\n", .nested t]) ++ u) := rfl
    rw [hcons, renderIn_text_cons outputs c hbreak, renderIn_nested_cons]
    simp only [renderEach, ih, List.map_cons, String.join_cons, String.append_assoc]

end Context

end TypeScriptComposer
