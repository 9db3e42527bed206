import TypeScriptComposer.Proofs.ImportBlock.Growth
import TypeScriptComposer.Proofs.Render.Sequence
import TypeScriptComposer.Proofs.Render.Written
import TypeScriptComposer.SourceFile

/-!
# Files and their members

A file is surveyed as a whole and then written member by member. A member at the end that uses no
output and declares no name changes nothing of what the survey finds, so that the members in front
of it are written as before; it can only add to the imports, or need as a value what they need as a
type.
-/

set_option autoImplicit false

namespace TypeScriptComposer

theorem Gathers.joinMembers {α : Type} {f : Action → List α} {ofPart : Part → List α}
    {ofParts : List Part → List α} (h : Gathers f ofPart ofParts) (ms : List Template) :
    ofParts (SourceFile.joinMembers ms) = ms.flatMap ofParts := by
  fun_induction SourceFile.joinMembers ms with
  | case1 => simp [h.nil]
  | case2 m => simp [h.cons, h.nested, h.nil]
  | case3 m ms _ ih => simp [h.cons, h.nested, h.text, ih]

/-- The members do what the items of a list do that has empty lines between them. -/
theorem SourceFile.script_joinMembers (ms : List Template) :
    Template.script (joinMembers ms) = Template.script [.list (ms.map .nested) "\n\n"] := by
  have hbreaks : opensBlock "\n\n" = false := by decide
  fun_induction joinMembers ms with
  | case1 => rfl
  | case2 m =>
    rw [Template.script_nested, Template.script_list]
    exact (List.append_nil _).symm
  | case3 m ms hne ih =>
    obtain ⟨n, ns, rfl⟩ := List.exists_cons_of_ne_nil hne
    rw [Template.script_list] at ih ⊢
    simpa [Template.script, Template.scriptAfter, Part.placed, Part.held?, Part.script,
      Part.scriptOfItems, Part.scriptOfRest, hbreaks] using ih

theorem intercalate_concat (separator : String) (texts : List String) (more : String) :
    separator.intercalate (texts ++ [more]) =
      separator.intercalate texts ++ (if texts.isEmpty then "" else separator) ++ more := by
  cases texts with
  | nil => simp
  | cons text texts =>
    rw [String.intercalate_append_of_ne_nil (List.cons_ne_nil _ _) (List.cons_ne_nil _ _),
      String.intercalate_singleton]
    simp

/-- What the survey of a template finds depends on its uses, its sites and the names it declares. -/
theorem Context.prepare_congr {outputs : Outputs} {c : Context} {t t' : Template}
    (hreferences : Template.references t' = Template.references t)
    (hsites : Template.sites t' = Template.sites t)
    (hsymbols : (Template.symbols t').filter c.tracker.declares =
      (Template.symbols t).filter c.tracker.declares) :
    c.prepare outputs t' = c.prepare outputs t := by
  have hsurvey : Survey.ofTemplate c.tracker outputs c.registry t' =
      Survey.ofTemplate c.tracker outputs c.registry t := by
    unfold Survey.ofTemplate Survey.visit
    rw [hreferences, hsites, hsymbols]
  unfold Context.prepare
  rw [hsurvey]

namespace Context
variable {outputs : Outputs} {c : Context}

theorem renderEach_eq_nil_iff (ts : List Template) :
    (c.renderEach outputs ts).1 = [] ↔ ts = [] := by
  cases ts <;> simp [renderEach]

theorem renderIn_joinMembers (ms : List Template) :
    c.renderIn outputs (SourceFile.joinMembers ms) 0 =
      ("\n\n".intercalate (c.renderEach outputs ms).1, (c.renderEach outputs ms).2) := by
  rw [renderIn_congr_script outputs c (SourceFile.script_joinMembers ms),
    renderIn_list_nested (by decide)]

theorem tracker_renderIn (t : Template) : (c.renderIn outputs t 0).2.tracker =
    c.tracker.registerAll ((c.events outputs t).flatMap Event.symbols) :=
  Writing.tracker_perform outputs t.script (c.writing 0)

/-- A template without declaration sites writes its own symbols and no others. -/
theorem symbols_events_of_no_sites {t : Template} (h : Template.sites t = []) :
    (c.events outputs t).flatMap Event.symbols = Template.symbols t := by
  have hsites : ∀ a ∈ t.script, a.site? = none := by
    intro a ha
    cases a with
    | declare o =>
      have ho := (Template.mem_sites_iff_script t o).mpr ha
      simp [h] at ho
    | _ => rfl
  have hall (actions : List Action) (w : Writing) (hnone : ∀ a ∈ actions, a.site? = none) :
      (Writing.events outputs actions w).flatMap Event.symbols =
        actions.flatMap Action.symbols := by
    induction actions generalizing w with
    | nil => rw [Writing.events]; rfl
    | cons a rest ih =>
      obtain ⟨ha, hrest⟩ := List.forall_mem_cons.mp hnone
      rw [Writing.events_cons_of_site? ha, List.flatMap_cons, List.flatMap_cons, ih _ hrest]
      rfl
  rw [← Template.flatMap_symbols_script, events, hall _ _ hsites]

end Context

namespace SourceFile
variable (outputs : Outputs) (f : SourceFile)

/-- The answer of preparing the file as a whole, and the context that all members are written in. -/
def prepare : Except Error Unit × Context :=
  (Context.ofSettings f.settings).prepare outputs f.template

/-- The texts of the members, each on its own on level zero, and the context behind the last one. -/
def memberTexts : List String × Context := (f.prepare outputs).2.renderEach outputs f.members

def page : Page where
  body := "\n\n".intercalate (f.memberTexts outputs).1
  imports := .ofTracker (f.memberTexts outputs).2.tracker f.settings.quote
  trailingNewline := f.settings.trailingNewline

theorem renderIn_template : (f.prepare outputs).2.renderIn outputs f.template 0 =
    ("\n\n".intercalate (f.memberTexts outputs).1, (f.memberTexts outputs).2) :=
  Context.renderIn_joinMembers f.members

theorem render_template : f.template.render outputs f.settings =
    (f.prepare outputs).1.map fun _ => f.page outputs := by
  have hwritten := f.renderIn_template outputs
  unfold Template.render page
  rw [prepare] at hwritten ⊢
  split
  · rename_i e c hprepare
    rw [hprepare]
    rfl
  · rename_i c hprepare
    rw [hprepare] at hwritten ⊢
    rw [hwritten]
    rfl

theorem render_eq : f.render outputs =
    (f.prepare outputs).1.map fun _ => (f.page outputs).file := by
  rw [render, Template.file, render_template]
  cases (f.prepare outputs).1 <;> rfl

variable {outputs f} {m : Template}

theorem render_eq_ok_iff {text : String} : f.render outputs = .ok text ↔
    (f.prepare outputs).1 = .ok () ∧ text = (f.page outputs).file := by
  rw [render_eq]
  cases (f.prepare outputs).1 with
  | error e => simp [Except.map]
  | ok => simp [Except.map, eq_comm]

/-- Nothing of the member at the end is seen by the survey. -/
theorem prepare_concat (hreferences : Template.references m = []) (hsites : Template.sites m = [])
    (hsymbols : ∀ s ∈ Template.symbols m, (Tracker.ofSettings f.settings).declares s = false) :
    { f with members := f.members ++ [m] }.prepare outputs = f.prepare outputs := by
  have hfilter : (Template.symbols m).filter (Tracker.ofSettings f.settings).declares = [] := by
    simpa [List.filter_eq_nil_iff] using hsymbols
  apply Context.prepare_congr
  · simp [template, Template.gathers_references.joinMembers, hreferences]
  · simp [template, Template.gathers_sites.joinMembers, hsites]
  · simp [template, Template.gathers_symbols.joinMembers, Context.ofSettings, hfilter]

theorem memberTexts_concat
    (h : { f with members := f.members ++ [m] }.prepare outputs = f.prepare outputs) :
    { f with members := f.members ++ [m] }.memberTexts outputs =
      let (texts, c) := f.memberTexts outputs
      let (text, c) := c.renderIn outputs m 0
      (texts ++ [text], c) := by
  rw [memberTexts, h, Context.renderEach_append]
  rfl

theorem page_concat
    (h : { f with members := f.members ++ [m] }.prepare outputs = f.prepare outputs) :
    { f with members := f.members ++ [m] }.page outputs =
      let (text, c) := (f.memberTexts outputs).2.renderIn outputs m 0
      ⟨(f.page outputs).body ++ (if f.members.isEmpty then "" else "\n\n") ++ text,
        .ofTracker c.tracker f.settings.quote, f.settings.trailingNewline⟩ := by
  have hempty : (f.memberTexts outputs).1.isEmpty = f.members.isEmpty := by
    rw [Bool.eq_iff_iff, List.isEmpty_iff, List.isEmpty_iff]
    exact Context.renderEach_eq_nil_iff f.members
  rw [page, memberTexts_concat h]
  simp only [intercalate_concat, hempty]
  rfl

theorem tracker_memberTexts (h : (f.prepare outputs).1 = .ok ()) :
    (f.memberTexts outputs).2.tracker.WellNamed ∧
      (f.memberTexts outputs).2.tracker.ownModule = (Tracker.ofSettings f.settings).ownModule := by
  have hrender : f.template.render outputs f.settings = .ok (f.page outputs) := by
    rw [render_template, h]
    rfl
  have hprepared : (f.prepare outputs).2.tracker.Prepared f.settings _ :=
    Template.prepared_opening hrender
  have hcontext := congrArg Prod.snd (f.renderIn_template outputs)
  have htracker : (f.memberTexts outputs).2.tracker = _ :=
    (congrArg Context.tracker hcontext).symm.trans (Context.tracker_renderIn f.template)
  rw [htracker]
  exact ⟨hprepared.wellNamed.registerAll _,
    (Tracker.ownModule_registerAll _ _).trans hprepared.ownModule⟩

end SourceFile

/-- A file that renders has the texts of its members as its body, with an empty line between two of
them; each text is what its member gives on level zero, in the context that the survey of the whole
file and the members in front have left. A further member that uses no output and declares no name
is written behind that body and leaves it as it is. Its imports are entered behind the former ones,
which keep their order, also in the block, and lose only the type marks of what the member needs as
a value. -/
theorem file_composed_of_members {outputs : Outputs} {f : SourceFile} {text : String}
    (h : f.render outputs = .ok text) :
    (f.prepare outputs).1 = .ok () ∧
    f.template.render outputs f.settings = .ok (f.page outputs) ∧
    text = (f.page outputs).file ∧
    ∀ m : Template, Template.references m = [] → Template.sites m = [] →
      (∀ s ∈ Template.symbols m, (Tracker.ofSettings f.settings).declares s = false) →
      let longer : SourceFile := { f with members := f.members ++ [m] }
      let added := (f.memberTexts outputs).2.renderIn outputs m 0
      let uses := (Template.symbols m).map Tracker.Operation.register
      let kept := (Tracker.ofSettings f.settings).entryAfter uses
      longer.render outputs = .ok (longer.page outputs).file ∧
      longer.memberTexts outputs = ((f.memberTexts outputs).1 ++ [added.1], added.2) ∧
      (longer.page outputs).body =
        (f.page outputs).body ++ (if f.members.isEmpty then "" else "\n\n") ++ added.1 ∧
      (f.memberTexts outputs).2.tracker.imports.map kept <+: added.2.tracker.imports ∧
      (f.page outputs).imports.modules <+: (longer.page outputs).imports.modules ∧
      ((f.page outputs).imports.entries.map kept).Sublist (longer.page outputs).imports.entries := by
  obtain ⟨hok, htext⟩ := SourceFile.render_eq_ok_iff.mp h
  refine ⟨hok, by rw [SourceFile.render_template, hok]; rfl, htext, ?_⟩
  intro m hreferences hsites hsymbols longer added uses kept
  have hprepare : longer.prepare outputs = f.prepare outputs :=
    SourceFile.prepare_concat hreferences hsites hsymbols
  have hpage := SourceFile.page_concat hprepare
  obtain ⟨hwell, hown⟩ := SourceFile.tracker_memberTexts hok
  have hadded : added.2.tracker = (f.memberTexts outputs).2.tracker.run uses := by
    rw [Context.tracker_renderIn, Context.symbols_events_of_no_sites hsites,
      Tracker.registerAll_eq_run]
  have hafter : (Tracker.ofSettings f.settings).entryAfter uses =
      (f.memberTexts outputs).2.tracker.entryAfter uses := by
    funext e
    rw [Tracker.entryAfter, Tracker.entryAfter, Tracker.registrations_congr hown]
  have hentries := hwell.prefix_imports_run uses
  have hgrows := ImportBlock.grows_run hwell f.settings.quote uses
  rw [← hadded, ← hafter] at hentries hgrows
  refine ⟨?_, SourceFile.memberTexts_concat hprepare, ?_, hentries, ?_, ?_⟩
  · exact SourceFile.render_eq_ok_iff.mpr ⟨by rw [hprepare, hok], rfl⟩
  · rw [hpage]
  · rw [hpage]
    exact hgrows.1
  · rw [hpage]
    exact hgrows.2

/-- The first member ends with an open bracket and the third one opens a block; the third one needs
as a value what the second one imports as a type. -/
theorem file_composed_of_members_shared :
    let b := Symbol.named "B" "./b"
    let f : SourceFile := ⟨"f", .standard, [[.symbol (.named "A" "./a"), .text " (\n"],
      [.type (.ofSymbol b.asType)]]⟩
    let m : Template := [.text "x(\n  ", .nested [.symbol b, .symbol (.named "A" "./c")]]
    let longer : SourceFile := { f with members := f.members ++ [m] }
    f.render [] = .ok (f.page []).file ∧
    (longer.page []).body = "A (\n\n\nB" ++ "\n\n" ++ "x(\n  BA1" ∧
    (f.page []).imports.entries.map (·.typeOnly) = [false, true] ∧
    (longer.page []).imports.entries.map (·.typeOnly) = [false, false, false] := by
  intro b f m longer
  have hok : (f.prepare []).1 = .ok () := by cbv
  have h : f.render [] = .ok (f.page []).file := by
    rw [SourceFile.render_eq, hok]
    rfl
  obtain ⟨-, -, -, hconcat⟩ := file_composed_of_members h
  obtain ⟨-, -, hlonger, -⟩ := hconcat m rfl rfl (by decide)
  have hbody : (f.page []).body = "A (\n\n\nB" := by cbv
  have hadded : ((f.memberTexts []).2.renderIn [] m 0).1 = "x(\n  BA1" := by cbv
  refine ⟨h, ?_, ?_, ?_⟩
  · rw [hlonger, hbody, hadded]
    rfl
  · cbv
  · cbv

end TypeScriptComposer
