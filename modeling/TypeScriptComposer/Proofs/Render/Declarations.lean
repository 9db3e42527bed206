import Mathlib.Data.List.Nodup
import TypeScriptComposer.Page
import TypeScriptComposer.Proofs.Survey.Live
import TypeScriptComposer.Proofs.Writing.Events

/-!
# Which declarations are written

The survey and the writing of a template decide on their own which declarations are written: the
survey by a worklist, the writing by the states that the outputs have at the declaration sites. Both
come to the live outputs. After the survey every use in written text is already noted, so that the
writing changes no state but by emitting; hence a site that it reaches is due exactly when its
output is live and has not been emitted yet.
-/

set_option autoImplicit false

namespace TypeScriptComposer

/-- The action belongs to the root or to the declaration of a live output. -/
def InWrittenText (outputs : Outputs) (r : Registry) (root : Template) (a : Action) : Prop :=
  a ∈ root.script ∨ ∃ o ∈ liveOutputs outputs r root, a ∈ Template.script (outputs.body o)

section Survey
variable {tracker : Tracker} {outputs : Outputs} {r : Registry} {root : Template}

theorem mentionedIn_references {a : Action} (ha : InWrittenText outputs r root a) {o : OutputId}
    (ho : o ∈ a.references) :
    MentionedIn Template.references outputs root (liveOutputs outputs r root) o := by
  rcases ha with ha | ⟨p, hp, ha⟩
  · exact Or.inl ((Template.mem_references_iff_script root o).mpr ⟨a, ha, ho⟩)
  · exact Or.inr ⟨p, hp, (Template.mem_references_iff_script _ o).mpr ⟨a, ha, ho⟩⟩

theorem mentionedIn_sites {o : OutputId} (ha : InWrittenText outputs r root (.declare o)) :
    MentionedIn Template.sites outputs root (liveOutputs outputs r root) o := by
  rcases ha with ha | ⟨p, hp, ha⟩
  · exact Or.inl ((Template.mem_sites_iff_script root o).mpr ha)
  · exact Or.inr ⟨p, hp, (Template.mem_sites_iff_script _ o).mpr ha⟩

theorem used_ofTemplate_iff (tracker : Tracker) (outputs : Outputs) (r : Registry)
    (root : Template) (o : OutputId) :
    (Survey.ofTemplate tracker outputs r root).registry.state o ≠ .unreferenced ↔
      r.state o ≠ .unreferenced ∨
        MentionedIn Template.references outputs root (liveOutputs outputs r root) o := by
  have hwalked : {p | p ∈ (Survey.ofTemplate tracker outputs r root).walkedOutputs} =
      liveOutputs outputs r root := by
    ext p
    exact Survey.mem_walkedOutputs_iff tracker outputs r root p
  rw [← hwalked]
  exact (Survey.follows_ofTemplate tracker outputs r root).used_iff o

theorem emitted_ofTemplate_iff (tracker : Tracker) (outputs : Outputs) (r : Registry)
    (root : Template) (o : OutputId) :
    (Survey.ofTemplate tracker outputs r root).registry.state o = .emitted ↔
      r.state o = .emitted := by
  rw [(Survey.follows_ofTemplate tracker outputs r root).registry, Registry.state_referenceAll]
  split
  · rename_i h
    simp [h.1]
  · rfl

end Survey

namespace Writing
variable {tracker : Tracker} {outputs : Outputs} {r : Registry} {root : Template}

theorem registry_act_of_used {w : Writing} {a : Action}
    (h : ∀ o ∈ a.references, w.registry.state o ≠ .unreferenced) :
    (w.act outputs a).registry = w.registry := by
  have hkeep (o : OutputId) (ho : w.registry.state o ≠ .unreferenced) :
      (w.registry.reference o).2 = w.registry := by
    unfold Registry.reference
    split
    · rename_i hun
      exact (ho hun).elim
    · rfl
  cases a with
  | reference o => exact hkeep o (h o (by simp [Action.references]))
  | usage o => exact hkeep o (h o (by simp [Action.references]))
  | _ => rfl

/-- While a surveyed template is written, an output has the state that the survey left it in, or
is live and emitted. -/
def Surveyed (tracker : Tracker) (outputs : Outputs) (r : Registry) (root : Template)
    (w : Writing) : Prop :=
  ∀ o, w.registry.state o = (Survey.ofTemplate tracker outputs r root).registry.state o ∨
    (o ∈ liveOutputs outputs r root ∧ w.registry.state o = .emitted)

theorem Surveyed.act {w : Writing} (hw : w.Surveyed tracker outputs r root) {a : Action}
    (ha : InWrittenText outputs r root a) : (w.act outputs a).Surveyed tracker outputs r root := by
  have hused : ∀ o ∈ a.references, w.registry.state o ≠ .unreferenced := by
    intro o ho
    rcases hw o with hstate | ⟨-, hstate⟩
    · rw [hstate]
      apply (used_ofTemplate_iff tracker outputs r root o).mpr
      exact Or.inr (mentionedIn_references ha ho)
    · simp [hstate]
  intro o
  rw [registry_act_of_used hused]
  exact hw o

theorem Surveyed.mem_live {w : Writing} (hw : w.Surveyed tracker outputs r root) {o : OutputId}
    (ha : InWrittenText outputs r root (.declare o)) (hdue : w.isDue outputs o = true) :
    o ∈ liveOutputs outputs r root := by
  simp only [isDue, Bool.and_eq_true, decide_eq_true_eq, beq_iff_eq] at hdue
  obtain ⟨hknown, hstate⟩ := hdue
  rcases hw o with hsame | ⟨hlive, -⟩
  · have hused := (used_ofTemplate_iff tracker outputs r root o).mp (by simp [← hsame, hstate])
    exact (mem_liveOutputs_iff o).mpr ⟨hknown, hused, mentionedIn_sites ha⟩
  · exact hlive

theorem Surveyed.emit {w : Writing} (hw : w.Surveyed tracker outputs r root) {o : OutputId}
    (ho : o ∈ liveOutputs outputs r root) : (w.emit o).Surveyed tracker outputs r root := by
  intro p
  by_cases hpo : p = o
  · subst p
    exact Or.inr ⟨ho, Registry.state_set_self _ _ _⟩
  · have hstate : (w.emit o).registry.state p = w.registry.state p :=
      Registry.state_set_of_ne _ _ hpo
    rw [hstate]
    exact hw p

/-- Written text declares live outputs only. -/
theorem Surveyed.perform {actions : List Action} {w : Writing}
    (hw : w.Surveyed tracker outputs r root)
    (hactions : ∀ a ∈ actions, InWrittenText outputs r root a) :
    (perform outputs actions w).Surveyed tracker outputs r root ∧
      ∀ o ∈ Event.begun (events outputs actions w), o ∈ liveOutputs outputs r root := by
  fun_induction events outputs actions w with
  | case1 => exact ⟨by rwa [Writing.perform], by simp [Event.begun]⟩
  | case2 o rest w due inner ihInner ihRest =>
    obtain ⟨hsite, hrest⟩ := List.forall_mem_cons.mp hactions
    have hlive := hw.mem_live hsite due
    obtain ⟨hinner, hbegun⟩ := ihInner (hw.emit hlive) fun a ha => Or.inr ⟨o, hlive, ha⟩
    obtain ⟨hend, hbegun'⟩ := ihRest hinner hrest
    refine ⟨by rwa [perform_declare_of_isDue due], ?_⟩
    intro p hp
    simp only [Event.begun, Event.begun_append, List.mem_cons, List.mem_append] at hp
    rcases hp with rfl | hp | hp
    · exact hlive
    · exact hbegun p hp
    · exact hbegun' p hp
  | case3 o rest w notDue ih =>
    rw [perform_declare_of_not_isDue (by simpa using notDue)]
    exact ih hw (List.forall_mem_cons.mp hactions).2
  | case4 a rest w hsite ih =>
    obtain ⟨ha, hrest⟩ := List.forall_mem_cons.mp hactions
    rw [perform_cons_of_site? (site?_eq_none hsite)]
    exact ih (hw.act ha) hrest

end Writing

namespace Template
variable {outputs : Outputs} {settings : Settings} {t : Template}

/-- The state in which a template on its own begins to be written. -/
def opening (outputs : Outputs) (settings : Settings) (t : Template) : Writing :=
  let c := ((Context.ofSettings settings).prepare outputs t).2
  ⟨c.tracker, c.registry, .start c.indent 0⟩

def events (outputs : Outputs) (settings : Settings) (t : Template) : List Event :=
  Writing.events outputs t.script (t.opening outputs settings)

/-- The state in which a template on its own has been written. -/
def closing (outputs : Outputs) (settings : Settings) (t : Template) : Writing :=
  Writing.perform outputs t.script (t.opening outputs settings)

theorem page_of_render {page : Page} (h : t.render outputs settings = .ok page) :
    page = ⟨(t.closing outputs settings).writer.text,
      .ofTracker (t.closing outputs settings).tracker settings.quote,
      settings.trailingNewline⟩ := by
  unfold render at h
  split at h
  · simp at h
  · rename_i c hprepare
    have hpage := Except.ok.inj h
    rw [← hpage]
    simp [closing, opening, hprepare]

theorem registry_opening (outputs : Outputs) (settings : Settings) (t : Template) :
    (t.opening outputs settings).registry =
      (Survey.ofTemplate (.ofSettings settings) outputs .empty t).registry := by
  unfold opening Context.prepare
  dsimp only
  split <;> rfl

theorem writer_opening (outputs : Outputs) (settings : Settings) (t : Template) :
    (t.opening outputs settings).writer = .start settings.indent 0 := by
  unfold opening Context.prepare
  dsimp only
  split <;> rfl

/-- The body of a page is what its events write. -/
theorem body_of_render {page : Page} (h : t.render outputs settings = .ok page) :
    page.body = ((t.events outputs settings).foldl Event.write (.start settings.indent 0)).text := by
  rw [page_of_render h, closing, Writing.writer_perform, writer_opening]
  rfl

theorem surveyed_opening (outputs : Outputs) (settings : Settings) (t : Template) :
    (t.opening outputs settings).Surveyed (.ofSettings settings) outputs .empty t := by
  intro o
  exact Or.inl (by rw [registry_opening])

theorem isDue_opening {o : OutputId} (hknown : o < outputs.length)
    (hused : MentionedIn Template.references outputs t (liveOutputs outputs .empty t) o) :
    (t.opening outputs settings).isDue outputs o = true := by
  have hstate := (used_ofTemplate_iff (.ofSettings settings) outputs .empty t o).mpr (Or.inr hused)
  have hnew : (Survey.ofTemplate (.ofSettings settings) outputs .empty t).registry.state o ≠
      .emitted := by
    rw [ne_eq, emitted_ofTemplate_iff]
    simp [Registry.empty]
  simp only [Writing.isDue, registry_opening, Bool.and_eq_true, decide_eq_true_eq, beq_iff_eq]
  refine ⟨hknown, ?_⟩
  cases h : (Survey.ofTemplate (.ofSettings settings) outputs .empty t).registry.state o with
  | unreferenced => exact (hstate h).elim
  | referenced => rfl
  | emitted => exact (hnew h).elim

theorem begun_mem_live {o : OutputId} (ho : o ∈ Event.begun (t.events outputs settings)) :
    o ∈ liveOutputs outputs .empty t :=
  ((surveyed_opening outputs settings t).perform fun _ ha => Or.inl ha).2 o ho

theorem declaredFirst_of_site {o : OutputId}
    (hdue : (t.opening outputs settings).isDue outputs o = true)
    (hsite : ∃ e ∈ t.events outputs settings, e.site? = some o) :
    DeclaredFirst outputs o (t.events outputs settings) := by
  rcases Writing.declaredFirst_or_isDue t.script hdue with hfirst | ⟨hpass, -⟩
  · exact hfirst
  · obtain ⟨e, he, heo⟩ := hsite
    exact (hpass e he heo).elim

/-- Every live declaration begins: the rule for live outputs is followed by the writing. -/
theorem mem_begun_of_live {o : OutputId} (ho : o ∈ liveOutputs outputs .empty t) :
    o ∈ Event.begun (t.events outputs settings) := by
  revert o
  apply liveOutputs_subset {o | o ∈ Event.begun (t.events outputs settings)}
  rintro o ⟨hknown, hused, hsited⟩
  have hmention : MentionedIn Template.references outputs t (liveOutputs outputs .empty t) o := by
    rcases hused with hused | hused
    · simp [Registry.empty] at hused
    · exact hused.mono fun p hp => begun_mem_live hp
  have hcourse := Writing.course_events outputs t.script (t.opening outputs settings)
  have hsite : ∃ e ∈ t.events outputs settings, e.site? = some o := by
    rcases hsited with hroot | ⟨p, hp, hbody⟩
    · exact hcourse.exists_site ((mem_sites_iff_script t o).mp hroot)
    · exact hcourse.exists_site_of_began ((Event.mem_begun_iff p _).mp hp) hbody
  exact (declaredFirst_of_site (isDue_opening hknown hmention) hsite).mem_begun

theorem declaredFirst_of_live {o : OutputId} (ho : o ∈ liveOutputs outputs .empty t) :
    DeclaredFirst outputs o (t.events outputs settings) := by
  obtain ⟨hknown, hused, -⟩ := (mem_liveOutputs_iff o).mp ho
  have hmention := hused.resolve_left (by simp [Registry.empty])
  apply declaredFirst_of_site (isDue_opening hknown hmention)
  exact ⟨.began o, (Event.mem_begun_iff o _).mp (mem_begun_of_live ho), rfl⟩

theorem mem_begun_iff_live (settings : Settings) (o : OutputId) :
    o ∈ Event.begun (t.events outputs settings) ↔ o ∈ liveOutputs outputs .empty t :=
  ⟨begun_mem_live, mem_begun_of_live⟩

end Template

/-- The render of a template declares the live outputs and no other, each of them once: as a whole,
at the first of its declaration sites that is reached. The survey walks the same outputs, and they
are the ones that end as emitted. -/
theorem render_declares_live {outputs : Outputs} {settings : Settings} {t : Template} {page : Page}
    (h : t.render outputs settings = .ok page) :
    let live := liveOutputs outputs .empty t
    let events := t.events outputs settings
    (∀ o, o ∈ (Survey.ofTemplate (.ofSettings settings) outputs .empty t).walkedOutputs ↔
      o ∈ live) ∧
    (∀ o, (t.closing outputs settings).registry.state o = .emitted ↔ o ∈ live) ∧
    page.body = (events.foldl Event.write (.start settings.indent 0)).text ∧
    Course outputs t.script events ∧
    (∀ o ∈ live, DeclaredFirst outputs o events ∧ (Event.begun events).count o = 1) ∧
    ∀ o, o ∉ live → .began o ∉ events := by
  intro live events
  have hstart (o : OutputId) : (t.opening outputs settings).registry.state o ≠ .emitted := by
    rw [Template.registry_opening, ne_eq, emitted_ofTemplate_iff]
    simp [Registry.empty]
  refine ⟨Survey.mem_walkedOutputs_iff _ outputs .empty t, ?_, ?_, ?_, ?_, ?_⟩
  · intro o
    rw [Template.closing, Writing.emitted_perform_iff]
    exact (or_iff_right (hstart o)).trans (Template.mem_begun_iff_live settings o)
  · exact Template.body_of_render h
  · exact Writing.course_events outputs t.script _
  · intro o ho
    refine ⟨Template.declaredFirst_of_live ho, ?_⟩
    exact List.count_eq_one_of_mem (Writing.begun_events _ _).1 (Template.mem_begun_of_live ho)
  · intro o ho hbegan
    exact ho (Template.begun_mem_live ((Event.mem_begun_iff o _).mpr hbegan))

theorem render_declares_what_late_use_needs :
    let outputs : Outputs := [⟨"a", some [.text "A", .reference 1]⟩, ⟨"b", some [.text "B"]⟩,
      ⟨"c", some [.text "C"]⟩]
    let t : Template := [.declaration 2, .declaration 0, .declaration 1, .usage 0]
    ∃ page, t.render outputs .standard = .ok page ∧ page.body = "ABa" ∧
      ∀ o ∈ liveOutputs outputs .empty t, DeclaredFirst outputs o (t.events outputs .standard) ∧
        (Event.begun (t.events outputs .standard)).count o = 1 := by
  intro outputs t
  have h : t.render outputs .standard = .ok ⟨"ABa", ⟨[], .double⟩, true⟩ := by cbv
  exact ⟨_, h, rfl, (render_declares_live h).2.2.2.2.1⟩

end TypeScriptComposer
