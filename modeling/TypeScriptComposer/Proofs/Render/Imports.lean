import TypeScriptComposer.Proofs.ImportBlock.Regrouping
import TypeScriptComposer.Proofs.Render.Written

/-!
# What a render imports

The import block of a page has an entry for each imported symbol that is written, and for no other
symbol. The block takes the entries from the tracker and regroups them by module and style, which
loses none and repeats none.
-/

set_option autoImplicit false

namespace TypeScriptComposer

namespace Tracker.Prepared
variable {settings : Settings} {ss : List Symbol} {t : Tracker}

theorem entries_eq (h : t.Prepared settings ss) :
    (t.registerAll ss).imports.map (fun e => (e.id, e.style)) =
      (firstsBy Symbol.id (ss.filter (ofSettings settings).isImported)).map
        fun s => (s.id, s.style) := by
  rw [← h.isImported_eq, ← entries_registerAll h.imports ss, unmarked, List.map_map]
  rfl

theorem modules_eq (h : t.Prepared settings ss)
    (hloaded : ∀ s ∈ ss, s.style = .sideEffect → (ofSettings settings).isOwn s = false) :
    (t.registerAll ss).modules =
      ((ss.filter (ofSettings settings).isForeign).filterMap Symbol.module?).eraseDups := by
  rw [← h.isForeign_eq]
  exact modules_registerAll h.wellNamed h.modules (by rwa [h.isOwn_eq])

end Tracker.Prepared

/-- A render imports what it writes. The symbols that it writes are those of the root and, at the
first of its sites, of each live declaration, in the order of the templates. The tracker has an
entry for the first occurrence of each that is imported, in order; the block has the modules of the
foreign ones, in order, and the entries of the tracker, each once and under its own module. -/
theorem render_imports_written {outputs : Outputs} {settings : Settings} {t : Template}
    {page : Page} (h : t.render outputs settings = .ok page) :
    let home := Tracker.ofSettings settings
    let live := liveOutputs outputs .empty t
    let events := t.events outputs settings
    let written := t.written outputs settings
    let tracker := (t.closing outputs settings).tracker
    (Course outputs t.script events ∧ (Event.begun events).Nodup ∧
      (∀ o, (o ∈ Event.begun events ↔ o ∈ live) ∧ (o ∈ live → DeclaredFirst outputs o events)) ∧
      ∀ u : Template, u.script.flatMap Action.symbols = Template.symbols u) ∧
    page.imports = .ofTracker tracker settings.quote ∧
    tracker.imports.map (fun e => (e.id, e.style)) =
      (firstsBy Symbol.id (written.filter home.isImported)).map (fun s => (s.id, s.style)) ∧
    ((∀ s ∈ written, s.style = .sideEffect → home.isOwn s = false) →
      page.imports.modules = ((written.filter home.isForeign).filterMap Symbol.module?).eraseDups) ∧
    page.imports.entries.Perm tracker.imports ∧
    (∀ g ∈ page.imports.groups, ∀ e ∈ g.entries, e.module = g.module) ∧
    (∀ e ∈ page.imports.entries, ∃ s, s.id = e.id ∧ home.isImported s = true ∧
      (s ∈ Template.symbols t ∨ ∃ o ∈ live, s ∈ Template.symbols (outputs.body o))) ∧
    ∀ (v : TypeVariable) (u : Tracker), ((TypeExpr.typeVar v).print u).2 = u := by
  intro home live events written tracker
  have hready := Template.prepared_opening h
  have htracker : tracker = (t.opening outputs settings).tracker.registerAll written :=
    Template.tracker_closing outputs settings t
  have himports : page.imports = .ofTracker tracker settings.quote :=
    congrArg Page.imports (Template.page_of_render h)
  have hentries : page.imports.entries.Perm tracker.imports := by
    rw [himports, htracker]
    exact ImportBlock.entries_ofTracker_perm (hready.wellNamed.registerAll written) _
  refine ⟨⟨Writing.course_events _ _ _, (Writing.begun_events _ _).1, ?_,
    Template.flatMap_symbols_script⟩, himports, ?_, ?_, hentries, ?_, ?_, ?_⟩
  · exact fun o => ⟨Template.mem_begun_iff_live settings o, Template.declaredFirst_of_live⟩
  · rw [htracker]
    exact hready.entries_eq
  · intro hloaded
    rw [himports, ImportBlock.modules_ofTracker, htracker]
    exact hready.modules_eq hloaded
  · intro g hg
    rw [himports] at hg
    exact ImportBlock.module_of_mem_groups hg
  · intro e he
    have hid : e.id ∈ tracker.unmarked.map (·.id) :=
      List.mem_map.mpr ⟨e.unmarked, List.mem_map.mpr ⟨e, hentries.mem_iff.mp he, rfl⟩, rfl⟩
    rw [htracker] at hid
    obtain ⟨s, hs, himported, hsid⟩ := (Tracker.mem_ids_iff hready.imports written e.id).mp hid
    rw [hready.isImported_eq] at himported
    exact ⟨s, hsid, himported, (Template.mem_written_iff outputs settings t s).mp hs⟩
  · rintro ⟨name, bounds⟩ u
    simp [TypeExpr.print]

theorem render_imports_in_writing_order :
    let a := Symbol.named "A" "./a"
    let b := Symbol.named "B" "./b"
    let t : Template := [.symbol (.sideEffect "./c"),
      .type (.applied (.ofSymbol b) [.ofSymbol a]), .symbol b]
    ∃ page, t.render [] .standard = .ok page ∧ page.body = "B<A>B" ∧
      page.imports.modules = ["./c", "./b", "./a"] := by
  intro a b t
  have h : t.render [] .standard = .ok ⟨"B<A>B", ⟨[⟨"./c", [], [], []⟩,
    ⟨"./b", [], [], [⟨"./b", "B", "B", .named, false⟩]⟩,
    ⟨"./a", [], [], [⟨"./a", "A", "A", .named, false⟩]⟩], .double⟩, true⟩ := by cbv
  have hwritten : t.written [] .standard = [.sideEffect "./c", b, a, b] := by cbv
  have hmodules := (render_imports_written h).2.2.2.1 (by rw [hwritten]; decide)
  rw [hwritten] at hmodules
  exact ⟨_, h, rfl, hmodules⟩

end TypeScriptComposer
