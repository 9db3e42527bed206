import TypeScriptComposer.Proofs.Render.Imports

/-!
# Names in a page

All of a page is written under one naming of its symbols. Names that the file declares stay as they
are; an import steps aside, for every name that is declared anywhere in the written text, for every
reserved word and for every import before it.

A symbol of the own module that is only loaded for its side effects declares nothing. Its text, if
it has one, keeps no import from using the same name.
-/

set_option autoImplicit false

namespace TypeScriptComposer

/-- The naming `name` of the symbols that a page writes, in this order, and the entries that it
imports: no import takes the name of a declaration, a reserved word or another import. -/
structure Hygienic (settings : Settings) (written : List Symbol) (name : Symbol → String)
    (entries : List ImportEntry) : Prop where
  own : ∀ s ∈ written, s.isLocal = true ∨ (Tracker.ofSettings settings).isOwn s = true →
    name s = s.value
  imported : ∀ s ∈ written, s.isLocal = false → (Tracker.ofSettings settings).isOwn s = false →
    s.style ≠ .sideEffect → ∃ e ∈ entries, e.id = s.id ∧ name s = e.localName
  ids : (entries.map (·.id)).Nodup
  names : (entries.map (·.localName)).Nodup
  unreserved : ∀ e ∈ entries, e.localName ∉ settings.reservedWords
  undeclared : ∀ e ∈ entries, ∀ s ∈ written, (s.isLocal = true ∨
    ((Tracker.ofSettings settings).isOwn s = true ∧ s.style ≠ .sideEffect)) →
    e.localName ≠ s.value
  /-- The first occurrence of an imported symbol decides its name: the one that it asks for, or
  that one with the least number that makes it free. -/
  least : ∀ before s after, written = before ++ s :: after →
    (Tracker.ofSettings settings).isImported s = true →
    (∀ s' ∈ before, (Tracker.ofSettings settings).isImported s' = true → s'.id ≠ s.id) →
    LeastFree {n | n ∈ settings.reservedWords ∨
        (∃ d ∈ written, (Tracker.ofSettings settings).declares d = true ∧ d.value = n) ∨
        ∃ s' ∈ before, (Tracker.ofSettings settings).isImported s' = true ∧ name s' = n}
      (s.requestedName.getD s.value) (name s)

namespace Tracker
variable {settings : Settings} {ss : List Symbol} {t : Tracker}

theorem Prepared.hygienic (h : t.Prepared settings ss) {entries : List ImportEntry}
    (hentries : entries.Perm (t.registerAll ss).imports) :
    Hygienic settings ss (t.registerAll ss).nameOf entries := by
  have hwell := h.wellNamed.registerAll ss
  have hunmarked {e : ImportEntry} (he : e ∈ entries) :
      e.unmarked ∈ (t.registerAll ss).unmarked :=
    List.mem_map.mpr ⟨e, hentries.mem_iff.mp he, rfl⟩
  have hdeclared : (t.registerAll ss).declared = t.declared := declared_registerAll h.mem_declared
  constructor
  case own =>
    intro s _ hown
    apply nameOf_of_not_imported
    rw [h.isImported_eq, ne_eq, isImported_eq_true_iff]
    rintro ⟨hlocal, hforeign, -⟩
    rcases hown with hown | hown
    · simp [hlocal] at hown
    · simp [hforeign] at hown
  case imported =>
    intro s hs hlocal hown hstyle
    have himported : t.isImported s = true := by
      rw [h.isImported_eq]
      exact (isImported_eq_true_iff _ s).mpr ⟨hlocal, hown, hstyle⟩
    obtain ⟨e, hfind, hname⟩ := Option.map_eq_some_iff.mp (importName?_registerAll hs himported)
    refine ⟨e, hentries.mem_iff.mpr (List.mem_of_find?_eq_some hfind), ?_, hname.symm⟩
    simpa using List.find?_some hfind
  case ids =>
    have hids := hwell.ids
    rw [unmarked, List.map_map] at hids
    exact (hentries.map _).nodup_iff.mpr hids
  case names =>
    have hnames := hwell.names
    rw [localNames_unmarked] at hnames
    exact (hentries.map _).nodup_iff.mpr hnames
  case unreserved =>
    intro e he
    have hfree := (hwell.free e.unmarked (hunmarked he)).2
    rwa [reserved_registerAll, h.reserved] at hfree
  case undeclared =>
    intro e he s hs hdeclares heq
    have hfree := (hwell.free e.unmarked (hunmarked he)).1
    rw [hdeclared] at hfree
    exact hfree ((h.declared _).mpr ⟨s, hs, (declares_eq_true_iff _ s).mpr hdeclares, heq.symm⟩)
  case least =>
    rintro before s after rfl himported hfirst
    rw [← h.isImported_eq] at himported hfirst
    have hbefore : ∀ s' ∈ before, t.declares s' = true → s'.value ∈ t.declared :=
      fun s' hs' => h.mem_declared s' (List.mem_append_left _ hs')
    have hleast := leastFree_nameOf h.wellNamed h.imports after hbefore himported hfirst
    simpa only [h.reserved, h.declared, h.isImported_eq, preferred] using hleast

end Tracker

/-- A page is written under one naming, which is hygienic. Each thing that is written prints its
symbols by their names; in a type, the name of a symbol stands wherever the type is the one that the
symbol names. -/
theorem render_names_hygienic {outputs : Outputs} {settings : Settings} {t : Template}
    {page : Page} (h : t.render outputs settings = .ok page) :
    let events := t.events outputs settings
    let written := t.written outputs settings
    let name := (t.closing outputs settings).tracker.nameOf
    page.body = (events.foldl Event.write (.start settings.indent 0)).text ∧
    (∀ s, s ∈ written ↔ s ∈ Template.symbols t ∨
      ∃ o ∈ liveOutputs outputs .empty t, s ∈ Template.symbols (outputs.body o)) ∧
    (∀ s text, .did (.printSymbol s) text ∈ events → text = name s) ∧
    (∀ type text, .did (.printType type) text ∈ events → text = type.spell name) ∧
    (∀ s : Symbol, s.value ≠ "" → (TypeExpr.ofSymbol s).spell name = name s) ∧
    Hygienic settings written name page.imports.entries := by
  intro events written name
  have hready := Template.prepared_opening h
  have htracker : (t.closing outputs settings).tracker =
      (t.opening outputs settings).tracker.registerAll written :=
    Template.tracker_closing outputs settings t
  have htext {a : Action} {text : String} (ha : .did a text ∈ events) :
      text = a.text outputs name := by
    have hdid := Writing.text_of_did t.script (t.opening outputs settings) [] ha
    rw [List.append_nil] at hdid
    change text = a.text outputs ((t.opening outputs settings).tracker.registerAll written).nameOf
      at hdid
    rwa [← htracker] at hdid
  refine ⟨?_, Template.mem_written_iff outputs settings t, ?_, ?_, ?_, ?_⟩
  · exact Template.body_of_render h
  · exact fun s text hdid => htext hdid
  · exact fun type text hdid => htext hdid
  · exact fun s hs => TypeExpr.spell_ofSymbol name hs
  · have hentries : page.imports.entries.Perm
        ((t.opening outputs settings).tracker.registerAll written).imports := by
      rw [Template.page_of_render h, htracker]
      exact ImportBlock.entries_ofTracker_perm (hready.wellNamed.registerAll written) _
    change Hygienic settings written (t.closing outputs settings).tracker.nameOf _
    rw [htracker]
    exact hready.hygienic hentries

theorem render_gives_way_to_late_declaration :
    let outputs : Outputs := [⟨"helper", some [.symbol (.declared "Foo")]⟩]
    let t : Template := [.symbol (.named "Foo" "./a"), .text " ", .declaration 0, .reference 0]
    ∃ page, t.render outputs .standard = .ok page ∧ page.body = "Foo1 Foo" ∧
      Hygienic .standard (t.written outputs .standard)
        (t.closing outputs .standard).tracker.nameOf page.imports.entries := by
  intro outputs t
  have h : t.render outputs .standard = .ok ⟨"Foo1 Foo",
      ⟨[⟨"./a", [], [], [⟨"./a", "Foo", "Foo1", .named, false⟩]⟩], .double⟩, true⟩ := by cbv
  exact ⟨_, h, rfl, (render_names_hygienic h).2.2.2.2.2⟩

/-- The text of a symbol of the own module that is loaded for its side effects is not kept free. -/
theorem own_sideEffect_name_is_reused :
    let own := Symbol.imported .sideEffect "Foo" "./models"
    let settings : Settings := { Settings.standard with modulePath := some "./models" }
    let t : Template := [.symbol own, .text " ", .symbol (.named "Foo" "./a")]
    Symbol.parse "Foo+./models" = .ok own ∧
    ∃ page, t.render [] settings = .ok page ∧
      ¬ ∀ e ∈ page.imports.entries, ∀ s ∈ t.written [] settings,
        s.isLocal = true ∨ (Tracker.ofSettings settings).isOwn s = true →
          e.localName ≠ s.value := by
  intro own settings t
  refine ⟨by decide, ⟨"Foo Foo", ⟨[⟨"./models", [], [], []⟩,
    ⟨"./a", [], [], [⟨"./a", "Foo", "Foo", .named, false⟩]⟩], .double⟩, true⟩, by cbv, ?_⟩
  intro hall
  have hwritten : t.written [] settings = [own, .named "Foo" "./a"] := by cbv
  have hown : own ∈ t.written [] settings := by
    rw [hwritten]
    exact List.mem_cons_self
  exact hall ⟨"./a", "Foo", "Foo", .named, false⟩ (by decide) own hown (by decide) (by decide)

end TypeScriptComposer
