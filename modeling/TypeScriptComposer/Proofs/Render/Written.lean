import TypeScriptComposer.Proofs.Render.Declarations
import TypeScriptComposer.Proofs.Tracker.Recorded
import TypeScriptComposer.Proofs.Writing.Names

/-!
# Which symbols are written

The symbols that a render writes are those of the root and of the live declarations. These are the
templates that the survey has walked, so that the names declared when the writing begins are those
that the written symbols declare, no more and no fewer. Hence the writing declares no name any more,
and no import can take one away.
-/

set_option autoImplicit false

namespace TypeScriptComposer

namespace Tracker
variable {t : Tracker}

def defineAll (t : Tracker) (names : List String) : Tracker :=
  names.foldl (fun t name => (t.define name).2) t

theorem defineAll_unchanged {α : Type} {field : Tracker → α}
    (h : ∀ (t : Tracker) (name : String), field (t.define name).2 = field t) (t : Tracker)
    (names : List String) : field (t.defineAll names) = field t := by
  induction names generalizing t with
  | nil => rfl
  | cons name names ih => exact (ih _).trans (h t name)

theorem WellNamed.defineAll (h : t.WellNamed) (names : List String) :
    (t.defineAll names).WellNamed := by
  induction names generalizing t with
  | nil => exact h
  | cons name names ih => exact ih (h.define name)

/-- While nothing is imported, every name can be declared. -/
theorem mem_declared_defineAll (hnone : t.imports = []) (names : List String) (name : String) :
    name ∈ (t.defineAll names).declared ↔ name ∈ t.declared ∨ name ∈ names := by
  induction names generalizing t with
  | nil => simp [defineAll]
  | cons first names ih =>
    have hstep : name ∈ (t.define first).2.declared ↔ name ∈ t.declared ∨ name = first := by
      rcases t.define_cases first with ⟨htaken, heq⟩ | ⟨-, heq⟩
      · rw [isTaken_iff, hnone] at htaken
        have hmem : first ∈ t.declared := by simpa using htaken
        rw [heq]
        constructor
        · exact Or.inl
        · rintro (h | rfl)
          · exact h
          · exact hmem
      · simp [heq]
    have hrest := ih (t := (t.define first).2) (by rw [imports_define, hnone])
    rw [List.mem_cons, ← or_assoc, ← hstep]
    exact hrest

end Tracker

namespace Template
variable {outputs : Outputs} {settings : Settings} {t : Template} {page : Page}

/-- The symbols that a render of its own writes, in writing order and with repetitions. -/
def written (outputs : Outputs) (settings : Settings) (t : Template) : List Symbol :=
  (t.events outputs settings).flatMap Event.symbols

theorem mem_written_iff (outputs : Outputs) (settings : Settings) (t : Template) (s : Symbol) :
    s ∈ t.written outputs settings ↔ s ∈ Template.symbols t ∨
      ∃ o ∈ liveOutputs outputs .empty t, s ∈ Template.symbols (outputs.body o) := by
  have hcourse := Writing.course_events outputs t.script (t.opening outputs settings)
  rw [mem_symbols_iff_script]
  simp only [← mem_begun_iff_live settings]
  exact hcourse.mem_symbols_iff s

theorem tracker_closing (outputs : Outputs) (settings : Settings) (t : Template) :
    (t.closing outputs settings).tracker =
      (t.opening outputs settings).tracker.registerAll (t.written outputs settings) :=
  Writing.tracker_perform _ _ _

theorem tracker_opening (h : t.render outputs settings = .ok page) :
    (t.opening outputs settings).tracker = (Tracker.ofSettings settings).defineAll
      (Survey.ofTemplate (.ofSettings settings) outputs .empty t).locals := by
  unfold opening
  unfold render at h
  unfold Context.prepare at h ⊢
  simp only [Context.ofSettings] at h ⊢
  split
  · rename_i cycle hcycle
    simp [hcycle] at h
  · rfl

/-- When the writing begins, the names that it declares are declared, and no others. -/
theorem declared_opening (h : t.render outputs settings = .ok page) (name : String) :
    name ∈ (t.opening outputs settings).tracker.declared ↔
      ∃ s ∈ t.written outputs settings,
        (Tracker.ofSettings settings).declares s = true ∧ s.value = name := by
  have hlocals := (Survey.follows_ofTemplate (.ofSettings settings) outputs .empty t).locals
  have hwalked (s : Symbol) : s ∈ ((Survey.ofTemplate (.ofSettings settings) outputs .empty
      t).templates outputs t).flatMap Template.symbols ↔ s ∈ t.written outputs settings := by
    simp only [mem_written_iff, ← Survey.mem_walkedOutputs_iff (.ofSettings settings)]
    simp [Survey.templates]
  have hnone : name ∉ (Tracker.ofSettings settings).declared := List.not_mem_nil
  rw [tracker_opening h, Tracker.mem_declared_defineAll rfl, hlocals, or_iff_right hnone]
  simp only [List.mem_map, List.mem_filter, hwalked, and_assoc]

end Template

/-- The state of a tracker that is going to register `ss` in a render with `settings`: the names
that `ss` declare are declared, and nothing is imported. -/
structure Tracker.Prepared (settings : Settings) (ss : List Symbol) (t : Tracker) : Prop where
  imports : t.imports = []
  modules : t.modules = []
  reserved : t.reserved = settings.reservedWords
  ownModule : t.ownModule = settings.modulePath
  wellNamed : t.WellNamed
  declared : ∀ name, name ∈ t.declared ↔
    ∃ s ∈ ss, (ofSettings settings).declares s = true ∧ s.value = name

namespace Tracker.Prepared
variable {settings : Settings} {ss : List Symbol} {t : Tracker}

theorem declares_eq (h : t.Prepared settings ss) : t.declares = (ofSettings settings).declares :=
  declares_congr h.ownModule

theorem isOwn_eq (h : t.Prepared settings ss) : t.isOwn = (ofSettings settings).isOwn :=
  isOwn_congr h.ownModule

theorem isForeign_eq (h : t.Prepared settings ss) : t.isForeign = (ofSettings settings).isForeign :=
  isForeign_congr h.ownModule

theorem isImported_eq (h : t.Prepared settings ss) :
    t.isImported = (ofSettings settings).isImported :=
  isImported_congr h.ownModule

theorem mem_declared (h : t.Prepared settings ss) : ∀ s ∈ ss, t.declares s = true →
    s.value ∈ t.declared := by
  intro s hs hdeclares
  exact (h.declared s.value).mpr ⟨s, hs, by rwa [← h.declares_eq], rfl⟩

end Tracker.Prepared

theorem Template.prepared_opening {outputs : Outputs} {settings : Settings} {t : Template}
    {page : Page} (h : t.render outputs settings = .ok page) :
    (t.opening outputs settings).tracker.Prepared settings (t.written outputs settings) := by
  refine ⟨?_, ?_, ?_, ?_, ?_, declared_opening h⟩ <;> rw [tracker_opening h]
  · exact Tracker.defineAll_unchanged Tracker.imports_define _ _
  · exact Tracker.defineAll_unchanged Tracker.modules_define _ _
  · exact Tracker.defineAll_unchanged Tracker.reserved_define _ _
  · exact Tracker.defineAll_unchanged Tracker.ownModule_define _ _
  · exact (Tracker.wellNamed_ofSettings settings).defineAll _

end TypeScriptComposer
