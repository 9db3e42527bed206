import TypeScriptComposer.Context
import TypeScriptComposer.Proofs.Output.Trace
import TypeScriptComposer.Proofs.Template.Script

/-!
# The events of a render

While a script is carried out, actions write their texts, and at the declaration sites declarations
begin and end. The list of these events says what the render has done and in which order: its text
is what they write, and an output is emitted when its declaration has begun among them.

`Course` is the shape that such a list has for a script, whatever is decided at its sites: at each
of them the whole declaration is written, or nothing at all.
-/

set_option autoImplicit false

namespace TypeScriptComposer

def Action.site? : Action → Option OutputId
  | .declare o => some o
  | _ => none

/-- One thing that happens while a script is carried out. -/
inductive Event where
  /-- An action that is no declaration site was done and wrote `text`. -/
  | did (a : Action) (text : String)
  | began (o : OutputId)
  | ended (o : OutputId)
  | passed (o : OutputId)

namespace Event

def site? : Event → Option OutputId
  | .began o => some o
  | .passed o => some o
  | _ => none

/-- What an event does to a text that is being written. -/
def write (w : Writer) : Event → Writer
  | .did .raise _ => w.raise
  | .did .lower _ => w.lower
  | .did _ text => w.write text
  | _ => w

def begun : List Event → List OutputId
  | [] => []
  | .began o :: es => o :: begun es
  | _ :: es => begun es

@[simp] theorem begun_append (a b : List Event) : begun (a ++ b) = begun a ++ begun b := by
  induction a with
  | nil => rfl
  | cons e es ih => cases e <;> simp [begun, ih]

theorem mem_begun_iff (o : OutputId) (es : List Event) : o ∈ begun es ↔ .began o ∈ es := by
  induction es with
  | nil => simp [begun]
  | cons e es ih => cases e <;> simp [begun, ih]

/-- The change to the registry that an event is. -/
def call? : Event → Option Registry.Call
  | .did (.reference o) _ => some (.reference o)
  | .did (.usage o) _ => some (.reference o)
  | .began o => some (.beginEmit o)
  | _ => none

def calls (es : List Event) : List Registry.Call := es.filterMap call?

@[simp] theorem calls_append (a b : List Event) : calls (a ++ b) = calls a ++ calls b :=
  List.filterMap_append

theorem calls_declared (o : OutputId) (inner es : List Event) :
    calls (.began o :: (inner ++ .ended o :: es)) = .beginEmit o :: (calls inner ++ calls es) := by
  have hbegan : calls (.began o :: (inner ++ .ended o :: es)) =
      .beginEmit o :: calls (inner ++ .ended o :: es) := rfl
  have hended : calls (.ended o :: es) = calls es := rfl
  rw [hbegan, calls_append, hended]

theorem reference_mem_calls (o : OutputId) (es : List Event) :
    .reference o ∈ calls es ↔ ∃ a text, .did a text ∈ es ∧ o ∈ a.references := by
  unfold calls
  rw [List.mem_filterMap]
  constructor
  · rintro ⟨e, he, hcall⟩
    cases e with
    | did a text =>
      refine ⟨a, text, he, ?_⟩
      cases a <;> simp_all [call?, Action.references]
    | _ => simp [call?] at hcall
  · rintro ⟨a, text, he, ho⟩
    refine ⟨_, he, ?_⟩
    cases a <;> simp_all [call?, Action.references]

theorem begun_eq (es : List Event) : begun es = (calls es).filterMap Registry.Call.begun? := by
  induction es with
  | nil => rfl
  | cons e es ih =>
    cases e with
    | began o => rw [begun, ih]; rfl
    | did a text => cases a <;> exact ih
    | ended o => exact ih
    | passed o => exact ih

theorem mem_begun_iff_beginEmit (o : OutputId) (es : List Event) :
    o ∈ begun es ↔ .beginEmit o ∈ calls es := by
  rw [begun_eq, List.mem_filterMap]
  simp [Registry.Call.begun?_eq_some_iff]

end Event

/-- The list of events is one of a script that is carried out depth first: a site is passed, or the
events of the whole declaration stand between its beginning and its end. -/
inductive Course (outputs : Outputs) : List Action → List Event → Prop where
  | nil : Course outputs [] []
  | did {a : Action} {rest : List Action} {es : List Event} (text : String) :
      a.site? = none → Course outputs rest es → Course outputs (a :: rest) (.did a text :: es)
  | passed {o : OutputId} {rest : List Action} {es : List Event} :
      Course outputs rest es → Course outputs (.declare o :: rest) (.passed o :: es)
  | declared {o : OutputId} {rest : List Action} {inner es : List Event} :
      Course outputs (Template.script (outputs.body o)) inner → Course outputs rest es →
      Course outputs (.declare o :: rest) (.began o :: (inner ++ .ended o :: es))

namespace Course
variable {outputs : Outputs} {actions : List Action} {es : List Event}

/-- The events of a declaration that begins are those of its whole script. -/
theorem of_began (h : Course outputs actions es) {o : OutputId} (ho : .began o ∈ es) :
    ∃ before inner after, es = before ++ .began o :: (inner ++ .ended o :: after) ∧
      Course outputs (Template.script (outputs.body o)) inner := by
  induction h with
  | nil => simp at ho
  | did text _ _ ih =>
    obtain ⟨before, inner, after, rfl, hinner⟩ := ih (by simpa using ho)
    exact ⟨_ :: before, inner, after, rfl, hinner⟩
  | passed _ ih =>
    obtain ⟨before, inner, after, rfl, hinner⟩ := ih (by simpa using ho)
    exact ⟨_ :: before, inner, after, rfl, hinner⟩
  | @declared p rest own es hown _ ihOwn ih =>
    by_cases hop : o = p
    · subst p
      exact ⟨[], own, es, rfl, hown⟩
    · have hmem : .began o ∈ own ∨ .began o ∈ es := by simpa [hop] using ho
      rcases hmem with hmem | hmem
      · obtain ⟨before, inner, after, rfl, hinner⟩ := ihOwn hmem
        exact ⟨.began p :: before, inner, after ++ .ended p :: es, by simp, hinner⟩
      · obtain ⟨before, inner, after, rfl, hinner⟩ := ih hmem
        exact ⟨.began p :: (own ++ .ended p :: before), inner, after, by simp, hinner⟩

theorem exists_site (h : Course outputs actions es) {o : OutputId} (ho : .declare o ∈ actions) :
    ∃ e ∈ es, e.site? = some o := by
  induction h with
  | nil => simp at ho
  | @did a rest es text hsite _ ih =>
    rcases List.mem_cons.mp ho with rfl | ho
    · simp [Action.site?] at hsite
    · obtain ⟨e, he, heo⟩ := ih ho
      exact ⟨e, List.mem_cons_of_mem _ he, heo⟩
  | passed _ ih =>
    rcases List.mem_cons.mp ho with heq | ho
    · exact ⟨_, List.mem_cons_self, by cases heq; rfl⟩
    · obtain ⟨e, he, heo⟩ := ih ho
      exact ⟨e, List.mem_cons_of_mem _ he, heo⟩
  | declared _ _ _ ih =>
    rcases List.mem_cons.mp ho with heq | ho
    · exact ⟨_, List.mem_cons_self, by cases heq; rfl⟩
    · obtain ⟨e, he, heo⟩ := ih ho
      exact ⟨e, by simp [he], heo⟩

theorem mem_of_did (h : Course outputs actions es) {a : Action} {text : String}
    (ha : .did a text ∈ es) :
    a ∈ actions ∨ ∃ o, .began o ∈ es ∧ a ∈ Template.script (outputs.body o) := by
  induction h with
  | nil => simp at ha
  | did _ _ _ ih =>
    rcases List.mem_cons.mp ha with heq | ha
    · cases heq
      exact Or.inl List.mem_cons_self
    · rcases ih ha with hmem | ⟨o, ho, hmem⟩
      · exact Or.inl (List.mem_cons_of_mem _ hmem)
      · exact Or.inr ⟨o, List.mem_cons_of_mem _ ho, hmem⟩
  | passed _ ih =>
    rcases ih (by simpa using ha) with hmem | ⟨o, ho, hmem⟩
    · exact Or.inl (List.mem_cons_of_mem _ hmem)
    · exact Or.inr ⟨o, List.mem_cons_of_mem _ ho, hmem⟩
  | @declared p rest own es _ _ ihOwn ih =>
    have hmem : .did a text ∈ own ∨ .did a text ∈ es := by simpa using ha
    rcases hmem with hmem | hmem
    · rcases ihOwn hmem with hown | ⟨o, ho, hown⟩
      · exact Or.inr ⟨p, List.mem_cons_self, hown⟩
      · exact Or.inr ⟨o, by simp [ho], hown⟩
    · rcases ih hmem with hrest | ⟨o, ho, hbody⟩
      · exact Or.inl (List.mem_cons_of_mem _ hrest)
      · exact Or.inr ⟨o, by simp [ho], hbody⟩

theorem exists_did (h : Course outputs actions es) {a : Action} (ha : a ∈ actions)
    (hsite : a.site? = none) : ∃ text, .did a text ∈ es := by
  induction h with
  | nil => simp at ha
  | did text _ _ ih =>
    rcases List.mem_cons.mp ha with rfl | ha
    · exact ⟨text, List.mem_cons_self⟩
    · obtain ⟨text, htext⟩ := ih ha
      exact ⟨text, List.mem_cons_of_mem _ htext⟩
  | passed _ ih =>
    rcases List.mem_cons.mp ha with rfl | ha
    · simp [Action.site?] at hsite
    · obtain ⟨text, htext⟩ := ih ha
      exact ⟨text, List.mem_cons_of_mem _ htext⟩
  | declared _ _ _ ih =>
    rcases List.mem_cons.mp ha with rfl | ha
    · simp [Action.site?] at hsite
    · obtain ⟨text, htext⟩ := ih ha
      exact ⟨text, by simp [htext]⟩

theorem exists_site_of_began (h : Course outputs actions es) {o p : OutputId}
    (hp : .began p ∈ es) (ho : o ∈ Template.sites (outputs.body p)) :
    ∃ e ∈ es, e.site? = some o := by
  obtain ⟨before, inner, after, rfl, hinner⟩ := h.of_began hp
  obtain ⟨e, he, heo⟩ := hinner.exists_site ((Template.mem_sites_iff_script _ o).mp ho)
  exact ⟨e, by simp [he], heo⟩

theorem exists_did_of_began (h : Course outputs actions es) {a : Action} {p : OutputId}
    (hp : .began p ∈ es) (ha : a ∈ Template.script (outputs.body p)) (hsite : a.site? = none) :
    ∃ text, .did a text ∈ es := by
  obtain ⟨before, inner, after, rfl, hinner⟩ := h.of_began hp
  obtain ⟨text, htext⟩ := hinner.exists_did ha hsite
  exact ⟨text, by simp [htext]⟩

end Course

/-- The declaration of `o` is written, as a whole, at the first of the events that happen at one of
its sites. -/
def DeclaredFirst (outputs : Outputs) (o : OutputId) (es : List Event) : Prop :=
  ∃ before inner after, es = before ++ .began o :: (inner ++ .ended o :: after) ∧
    Course outputs (Template.script (outputs.body o)) inner ∧ ∀ e ∈ before, e.site? ≠ some o

namespace DeclaredFirst
variable {outputs : Outputs} {o : OutputId} {es : List Event}

theorem append (h : DeclaredFirst outputs o es) (more : List Event) :
    DeclaredFirst outputs o (es ++ more) := by
  obtain ⟨before, inner, after, rfl, hinner, hbefore⟩ := h
  exact ⟨before, inner, after ++ more, by simp, hinner, hbefore⟩

theorem prepend (h : DeclaredFirst outputs o es) (less : List Event)
    (hless : ∀ e ∈ less, e.site? ≠ some o) : DeclaredFirst outputs o (less ++ es) := by
  obtain ⟨before, inner, after, rfl, hinner, hbefore⟩ := h
  exact ⟨less ++ before, inner, after, by simp, hinner, List.forall_mem_append.mpr ⟨hless, hbefore⟩⟩

theorem cons (h : DeclaredFirst outputs o es) {e : Event} (he : e.site? ≠ some o) :
    DeclaredFirst outputs o (e :: es) :=
  h.prepend [e] (by simpa using he)

theorem mem_begun (h : DeclaredFirst outputs o es) : o ∈ Event.begun es := by
  obtain ⟨before, inner, after, rfl, -⟩ := h
  simp [Event.begun]

end DeclaredFirst

namespace Writing
variable {outputs : Outputs}

def textOf (outputs : Outputs) (w : Writing) : Action → String
  | .write s => s
  | .printType t => (t.print w.tracker).1
  | .printSymbol s => (w.tracker.register s).1
  | .usage o => outputs.label o
  | _ => ""

/-- What an action other than a declaration site does. -/
def act (outputs : Outputs) (w : Writing) : Action → Writing
  | .write s => w.write s
  | .printType t => w.printType t
  | .printSymbol s => w.printSymbol s
  | .reference o => w.reference o
  | .usage o => (w.reference o).write (outputs.label o)
  | .declare _ => w
  | .raise => { w with writer := w.writer.raise }
  | .lower => { w with writer := w.writer.lower }

theorem perform_cons_of_site? {a : Action} (h : a.site? = none) (rest : List Action)
    (w : Writing) : perform outputs (a :: rest) w = perform outputs rest (w.act outputs a) := by
  cases a with
  | declare o => simp [Action.site?] at h
  | _ => rw [perform, act]

@[simp] theorem unopened_act (w : Writing) (a : Action) :
    (w.act outputs a).registry.unopened outputs = w.registry.unopened outputs := by
  cases a with
  | reference o => exact Registry.unopened_reference w.registry outputs o
  | usage o => exact Registry.unopened_reference w.registry outputs o
  | _ => rfl

theorem writer_act (w : Writing) {a : Action} (h : a.site? = none) :
    (w.act outputs a).writer = Event.write w.writer (.did a (w.textOf outputs a)) := by
  cases a with
  | declare o => simp [Action.site?] at h
  | reference o => simp [act, Writing.reference, Event.write, textOf]
  | _ => rfl

theorem unopened_perform_le (outputs : Outputs) (actions : List Action) (w : Writing) :
    (perform outputs actions w).registry.unopened outputs ≤ w.registry.unopened outputs := by
  fun_induction perform outputs actions w with
  | case1 => exact Nat.le_refl _
  | case5 o rest w ih | case6 o rest w ih =>
    exact Nat.le_trans ih (Nat.le_of_eq (Registry.unopened_reference w.registry outputs o))
  | case7 o rest w due ih => exact Nat.le_trans ih (Nat.le_of_lt (unopened_emit_lt due))
  | case2 _ _ _ ih | case3 _ _ _ ih | case4 _ _ _ ih | case8 _ _ _ _ ih | case9 _ _ ih
  | case10 _ _ ih => exact ih

def events (outputs : Outputs) : List Action → Writing → List Event
  | [], _ => []
  | .declare o :: rest, w =>
    if _due : w.isDue outputs o then
      let inner := Template.script (outputs.body o)
      .began o :: (events outputs inner (w.emit o) ++
        .ended o :: events outputs rest (perform outputs inner (w.emit o)))
    else .passed o :: events outputs rest w
  | a :: rest, w => .did a (w.textOf outputs a) :: events outputs rest (w.act outputs a)
termination_by actions w => (w.registry.unopened outputs, actions.length)
decreasing_by
  · exact Prod.Lex.left _ _ (unopened_emit_lt _due)
  · exact Prod.Lex.left _ _ (Nat.lt_of_le_of_lt (unopened_perform_le _ _ _) (unopened_emit_lt _due))
  · exact Prod.Lex.right _ (by simp)
  · rw [unopened_act]; exact Prod.Lex.right _ (by simp)

theorem site?_eq_none {a : Action} (h : ∀ o, a = .declare o → False) : a.site? = none := by
  cases a with
  | declare o => exact (h o rfl).elim
  | _ => rfl

theorem course_events (outputs : Outputs) (actions : List Action) (w : Writing) :
    Course outputs actions (events outputs actions w) := by
  fun_induction events outputs actions w with
  | case1 => exact .nil
  | case2 o rest w due inner ihInner ihRest => exact .declared ihInner ihRest
  | case3 o rest w _ ih => exact .passed ih
  | case4 a rest w hsite ih => exact .did _ (site?_eq_none hsite) ih

/-- The writer ends as the events leave it: the text of a render is what its events write. -/
theorem writer_perform (outputs : Outputs) (actions : List Action) (w : Writing) :
    (perform outputs actions w).writer = (events outputs actions w).foldl Event.write w.writer := by
  fun_induction events outputs actions w with
  | case1 => rw [perform]; rfl
  | case2 o rest w due inner ihInner ihRest =>
    rw [perform_declare_of_isDue due, ihRest, ihInner]
    simp only [List.foldl_cons, List.foldl_append]
    rfl
  | case3 o rest w notDue ih =>
    rw [perform_declare_of_not_isDue (by simpa using notDue), ih]
    rfl
  | case4 a rest w hsite ih =>
    have hnone := site?_eq_none hsite
    rw [perform_cons_of_site? hnone, ih, writer_act w hnone]
    rfl

/-- The changes to the registry are the calls among the events. -/
theorem trace_perform (outputs : Outputs) (actions : List Action) (w : Writing) :
    w.registry.Trace (Event.calls (events outputs actions w))
      (perform outputs actions w).registry := by
  fun_induction events outputs actions w with
  | case1 w =>
    rw [perform]
    exact .nil w.registry
  | case2 o rest w due inner ihInner ihRest =>
    have hstate : w.registry.state o = .referenced := by
      simp only [isDue, Bool.and_eq_true, beq_iff_eq] at due
      exact due.2
    have hbegin : w.registry.beginEmit o = (true, (w.emit o).registry) :=
      (Registry.beginEmit_eq_true_iff _ _ _).mpr ⟨hstate, rfl⟩
    rw [perform_declare_of_isDue due]
    rw [Event.calls_declared]
    exact .beginEmit hbegin (ihInner.append ihRest)
  | case3 o rest w notDue ih =>
    rw [perform_declare_of_not_isDue (by simpa using notDue)]
    exact ih
  | case4 a rest w hsite ih =>
    rw [perform_cons_of_site? (site?_eq_none hsite)]
    cases a with
    | reference o => exact .reference ih
    | usage o => exact .reference ih
    | _ => exact ih

theorem emitted_perform_iff (actions : List Action) (w : Writing) (o : OutputId) :
    (perform outputs actions w).registry.state o = .emitted ↔
      w.registry.state o = .emitted ∨ o ∈ Event.begun (events outputs actions w) := by
  rw [(trace_perform outputs actions w).emitted_iff, Event.mem_begun_iff_beginEmit]

/-- A declaration that begins was not emitted before, so that none begins twice. -/
theorem begun_events (actions : List Action) (w : Writing) :
    (Event.begun (events outputs actions w)).Nodup ∧
      ∀ o ∈ Event.begun (events outputs actions w), w.registry.state o ≠ .emitted := by
  have htrace := trace_perform outputs actions w
  constructor
  · rw [Event.begun_eq]
    exact htrace.nodup_begun
  · intro o ho
    rw [Event.mem_begun_iff_beginEmit] at ho
    obtain ⟨before, after, heq⟩ := List.append_of_mem ho
    rw [heq] at htrace
    exact htrace.of_beginEmit.2.1

theorem isDue_act {w : Writing} {o : OutputId} (h : w.isDue outputs o = true) (a : Action) :
    (w.act outputs a).isDue outputs o = true := by
  simp only [isDue, Bool.and_eq_true, decide_eq_true_eq, beq_iff_eq] at h ⊢
  refine ⟨h.1, ?_⟩
  have hkeep (p : OutputId) : (w.registry.reference p).2.state o = .referenced := by
    rw [Registry.state_reference]
    simp [h.2]
  cases a with
  | reference p => exact hkeep p
  | usage p => exact hkeep p
  | _ => exact h.2

/-- An output that is due is declared at the first of its sites that is reached, and stays due if
none is. -/
theorem declaredFirst_or_isDue (actions : List Action) {w : Writing} {o : OutputId}
    (h : w.isDue outputs o = true) :
    DeclaredFirst outputs o (events outputs actions w) ∨
      (∀ e ∈ events outputs actions w, e.site? ≠ some o) ∧
        (perform outputs actions w).isDue outputs o = true := by
  fun_induction events outputs actions w with
  | case1 => exact Or.inr ⟨by simp, by rwa [perform]⟩
  | case2 p rest w due inner ihInner ihRest =>
    by_cases hop : o = p
    · subst p
      exact Or.inl ⟨[], _, _, rfl, course_events _ _ _, by simp⟩
    · have hfirst : (Event.began p).site? ≠ some o := by simpa [Event.site?] using Ne.symm hop
      have hlast : (Event.ended p).site? ≠ some o := by simp [Event.site?]
      have hemit : (w.emit p).isDue outputs o = true := by
        simpa [isDue, emit, Registry.state_set_of_ne _ _ hop] using h
      rcases ihInner hemit with hin | ⟨hpass, hdue⟩
      · exact Or.inl ((hin.append _).cons hfirst)
      · rw [perform_declare_of_isDue due]
        rcases ihRest hdue with hin | ⟨hpass', hdue'⟩
        · exact Or.inl (((hin.cons hlast).prepend _ hpass).cons hfirst)
        · refine Or.inr ⟨?_, hdue'⟩
          intro e he
          simp only [List.mem_cons, List.mem_append] at he
          rcases he with rfl | he | rfl | he
          · exact hfirst
          · exact hpass e he
          · exact hlast
          · exact hpass' e he
  | case3 p rest w notDue ih =>
    have hop : p ≠ o := by
      rintro rfl
      exact notDue h
    have hfirst : (Event.passed p).site? ≠ some o := by simpa [Event.site?] using hop
    rw [perform_declare_of_not_isDue (by simpa using notDue)]
    rcases ih h with hin | ⟨hpass, hdue⟩
    · exact Or.inl (hin.cons hfirst)
    · exact Or.inr ⟨List.forall_mem_cons.mpr ⟨hfirst, hpass⟩, hdue⟩
  | case4 a rest w hsite ih =>
    have hfirst : (Event.did a (w.textOf outputs a)).site? ≠ some o := by simp [Event.site?]
    rw [perform_cons_of_site? (site?_eq_none hsite)]
    rcases ih (isDue_act h a) with hin | ⟨hpass, hdue⟩
    · exact Or.inl (hin.cons hfirst)
    · exact Or.inr ⟨List.forall_mem_cons.mpr ⟨hfirst, hpass⟩, hdue⟩

end Writing

end TypeScriptComposer
