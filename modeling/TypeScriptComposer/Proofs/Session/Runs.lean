import TypeScriptComposer.Proofs.Survey.Live
import TypeScriptComposer.Proofs.Writing.Events
import TypeScriptComposer.Session

/-!
# One declaration at most in a session

The operations of a session come in any order: a render without preparation, one after a refused
preparation, uses and beginnings noted by hand between two renders. Each of them changes the
registry by calls, and all calls of a run are one trace. What holds of a trace therefore holds of
the run: no declaration begins twice in it, whichever texts it is about.
-/

set_option autoImplicit false

namespace TypeScriptComposer

/-- The templates that a render of `root` can come to: itself, and the declarations of the outputs
with a site in one of them. -/
inductive WithinReach (outputs : Outputs) (root : Template) : Template → Prop where
  | root : WithinReach outputs root root
  | body {t : Template} {o : OutputId} : WithinReach outputs root t → o ∈ Template.sites t →
      WithinReach outputs root (outputs.body o)

namespace WithinReach
variable {outputs : Outputs} {root : Template} {actions : List Action} {es : List Event}

/-- Everything that is live is within reach. -/
theorem of_live {r : Registry} {o : OutputId} (ho : o ∈ liveOutputs outputs r root) :
    WithinReach outputs root (outputs.body o) := by
  apply liveOutputs_subset {p | WithinReach outputs root (outputs.body p)} _ o ho
  intro p hp
  obtain ⟨-, -, hsite | ⟨q, hq, hsite⟩⟩ := hp
  · exact .body .root hsite
  · exact .body hq hsite

theorem of_began (h : Course outputs actions es)
    (hsites : ∀ o, .declare o ∈ actions → ∃ t, WithinReach outputs root t ∧ o ∈ Template.sites t)
    {o : OutputId} (ho : .began o ∈ es) :
    ∃ t, WithinReach outputs root t ∧ o ∈ Template.sites t := by
  induction h with
  | nil => simp at ho
  | did _ _ _ ih =>
    exact ih (fun p hp => hsites p (List.mem_cons_of_mem _ hp)) (by simpa using ho)
  | passed _ ih =>
    exact ih (fun p hp => hsites p (List.mem_cons_of_mem _ hp)) (by simpa using ho)
  | @declared p rest inner es _ _ ihInner ih =>
    obtain ⟨t, ht, hp⟩ := hsites p List.mem_cons_self
    have hcases : o = p ∨ .began o ∈ inner ∨ .began o ∈ es := by simpa using ho
    rcases hcases with rfl | hmem | hmem
    · exact ⟨t, ht, hp⟩
    · refine ihInner (fun q hq => ⟨outputs.body p, .body ht hp, ?_⟩) hmem
      exact (Template.mem_sites_iff_script _ q).mpr hq
    · exact ih (fun q hq => hsites q (List.mem_cons_of_mem _ hq)) hmem

/-- The calls of a render are for outputs that are mentioned within its reach. -/
theorem of_call (h : Course outputs (Template.script root) es) {c : Registry.Call}
    (hc : c ∈ Event.calls es) : ∃ t, WithinReach outputs root t ∧
      (c.output ∈ Template.references t ∨ c.output ∈ Template.sites t) := by
  have hbegan (o : OutputId) (ho : .began o ∈ es) :
      ∃ t, WithinReach outputs root t ∧ o ∈ Template.sites t := by
    refine of_began h (fun p hp => ⟨root, .root, ?_⟩) ho
    exact (Template.mem_sites_iff_script root p).mpr hp
  cases c with
  | beginEmit o =>
    obtain ⟨t, ht, ho⟩ := hbegan o (by rwa [← Event.mem_begun_iff, Event.mem_begun_iff_beginEmit])
    exact ⟨t, ht, Or.inr ho⟩
  | reference o =>
    obtain ⟨a, text, ha, ho⟩ := (Event.reference_mem_calls o es).mp hc
    rcases h.mem_of_did ha with hroot | ⟨p, hp, hbody⟩
    · exact ⟨root, .root, Or.inl ((Template.mem_references_iff_script root o).mpr ⟨a, hroot, ho⟩)⟩
    · obtain ⟨t, ht, hsite⟩ := hbegan p hp
      refine ⟨outputs.body p, .body ht hsite, Or.inl ?_⟩
      exact (Template.mem_references_iff_script _ o).mpr ⟨a, hbody, ho⟩

end WithinReach

/-- The text that events write at a level of indentation. -/
def Event.text (indent : Indent) (level : Nat) (es : List Event) : String :=
  (es.foldl Event.write (.start indent level)).text

namespace Session
variable {s : Session}

/-- The outputs that an operation is about: the one that it names, and those that are mentioned in
what it can come to. A preparation only notes uses. -/
def Reaches (s : Session) : Operation → OutputId → Prop
  | .prepare t, o => ∃ u, WithinReach s.outputs t u ∧ o ∈ Template.references u
  | .renderIn t _, o =>
    ∃ u, WithinReach s.outputs t u ∧ (o ∈ Template.references u ∨ o ∈ Template.sites u)
  | .declareIfUsed p _, o => o = p ∨ ∃ u, WithinReach s.outputs (s.outputs.body p) u ∧
      (o ∈ Template.references u ∨ o ∈ Template.sites u)
  | .reference p, o | .beginEmit p, o => o = p
  | _, _ => False

def Operation.script : Operation → List Action
  | .renderIn t _ => t.script
  | .declareIfUsed o _ => [.declare o]
  | _ => []

/-- Where the writing of a template starts in a context, with the registry as it then is. -/
def writing (c : Context) (r : Registry) (level : Nat) : Writing :=
  ⟨c.tracker, r, .start c.indent level⟩

/-- What happens while an operation writes. -/
def events (s : Session) : Operation → List Event
  | .renderIn t level =>
    Writing.events s.outputs t.script (writing s.context s.context.registry level)
  | .declareIfUsed o level =>
    match s.context.registry.beginEmit o with
    | (false, _) => [.passed o]
    | (true, registry) =>
      .began o :: (Writing.events s.outputs (Template.script (s.outputs.body o))
        (writing s.context registry level) ++ [.ended o])
  | _ => []

/-- The changes that an operation makes to the registry. -/
def calls (s : Session) : Operation → List Registry.Call
  | .prepare t =>
    let survey := Survey.ofTemplate s.context.tracker s.outputs s.context.registry t
    ((survey.templates s.outputs t).flatMap Template.references).map .reference
  | .reference o => [.reference o]
  | .beginEmit o => if (s.context.registry.beginEmit o).1 then [.beginEmit o] else []
  | op => Event.calls (s.events op)

/-- The answer of an operation is what its events and calls say. -/
def Answers (s : Session) (op : Operation) : Prop :=
  match op with
  | .renderIn _ level => (s.step op).1 = .text (Event.text s.context.indent level (s.events op))
  | .declareIfUsed o level => (s.step op).1 =
      if o ∈ Event.begun (s.events op) then
        .text (Event.text s.context.indent level (s.events op))
      else .none
  | .reference o => (s.step op).1 = .flag (s.context.registry.state o == .unreferenced)
  | .beginEmit o => (s.step op).1 = .flag (.beginEmit o ∈ s.calls op)
  | _ => s.events op = []

section
variable {o : OutputId} {r : Registry}

theorem events_declareIfUsed_of_begun (h : s.context.registry.beginEmit o = (true, r))
    (level : Nat) : s.events (.declareIfUsed o level) =
      .began o :: (Writing.events s.outputs (Template.script (s.outputs.body o))
        (writing s.context r level) ++ [.ended o]) := by
  simp only [events, h]

theorem events_declareIfUsed_of_not_begun (h : s.context.registry.beginEmit o = (false, r))
    (level : Nat) : s.events (.declareIfUsed o level) = [.passed o] := by
  simp only [events, h]

theorem calls_declareIfUsed_of_begun (h : s.context.registry.beginEmit o = (true, r))
    (level : Nat) : s.calls (.declareIfUsed o level) =
      .beginEmit o :: Event.calls (Writing.events s.outputs
        (Template.script (s.outputs.body o)) (writing s.context r level)) := by
  have hcalls : s.calls (.declareIfUsed o level) =
      Event.calls (s.events (.declareIfUsed o level)) := rfl
  rw [hcalls, events_declareIfUsed_of_begun h, Event.calls_declared]
  exact congrArg _ (List.append_nil _)

theorem calls_declareIfUsed_of_not_begun (h : s.context.registry.beginEmit o = (false, r))
    (level : Nat) : s.calls (.declareIfUsed o level) = [] := by
  have hcalls : s.calls (.declareIfUsed o level) =
      Event.calls (s.events (.declareIfUsed o level)) := rfl
  rw [hcalls, events_declareIfUsed_of_not_begun h]
  rfl

theorem step_declareIfUsed_of_begun (h : s.context.registry.beginEmit o = (true, r))
    (level : Nat) : s.step (.declareIfUsed o level) =
      let w := Writing.perform s.outputs (Template.script (s.outputs.body o))
        (writing s.context r level)
      (.text w.writer.text,
        s.withContext { s.context with tracker := w.tracker, registry := w.registry }) := by
  simp only [step, Context.declareIfUsed, h]
  rfl

theorem step_declareIfUsed_of_not_begun (h : s.context.registry.beginEmit o = (false, r))
    (level : Nat) : s.step (.declareIfUsed o level) = (.none, s) := by
  simp only [step, Context.declareIfUsed, h]
  rfl

end

theorem trace_step (s : Session) (op : Operation) :
    s.context.registry.Trace (s.calls op) (s.step op).2.context.registry := by
  cases op with
  | prepare t =>
    have hsurvey := (Survey.follows_ofTemplate s.context.tracker s.outputs s.context.registry
      t).registry
    have hstep : (s.step (.prepare t)).2.context.registry =
        (Survey.ofTemplate s.context.tracker s.outputs s.context.registry t).registry := by
      simp only [step, withContext, Context.prepare]
      split <;> rfl
    rw [hstep, hsurvey]
    exact .referenceAll _ _
  | renderIn t level =>
    exact Writing.trace_perform s.outputs t.script (writing s.context s.context.registry level)
  | declareIfUsed o level =>
    cases h : s.context.registry.beginEmit o with
    | mk begun r =>
      cases begun with
      | false =>
        rw [calls_declareIfUsed_of_not_begun h, step_declareIfUsed_of_not_begun h]
        exact .nil _
      | true =>
        rw [calls_declareIfUsed_of_begun h, step_declareIfUsed_of_begun h]
        exact .beginEmit h (Writing.trace_perform s.outputs _ (writing s.context r level))
  | reference o => exact .reference (.nil _)
  | beginEmit o =>
    cases h : s.context.registry.beginEmit o with
    | mk begun r =>
      have hstep : (s.step (.beginEmit o)).2.context.registry = r := by
        simp only [step, withContext, h]
      rw [hstep, calls, h]
      cases begun with
      | false =>
        have hstate : s.context.registry.state o ≠ .referenced := by
          intro hstate
          simp [Registry.beginEmit, hstate] at h
        rw [Registry.beginEmit_of_ne hstate] at h
        cases h
        exact .nil _
      | true => exact .beginEmit h (.nil r)
  | setBody o body => exact .nil _
  | register symbol => exact .nil _
  | define name => exact .nil _

theorem course_step (s : Session) (op : Operation) :
    Course s.outputs op.script (s.events op) := by
  cases op with
  | renderIn t level => exact Writing.course_events _ _ _
  | declareIfUsed o level =>
    cases h : s.context.registry.beginEmit o with
    | mk begun r =>
      cases begun with
      | false =>
        rw [events_declareIfUsed_of_not_begun h]
        exact .passed .nil
      | true =>
        rw [events_declareIfUsed_of_begun h]
        exact .declared (Writing.course_events _ _ _) .nil
  | _ => exact .nil

theorem answers_step (s : Session) (op : Operation) : s.Answers op := by
  cases op with
  | renderIn t level =>
    have hwriter :=
      Writing.writer_perform s.outputs t.script (writing s.context s.context.registry level)
    exact congrArg (fun w : Writer => Answer.text w.text) hwriter
  | declareIfUsed o level =>
    cases h : s.context.registry.beginEmit o with
    | mk begun r =>
      cases begun with
      | false =>
        simp only [Answers, events_declareIfUsed_of_not_begun h, step_declareIfUsed_of_not_begun h,
          Event.begun, List.not_mem_nil, if_false]
      | true =>
        have hwriter := Writing.writer_perform s.outputs (Template.script (s.outputs.body o))
          (writing s.context r level)
        have htext : Event.text s.context.indent level (s.events (.declareIfUsed o level)) =
            (Writing.perform s.outputs (Template.script (s.outputs.body o))
              (writing s.context r level)).writer.text := by
          rw [events_declareIfUsed_of_begun h, hwriter, Event.text, List.foldl_cons,
            List.foldl_append]
          rfl
        have hbegun : o ∈ Event.begun (s.events (.declareIfUsed o level)) := by
          rw [events_declareIfUsed_of_begun h]
          exact List.mem_cons_self
        simp only [Answers, hbegun, if_true, htext, step_declareIfUsed_of_begun h]
  | reference o =>
    unfold Answers
    cases h : s.context.registry.state o <;> simp [step, Registry.reference, h]
  | beginEmit o =>
    unfold Answers
    cases h : s.context.registry.beginEmit o with
    | mk begun r => cases begun <;> simp [step, calls, h]
  | _ => rfl

theorem reaches_of_call {op : Operation} {c : Registry.Call} (hc : c ∈ s.calls op) :
    s.Reaches op c.output := by
  cases op with
  | prepare t =>
    obtain ⟨o, ho, rfl⟩ := List.mem_map.mp hc
    rcases (Survey.mem_templates_flatMap Template.references o).mp ho with hroot | ⟨p, hp, hbody⟩
    · exact ⟨t, .root, hroot⟩
    · have hlive := (Survey.mem_walkedOutputs_iff _ _ _ _ p).mp hp
      exact ⟨s.outputs.body p, .of_live hlive, hbody⟩
  | renderIn t level => exact WithinReach.of_call (s.course_step (.renderIn t level)) hc
  | declareIfUsed o level =>
    cases h : s.context.registry.beginEmit o with
    | mk begun r =>
      cases begun with
      | false => simp [calls_declareIfUsed_of_not_begun h] at hc
      | true =>
        rw [calls_declareIfUsed_of_begun h] at hc
        rcases List.mem_cons.mp hc with rfl | hc
        · exact Or.inl rfl
        · exact Or.inr (WithinReach.of_call (Writing.course_events _ _ _) hc)
  | reference o =>
    cases List.mem_singleton.mp hc
    rfl
  | beginEmit o =>
    rw [calls] at hc
    split at hc
    · cases List.mem_singleton.mp hc
      rfl
    · simp at hc
  | setBody o body => simp [calls, events, Event.calls] at hc
  | register symbol => simp [calls, events, Event.calls] at hc
  | define name => simp [calls, events, Event.calls] at hc

/-- An operation leaves the outputs alone that it does not reach. -/
theorem state_step_of_not_reaches {op : Operation} {o : OutputId} (h : ¬ s.Reaches op o) :
    (s.step op).2.context.registry.state o = s.context.registry.state o := by
  apply (s.trace_step op).state_eq
  rintro c hc rfl
  exact h (reaches_of_call hc)

/-- All changes that a run makes to the registry. -/
def callsIn (s : Session) : List Operation → List Registry.Call
  | [] => []
  | op :: ops => s.calls op ++ callsIn (s.step op).2 ops

/-- What happens in all texts that a run writes. -/
def eventsIn (s : Session) : List Operation → List Event
  | [] => []
  | op :: ops => s.events op ++ eventsIn (s.step op).2 ops

theorem run_cons (s : Session) (op : Operation) (ops : List Operation) :
    (s.run (op :: ops)).2 = ((s.step op).2.run ops).2 := rfl

theorem run_append (s : Session) (a b : List Operation) :
    (s.run (a ++ b)).2 = ((s.run a).2.run b).2 := by
  induction a generalizing s with
  | nil => rfl
  | cons op a ih =>
    rw [List.cons_append, run_cons, run_cons, ih]

theorem trace_run (s : Session) (ops : List Operation) :
    s.context.registry.Trace (s.callsIn ops) (s.run ops).2.context.registry := by
  induction ops generalizing s with
  | nil => exact .nil _
  | cons op ops ih => exact (s.trace_step op).append (ih (s.step op).2)

/-- The declarations that are written are among those that begin. -/
theorem begun_events_sublist (s : Session) (op : Operation) :
    (Event.begun (s.events op)).Sublist ((s.calls op).filterMap Registry.Call.begun?) := by
  cases op with
  | renderIn t level =>
    rw [Event.begun_eq]
    exact List.Sublist.refl _
  | declareIfUsed o level =>
    rw [Event.begun_eq]
    exact List.Sublist.refl _
  | _ => exact List.nil_sublist _

theorem begun_eventsIn_sublist (s : Session) (ops : List Operation) :
    (Event.begun (s.eventsIn ops)).Sublist ((s.callsIn ops).filterMap Registry.Call.begun?) := by
  induction ops generalizing s with
  | nil => exact List.nil_sublist _
  | cons op ops ih =>
    rw [eventsIn, callsIn, Event.begun_append, List.filterMap_append]
    exact (s.begun_events_sublist op).append (ih (s.step op).2)

/-- However the operations of a session follow each other, the outputs go forward only, no
declaration begins twice or without a use of its output, and none is written twice in all the texts
together. Each operation does to the registry what its calls say, writes what its events say, and
leaves the outputs alone that it does not reach. -/
theorem run_emits_once (outputs : Outputs) (settings : Settings) (ops : List Operation) :
    let s := start outputs settings
    let stateAfter (done : List Operation) := (s.run done).2.context.registry.state
    -- what one operation does, wherever it stands in the run
    (∀ before op after, ops = before ++ op :: after →
      let mid := (s.run before).2
      mid.context.registry.Trace (mid.calls op) (mid.step op).2.context.registry ∧
        Course mid.outputs op.script (mid.events op) ∧ mid.Answers op ∧
        ∀ o, ¬ mid.Reaches op o → stateAfter (before ++ [op]) o = stateAfter before o) ∧
    -- the outputs go forward
    (∀ before more after o, ops = before ++ more ++ after →
      (stateAfter before o).rank ≤ (stateAfter (before ++ more) o).rank) ∧
    -- all calls of the run
    Registry.Trace .empty (s.callsIn ops) (s.run ops).2.context.registry ∧
    (∀ before o after, s.callsIn ops = before ++ .beginEmit o :: after →
      .reference o ∈ before ∧ .beginEmit o ∉ before ∧ .beginEmit o ∉ after) ∧
    -- all texts of the run
    (Event.begun (s.eventsIn ops)).Nodup := by
  intro s stateAfter
  have htrace : Registry.Trace .empty (s.callsIn ops) (s.run ops).2.context.registry :=
    s.trace_run ops
  refine ⟨?_, ?_, htrace, ?_, htrace.nodup_begun.sublist (s.begun_eventsIn_sublist ops)⟩
  · intro before op after _
    refine ⟨trace_step _ op, course_step _ op, answers_step _ op, ?_⟩
    intro o hreach
    simp only [stateAfter, run_append]
    exact state_step_of_not_reaches hreach
  · intro before more after o _
    simp only [stateAfter, run_append]
    exact (trace_run _ more).rank_le o
  · intro before o after hcalls
    rw [hcalls] at htrace
    obtain ⟨hused, -, honce⟩ := htrace.of_beginEmit
    exact ⟨hused.resolve_left (by simp [Registry.empty]), honce⟩

end Session

end TypeScriptComposer
