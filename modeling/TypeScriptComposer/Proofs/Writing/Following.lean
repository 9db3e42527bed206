import TypeScriptComposer.Proofs.Layout.Margins
import TypeScriptComposer.Proofs.Writing.Events
import TypeScriptComposer.Proofs.Writing.Transcript

/-!
# Writing beside a transcript

Carrying out the script of a template does to names and outputs what its transcript does. How the
two texts compare is a relation between a writer and a text, and it is enough that each step of the
layout keeps it: writing, holding back the indentation that an opening text ends with, and then
either writing that indentation after all or dropping it in front of a block.
-/

set_option autoImplicit false

namespace TypeScriptComposer

mutual

/-- Whether no block stands directly behind a text that opens one, at any depth. -/
def Part.isFlat : Part → Bool
  | .nested parts => Template.isFlatAfter none parts
  | .list items _ => Part.areFlat items
  | _ => true

def Part.areFlat : List Part → Bool
  | [] => true
  | p :: ps => p.isFlat && Part.areFlat ps

/-- The same of parts behind a part that ends with the indentation `held`. -/
def Template.isFlatAfter (held : Option String) : List Part → Bool
  | [] => true
  | p :: ps => !(held.isSome && p.isBlock) && p.isFlat && Template.isFlatAfter p.held? ps

end

def Template.isFlat (t : Template) : Bool := Template.isFlatAfter none t

namespace Part
variable {p : Part} {held : Option String} {actions : List Action}

theorem held?_of_isBlock (h : p.isBlock = true) : p.held? = none := by
  cases p with
  | text s => simp [isBlock] at h
  | _ => rfl

theorem held?_eq_some {indentation : String} (h : p.held? = some indentation) :
    ∃ s, p = .text s ∧ opensBlock s = true ∧ afterLastBreak s = indentation := by
  cases p with
  | text s =>
    by_cases hs : opensBlock s = true
    · exact ⟨s, rfl, hs, by simpa [held?, hs] using h⟩
    · simp [held?, hs] at h
  | _ => simp [held?] at h

theorem placed_of_block (h : (held.isSome && p.isBlock) = true) :
    p.placed held actions = .raise :: actions ++ [.lower] := by
  unfold placed
  rw [if_pos h]

theorem placed_text {s : String} (h : opensBlock s = true) :
    (Part.text s).placed held actions =
      (held.map Action.write).toList ++ [.write (throughLastBreak s)] := by
  simp [placed, isBlock, h]

theorem placed_of_held?_eq_none (hblock : ¬ (held.isSome && p.isBlock) = true)
    (h : p.held? = none) : p.placed held actions = (held.map Action.write).toList ++ actions := by
  unfold placed
  rw [if_neg hblock]
  cases p with
  | text s =>
    by_cases hs : opensBlock s = true
    · simp [held?, hs] at h
    · simp [hs]
  | _ => rfl

end Part

/-- A relation between a writer and a text, while an indentation is held back or none, that every
step of a layout keeps. Without `blocks` it need not be kept where a block begins. -/
structure Tracking (blocks : Prop) (R : Option String → Writer → String → Prop) : Prop where
  write : ∀ {v text} (s : String), R none v text → R none (v.write s) (text ++ s)
  hold : ∀ {v text s}, opensBlock s = true → R none v text →
    R (some (afterLastBreak s)) (v.write (throughLastBreak s)) (text ++ s)
  release : ∀ {v text s}, R (some s) v text → R none (v.write s) text
  raise : ∀ {v text s}, blocks → R (some s) v text → R none v.raise text
  lower : ∀ {v text}, R none v text → R none v.lower text

namespace Writing
variable {outputs : Outputs}

theorem events_cons_of_site? {a : Action} (h : a.site? = none) (rest : List Action) (w : Writing) :
    events outputs (a :: rest) w =
      .did a (w.textOf outputs a) :: events outputs rest (w.act outputs a) := by
  cases a with
  | declare o => simp [Action.site?] at h
  | _ => rw [events]; simp

theorem events_declare_of_isDue {w : Writing} {o : OutputId} (h : w.isDue outputs o = true)
    (rest : List Action) : events outputs (.declare o :: rest) w =
      .began o :: (events outputs (Template.script (outputs.body o)) (w.emit o) ++ .ended o ::
        events outputs rest (perform outputs (Template.script (outputs.body o)) (w.emit o))) := by
  rw [events, dif_pos h]

theorem events_declare_of_not_isDue {w : Writing} {o : OutputId} (h : w.isDue outputs o = false)
    (rest : List Action) : events outputs (.declare o :: rest) w =
      .passed o :: events outputs rest w := by
  rw [events, dif_neg (by simp [h])]

theorem events_append (a b : List Action) (w : Writing) : events outputs (a ++ b) w =
    events outputs a w ++ events outputs b (perform outputs a w) := by
  fun_induction events outputs a w with
  | case1 => rw [perform]; rfl
  | case2 o rest w due inner ihInner ihRest =>
    rw [List.cons_append, events_declare_of_isDue due, ihRest, perform_declare_of_isDue due]
    simp [inner]
  | case3 o rest w notDue ih =>
    have hnot : w.isDue outputs o = false := by simpa using notDue
    rw [List.cons_append, events_declare_of_not_isDue hnot, ih, perform_declare_of_not_isDue hnot]
    rfl
  | case4 a rest w hsite ih =>
    have hnone := site?_eq_none hsite
    rw [List.cons_append, events_cons_of_site? hnone, ih, perform_cons_of_site? hnone]
    rfl

end Writing

/-- Actions do what parts add to a transcript, and lead from the relation with `held` to that with
`held'`. Without blocks, the declarations that begin among them are flat. -/
def Follows (outputs : Outputs) (blocks : Prop) (R : Option String → Writer → String → Prop)
    (held held' : Option String) (actions : List Action) (parts : List Part) (x : Transcript) :
    Prop :=
  ∀ v, R held v x.text →
    (∀ o ∈ Event.begun (Writing.events outputs actions (x.on v)),
      ¬ blocks → Template.isFlat (outputs.body o) = true) →
    ∃ v', Writing.perform outputs actions (x.on v) = (x.add outputs parts).on v' ∧
      R held' v' (x.add outputs parts).text

namespace Follows
variable {outputs : Outputs} {blocks : Prop} {R : Option String → Writer → String → Prop}
  {held held' held'' : Option String} {actions actions' : List Action} {parts parts' : List Part}
  {x : Transcript}

theorem nil : Follows outputs blocks R held held [] [] x := by
  intro v hv _
  exact ⟨v, by rw [Writing.perform, Transcript.add], by rwa [Transcript.add]⟩

theorem append (h : Follows outputs blocks R held held' actions parts x)
    (h' : Follows outputs blocks R held' held'' actions' parts' (x.add outputs parts)) :
    Follows outputs blocks R held held'' (actions ++ actions') (parts ++ parts') x := by
  intro v hv hbegun
  rw [Writing.events_append, Event.begun_append, List.forall_mem_append] at hbegun
  obtain ⟨v', hperform, hv'⟩ := h v hv hbegun.1
  rw [hperform] at hbegun
  obtain ⟨v'', hperform', hv''⟩ := h' v' hv' hbegun.2
  rw [Writing.perform_append, hperform, hperform', Transcript.add_append]
  exact ⟨v'', rfl, hv''⟩

/-- An action that is no declaration site. -/
theorem did {a : Action} (hsite : a.site? = none)
    (h : ∀ v, R held v x.text → ∃ v', (x.on v).act outputs a = (x.add outputs parts).on v' ∧
      R held' v' (x.add outputs parts).text) :
    Follows outputs blocks R held held' [a] parts x := by
  intro v hv _
  rw [Writing.perform_cons_of_site? hsite, Writing.perform]
  exact h v hv

theorem declare {o : OutputId} (h : (x.isDue outputs o = true) →
      (¬ blocks → Template.isFlat (outputs.body o) = true) →
      Follows outputs blocks R none none (Template.script (outputs.body o)) (outputs.body o)
        (x.emit o)) :
    Follows outputs blocks R none none [.declare o] [.declaration o] x := by
  intro v hv hbegun
  by_cases hdue : x.isDue outputs o = true
  · have hdue' : (x.on v).isDue outputs o = true := hdue
    rw [Writing.events_declare_of_isDue hdue'] at hbegun
    simp only [Event.begun, Event.begun_append, List.forall_mem_cons,
      List.forall_mem_append] at hbegun
    obtain ⟨v', hperform, hv'⟩ := h hdue hbegun.1 v hv hbegun.2.1
    rw [Transcript.add, dif_pos hdue, List.append_nil, Writing.perform_declare_of_isDue hdue',
      Writing.perform]
    exact ⟨v', hperform, hv'⟩
  · have hdue' : (x.on v).isDue outputs o = false := (Bool.not_eq_true _).mp hdue
    rw [Transcript.add, dif_neg hdue, Transcript.add, Writing.perform_declare_of_not_isDue hdue',
      Writing.perform]
    exact ⟨v, rfl, hv⟩

theorem release (hR : Tracking blocks R) (held : Option String) :
    Follows outputs blocks R held none (held.map Action.write).toList [] x := by
  cases held with
  | none => exact nil
  | some s =>
    apply did rfl
    intro v hv
    rw [Transcript.add]
    exact ⟨v.write s, rfl, hR.release hv⟩

theorem indented (hR : Tracking blocks R) (hblocks : blocks) {indentation : String}
    (h : Follows outputs blocks R none none actions parts x) :
    Follows outputs blocks R (some indentation) none (.raise :: actions ++ [.lower]) parts x := by
  have hraise : Follows outputs blocks R (some indentation) none [.raise] [] x := by
    apply did rfl
    intro v hv
    rw [Transcript.add]
    exact ⟨v.raise, rfl, hR.raise hblocks hv⟩
  have hlower : Follows outputs blocks R none none [.lower] [] (x.add outputs parts) := by
    apply did rfl
    intro v hv
    rw [Transcript.add]
    exact ⟨v.lower, rfl, hR.lower hv⟩
  have hx : x.add outputs [] = x := by rw [Transcript.add]
  have hinner := h.append hlower
  rw [List.append_nil] at hinner
  exact hraise.append (by rwa [hx])

/-- A part among others, from what it does apart from them. -/
theorem placed (hR : Tracking blocks R) {p : Part}
    (hflat : ¬ blocks → (held.isSome && p.isBlock) = false)
    (h : Follows outputs blocks R none none p.script [p] x) :
    Follows outputs blocks R held p.held? (p.placed held p.script) [p] x := by
  by_cases hblock : (held.isSome && p.isBlock) = true
  · obtain ⟨hheld, hp⟩ := (Bool.and_eq_true _ _).mp hblock
    obtain ⟨indentation, rfl⟩ := Option.isSome_iff_exists.mp hheld
    have hblocks : blocks := by
      by_contra hnot
      exact Bool.false_ne_true ((hflat hnot).symm.trans hblock)
    rw [Part.held?_of_isBlock hp, Part.placed_of_block hblock]
    exact indented hR hblocks h
  · have hrelease : Follows outputs blocks R held none (held.map Action.write).toList [] x :=
      release hR held
    have hx : x.add outputs [] = x := by rw [Transcript.add]
    cases hopens : p.held? with
    | none =>
      rw [Part.placed_of_held?_eq_none hblock hopens, ← List.nil_append [p]]
      exact hrelease.append (by rwa [hx])
    | some indentation =>
      obtain ⟨s, rfl, hs, rfl⟩ := Part.held?_eq_some hopens
      rw [Part.placed_text hs, ← List.nil_append [Part.text s]]
      apply hrelease.append
      apply did rfl
      intro v hv
      rw [hx, Transcript.add, Transcript.add]
      rw [hx] at hv
      exact ⟨v.write (throughLastBreak s), rfl, hR.hold hs hv⟩

end Follows

section Script
variable {outputs : Outputs} {blocks : Prop} {R : Option String → Writer → String → Prop}
  {n : Nat}

/-- What the script of every flat template does while fewer than `n` declarations can begin. -/
def FollowsBelow (outputs : Outputs) (blocks : Prop) (R : Option String → Writer → String → Prop)
    (n : Nat) : Prop :=
  ∀ (t : Template) (x : Transcript), x.registry.unopened outputs < n →
    (¬ blocks → t.isFlat = true) → Follows outputs blocks R none none t.script t x

mutual

theorem follows_part (hR : Tracking blocks R) (hbelow : FollowsBelow outputs blocks R n) :
    ∀ (p : Part) (x : Transcript), x.registry.unopened outputs ≤ n → (¬ blocks → p.isFlat = true) →
      Follows outputs blocks R none none p.script [p] x
  | .text s, x, _, _ => by
    rw [Part.script]
    apply Follows.did rfl
    intro v hv
    rw [Transcript.add, Transcript.add]
    exact ⟨v.write s, rfl, hR.write s hv⟩
  | .nested parts, x, hn, hflat => by
    have h := follows_after hR hbelow none parts x hn (by simpa [Part.isFlat] using hflat)
    unfold Follows at h ⊢
    rwa [Part.script, Transcript.add, List.append_nil]
  | .type t, x, _, _ => by
    rw [Part.script]
    apply Follows.did rfl
    intro v hv
    rw [Transcript.add, Transcript.add]
    exact ⟨_, rfl, hR.write (t.print x.tracker).1 hv⟩
  | .symbol s, x, _, _ => by
    rw [Part.script]
    apply Follows.did rfl
    intro v hv
    rw [Transcript.add, Transcript.add]
    exact ⟨_, rfl, hR.write (x.tracker.register s).1 hv⟩
  | .reference o, x, _, _ => by
    rw [Part.script]
    apply Follows.did rfl
    intro v hv
    rw [Transcript.add, Transcript.add]
    exact ⟨v, rfl, hv⟩
  | .usage o, x, _, _ => by
    rw [Part.script]
    apply Follows.did rfl
    intro v hv
    rw [Transcript.add, Transcript.add]
    exact ⟨_, rfl, hR.write (outputs.label o) hv⟩
  | .declaration o, x, hn, _ => by
    rw [Part.script]
    apply Follows.declare
    intro hdue hflat
    have hlt := Writing.unopened_emit_lt (w := x.on (.start .tab 0)) hdue
    exact hbelow _ _ (Nat.lt_of_lt_of_le hlt hn) hflat
  | .list items separator, x, hn, hflat => by
    have h := follows_items hR hbelow separator items x hn (by simpa [Part.isFlat] using hflat)
    unfold Follows at h ⊢
    rwa [Part.script, Transcript.add, List.append_nil]

theorem follows_items (hR : Tracking blocks R) (hbelow : FollowsBelow outputs blocks R n)
    (separator : String) : ∀ (ps : List Part) (x : Transcript), x.registry.unopened outputs ≤ n →
      (¬ blocks → Part.areFlat ps = true) →
      Follows outputs blocks R none none (Part.scriptOfItems separator ps)
        (ps.intersperse (.text separator)) x
  | [], x, _, _ => by
    rw [Part.scriptOfItems, List.intersperse_nil]
    exact .nil
  | p :: ps, x, hn, hflat => by
    have hboth (hnot : ¬ blocks) : p.isFlat = true ∧ Part.areFlat ps = true := by
      simpa [Part.areFlat] using hflat hnot
    rw [Part.scriptOfItems, Template.intersperse_cons, ← List.singleton_append]
    apply (follows_part hR hbelow p x hn fun hnot => (hboth hnot).1).append
    exact follows_rest hR hbelow separator ps _ (Nat.le_trans (x.unopened_add_le outputs [p]) hn)
      fun hnot => (hboth hnot).2

theorem follows_rest (hR : Tracking blocks R) (hbelow : FollowsBelow outputs blocks R n)
    (separator : String) : ∀ (ps : List Part) (x : Transcript), x.registry.unopened outputs ≤ n →
      (¬ blocks → Part.areFlat ps = true) →
      Follows outputs blocks R none none (Part.scriptOfRest separator ps)
        (ps.flatMap fun q => [.text separator, q]) x
  | [], x, _, _ => by
    rw [Part.scriptOfRest, List.flatMap_nil]
    exact .nil
  | p :: ps, x, hn, hflat => by
    have hboth (hnot : ¬ blocks) : p.isFlat = true ∧ Part.areFlat ps = true := by
      simpa [Part.areFlat] using hflat hnot
    have hseparator :
        Follows outputs blocks R none none [.write separator] [.text separator] x := by
      apply Follows.did rfl
      intro v hv
      rw [Transcript.add, Transcript.add]
      exact ⟨v.write separator, rfl, hR.write separator hv⟩
    have hn' := Nat.le_trans (x.unopened_add_le outputs [.text separator]) hn
    have hn'' := Nat.le_trans ((x.add outputs [.text separator]).unopened_add_le outputs [p]) hn'
    rw [Part.scriptOfRest, List.flatMap_cons, List.cons_append, ← List.singleton_append]
    apply hseparator.append
    apply (follows_part hR hbelow p _ hn' fun hnot => (hboth hnot).1).append
    exact follows_rest hR hbelow separator ps _ hn'' fun hnot => (hboth hnot).2

theorem follows_after (hR : Tracking blocks R) (hbelow : FollowsBelow outputs blocks R n)
    (held : Option String) : ∀ (ps : List Part) (x : Transcript),
      x.registry.unopened outputs ≤ n → (¬ blocks → Template.isFlatAfter held ps = true) →
      Follows outputs blocks R held none (Template.scriptAfter held ps) ps x
  | [], x, _, _ => by
    rw [Template.scriptAfter]
    exact .release hR held
  | p :: ps, x, hn, hflat => by
    have hall (hnot : ¬ blocks) : ((held.isSome && p.isBlock) = false ∧ p.isFlat = true) ∧
        Template.isFlatAfter p.held? ps = true := by
      simpa only [Template.isFlatAfter, Bool.and_eq_true, Bool.not_eq_true'] using hflat hnot
    rw [Template.scriptAfter, ← List.singleton_append]
    apply (Follows.placed hR (fun hnot => (hall hnot).1.1)
      (follows_part hR hbelow p x hn fun hnot => (hall hnot).1.2)).append
    exact follows_after hR hbelow p.held? ps _ (Nat.le_trans (x.unopened_add_le outputs [p]) hn)
      fun hnot => (hall hnot).2

end

/-- The script of a template does what its transcript does, whatever the layout. -/
theorem Tracking.follows_script (hR : Tracking blocks R) (t : Template) (x : Transcript)
    (hflat : ¬ blocks → t.isFlat = true) : Follows outputs blocks R none none t.script t x := by
  have hall (n : Nat) : FollowsBelow outputs blocks R n := by
    induction n with
    | zero =>
      intro t x hlt
      exact absurd hlt (Nat.not_lt_zero _)
    | succ n ih =>
      intro t x hlt hflat
      exact follows_after hR ih none t x (Nat.le_of_lt_succ hlt) hflat
  exact hall _ t x (Nat.lt_succ_self _) hflat

end Script

end TypeScriptComposer
