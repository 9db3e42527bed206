import TypeScriptComposer.Proofs.Template.Script
import TypeScriptComposer.Proofs.TypeExpr.Order
import TypeScriptComposer.Proofs.Writing.Following

/-!
# Writing equal templates

Equal templates have scripts that differ in types only, which are equal where they differ. Carried
out from the same state, such scripts do the same up to the first type that prints its parameters in
another order; there the texts fork, and a text that has forked is not made equal by what is written
behind it.
-/

set_option autoImplicit false

namespace TypeScriptComposer

namespace Writer

theorem prefix_foldl_put (w : Writer) (cs : List Char) :
    w.text.toList <+: (cs.foldl put w).text.toList := by
  induction cs generalizing w with
  | nil => exact List.prefix_rfl
  | cons c cs ih =>
    have hput : w.text.toList <+: (w.put c).text.toList := by
      rw [put_eq, String.toList_ofList]
      exact List.prefix_append _ _
    exact hput.trans (ih _)

/-- Different characters are different at their place in the text. In front of a line break there is
no margin, and in a margin there is no line break. -/
theorem forks_put (w : Writer) {c d : Char} (h : c ≠ d) :
    Forks (· ≠ ·) (w.put c).text.toList (w.put d).text.toList := by
  have hbreak {c : Char} (hc : c ≠ '\n') : ∃ x xs, x ≠ '\n' ∧ w.lead c ++ [c] = x :: xs := by
    cases hlead : w.lead c ++ [c] with
    | nil => simp at hlead
    | cons x xs =>
      have hnot := w.not_mem_lead hc
      rw [hlead, List.mem_cons, not_or] at hnot
      exact ⟨x, xs, Ne.symm hnot.1, rfl⟩
  have hlead : w.lead '\n' = [] := by simp [lead]
  rw [put_eq, put_eq, String.toList_ofList, String.toList_ofList]
  apply Forks.prepend
  by_cases hc : c = '\n'
  · obtain ⟨x, xs, hx, heq⟩ := hbreak (hc ▸ h.symm)
    rw [heq, hc, hlead]
    exact ⟨[], '\n', [], x, xs, hx.symm, rfl, rfl⟩
  · by_cases hd : d = '\n'
    · obtain ⟨x, xs, hx, heq⟩ := hbreak hc
      rw [heq, hd, hlead]
      exact ⟨[], x, xs, '\n', [], hx, rfl, rfl⟩
    · have hsame : w.lead d = w.lead c := by simp [lead, hc, hd]
      rw [hsame]
      exact Forks.prepend ⟨[], c, [], d, [], h, rfl, rfl⟩ _

theorem forks_write (w : Writer) {s s' : String} (h : Forks (· ≠ ·) s.toList s'.toList) :
    Forks (· ≠ ·) (w.write s).text.toList (w.write s').text.toList := by
  obtain ⟨front, c, cs, d, ds, hcd, hs, hs'⟩ := h
  rw [write, write, hs, hs', List.foldl_append, List.foldl_append, List.foldl_cons, List.foldl_cons]
  exact ((front.foldl put w).forks_put hcd).mono (prefix_foldl_put _ _) (prefix_foldl_put _ _)

end Writer

theorem Event.prefix_foldl_write (w : Writer) (es : List Event) :
    w.text.toList <+: (es.foldl Event.write w).text.toList := by
  induction es generalizing w with
  | nil => exact List.prefix_rfl
  | cons e es ih =>
    have hwrite : w.text.toList <+: (Event.write w e).text.toList := by
      cases e with
      | did a text =>
        cases a with
        | raise | lower => exact List.prefix_rfl
        | _ => exact w.prefix_foldl_put _
      | _ => exact List.prefix_rfl
    exact hwrite.trans (ih _)

theorem Writing.prefix_perform (outputs : Outputs) (actions : List Action) (w : Writing) :
    w.writer.text.toList <+: (perform outputs actions w).writer.text.toList := by
  rw [writer_perform]
  exact Event.prefix_foldl_write _ _

mutual

def Part.types : Part → List TypeExpr
  | .type t => [t]
  | .nested parts => Template.types parts
  | .list items _ => Template.types items
  | _ => []

/-- The types that stand anywhere in a template, in the order of writing and with repetitions. -/
def Template.types : List Part → List TypeExpr
  | [] => []
  | p :: ps => p.types ++ Template.types ps

end

/-- Whether the parameters of every function type in a template have different names. -/
def Template.isKeyed (t : Template) : Bool := TypeExpr.areKeyed (Template.types t)

/-- The parameter names of the function types that a template prints, in the order of writing. -/
def Template.parameterNames (t : Template) : List String :=
  (Template.types t).flatMap TypeExpr.parameterNames

namespace Action

def types : Action → List TypeExpr
  | .printType t => [t]
  | _ => []

/-- The same action, but that a type may stand for an equal one. -/
inductive Same : Action → Action → Prop
  | refl (a : Action) : Same a a
  | printType {t u : TypeExpr} : t.same u = true → t.isKeyed = true → u.isKeyed = true →
      Same (.printType t) (.printType u)

theorem same_refl (actions : List Action) : List.Forall₂ Same actions actions :=
  List.forall₂_same.mpr fun a _ => .refl a

end Action

theorem Template.flatMap_types_script (t : Template) :
    t.script.flatMap Action.types = Template.types t := by
  have h : Gathers Action.types Part.types Template.types := by
    constructor <;> intros <;> simp [Action.types, Part.types, Template.types]
  exact h.script_after none t

namespace Part
variable {p q : Part}

theorem isBlock_of_same (h : p.same q = true) : p.isBlock = q.isBlock := by
  cases p <;> cases q <;> simp_all [same, isBlock]

theorem held?_of_same (h : p.same q = true) : p.held? = q.held? := by
  cases p <;> cases q <;> simp_all [same, held?]

theorem same_placed (h : p.same q = true) (held : Option String) {as bs : List Action}
    (hscript : List.Forall₂ Action.Same as bs) :
    List.Forall₂ Action.Same (p.placed held as) (q.placed held bs) := by
  have hheld := held?_of_same h
  by_cases hblock : (held.isSome && p.isBlock) = true
  · rw [placed_of_block hblock, placed_of_block (isBlock_of_same h ▸ hblock)]
    exact .cons (.refl _) (List.rel_append hscript (Action.same_refl [.lower]))
  · have hblock' : ¬ (held.isSome && q.isBlock) = true := isBlock_of_same h ▸ hblock
    cases hopens : p.held? with
    | none =>
      rw [placed_of_held?_eq_none hblock hopens,
        placed_of_held?_eq_none hblock' (hheld.symm.trans hopens)]
      exact List.rel_append (Action.same_refl _) hscript
    | some indentation =>
      obtain ⟨s, rfl, hs, -⟩ := held?_eq_some hopens
      cases q <;> simp [same] at h
      rw [← h, placed_text hs, placed_text hs]
      exact Action.same_refl _

end Part

section
open TypeExpr (areKeyed areKeyed_append areKeyed_singleton)

mutual

theorem Part.same_script : ∀ {p q : Part}, p.same q = true → areKeyed p.types = true →
    areKeyed q.types = true → List.Forall₂ Action.Same p.script q.script
  | .text s, q, h, _, _ => by
    cases q <;> simp [Part.same] at h
    rw [h]
    exact Action.same_refl _
  | .nested parts, q, h, hp, hq => by
    cases q <;> simp only [Part.same, Bool.false_eq_true] at h
    rw [Part.script, Part.script]
    exact Template.same_scriptAfter none h hp hq
  | .type t, q, h, hp, hq => by
    cases q <;> simp only [Part.same, Bool.false_eq_true] at h
    rw [Part.script, Part.script]
    rw [Part.types, areKeyed_singleton] at hp hq
    exact .cons (.printType h hp hq) .nil
  | .symbol s, q, h, _, _ => by
    cases q <;> simp [Part.same] at h
    rw [h]
    exact Action.same_refl _
  | .reference o, q, h, _, _ => by
    cases q <;> simp [Part.same] at h
    rw [h]
    exact Action.same_refl _
  | .usage o, q, h, _, _ => by
    cases q <;> simp [Part.same] at h
    rw [h]
    exact Action.same_refl _
  | .declaration o, q, h, _, _ => by
    cases q <;> simp [Part.same] at h
    rw [h]
    exact Action.same_refl _
  | .list items separator, q, h, hp, hq => by
    cases q <;> simp [Part.same] at h
    rw [Part.script, Part.script, h.2]
    exact Part.same_scriptOfItems _ h.1 hp hq

theorem Part.same_scriptOfItems (separator : String) : ∀ {ps qs : List Part},
    Part.sameAll ps qs = true → areKeyed (Template.types ps) = true →
    areKeyed (Template.types qs) = true →
    List.Forall₂ Action.Same (Part.scriptOfItems separator ps) (Part.scriptOfItems separator qs)
  | [], qs, h, _, _ => by
    cases qs <;> simp [Part.sameAll] at h
    rw [Part.scriptOfItems]
    exact .nil
  | p :: ps, qs, h, hps, hqs => by
    cases qs with
    | nil => simp [Part.sameAll] at h
    | cons q qs =>
      rw [Part.sameAll, Bool.and_eq_true] at h
      rw [Template.types, areKeyed_append] at hps hqs
      rw [Part.scriptOfItems, Part.scriptOfItems]
      exact List.rel_append (Part.same_script h.1 hps.1 hqs.1)
        (Part.same_scriptOfRest separator h.2 hps.2 hqs.2)

theorem Part.same_scriptOfRest (separator : String) : ∀ {ps qs : List Part},
    Part.sameAll ps qs = true → areKeyed (Template.types ps) = true →
    areKeyed (Template.types qs) = true →
    List.Forall₂ Action.Same (Part.scriptOfRest separator ps) (Part.scriptOfRest separator qs)
  | [], qs, h, _, _ => by
    cases qs <;> simp [Part.sameAll] at h
    rw [Part.scriptOfRest]
    exact .nil
  | p :: ps, qs, h, hps, hqs => by
    cases qs with
    | nil => simp [Part.sameAll] at h
    | cons q qs =>
      rw [Part.sameAll, Bool.and_eq_true] at h
      rw [Template.types, areKeyed_append] at hps hqs
      rw [Part.scriptOfRest, Part.scriptOfRest]
      exact List.rel_append (.cons (.refl _) (Part.same_script h.1 hps.1 hqs.1))
        (Part.same_scriptOfRest separator h.2 hps.2 hqs.2)

theorem Template.same_scriptAfter (held : Option String) : ∀ {ps qs : List Part},
    Part.sameAll ps qs = true → areKeyed (Template.types ps) = true →
    areKeyed (Template.types qs) = true →
    List.Forall₂ Action.Same (Template.scriptAfter held ps) (Template.scriptAfter held qs)
  | [], qs, h, _, _ => by
    cases qs <;> simp [Part.sameAll] at h
    exact Action.same_refl _
  | p :: ps, qs, h, hps, hqs => by
    cases qs with
    | nil => simp [Part.sameAll] at h
    | cons q qs =>
      rw [Part.sameAll, Bool.and_eq_true] at h
      rw [Template.types, areKeyed_append] at hps hqs
      rw [Template.scriptAfter, Template.scriptAfter, Part.held?_of_same h.1]
      exact List.rel_append (Part.same_placed h.1 held (Part.same_script h.1 hps.1 hqs.1))
        (Template.same_scriptAfter q.held? h.2 hps.2 hqs.2)

end

end

section
variable {as bs : List Action}

theorem Action.flatMap_references_of_same (h : List.Forall₂ Action.Same as bs) :
    as.flatMap Action.references = bs.flatMap Action.references := by
  induction h with
  | nil => rfl
  | cons hab _ ih =>
    rw [List.flatMap_cons, List.flatMap_cons, ih]
    cases hab <;> rfl

theorem Action.flatMap_sites_of_same (h : List.Forall₂ Action.Same as bs) :
    as.flatMap Action.sites = bs.flatMap Action.sites := by
  induction h with
  | nil => rfl
  | cons hab _ ih =>
    rw [List.flatMap_cons, List.flatMap_cons, ih]
    cases hab <;> rfl

/-- The same symbols are registered, in whatever order. -/
theorem Action.mem_symbols_iff_of_same (h : List.Forall₂ Action.Same as bs) (s : Symbol) :
    s ∈ as.flatMap Action.symbols ↔ s ∈ bs.flatMap Action.symbols := by
  induction h with
  | nil => rfl
  | cons hab _ ih =>
    rw [List.flatMap_cons, List.flatMap_cons, List.mem_append, List.mem_append, ih]
    cases hab with
    | refl => rfl
    | printType hsame ht hu =>
      exact or_congr (TypeExpr.mem_symbols_iff_of_same hsame ht hu s) Iff.rfl

/-- The parameter names that a script prints. -/
def Action.parameterNames (actions : List Action) : List String :=
  (actions.flatMap Action.types).flatMap TypeExpr.parameterNames

theorem Action.parameterNames_cons (a : Action) (actions : List Action) :
    parameterNames (a :: actions) = parameterNames [a] ++ parameterNames actions := by
  simp [parameterNames]

/-- Scripts that are the same but for equal types either do the same from every state, or print
parameters in another order, and then their texts fork unless a colon stands in a name. -/
inductive Action.Outcome (as bs : List Action) : Prop
  | same : parameterNames as = parameterNames bs →
      as.flatMap Action.symbols = bs.flatMap Action.symbols →
      (∀ outputs w, Writing.perform outputs as w = Writing.perform outputs bs w) → Outcome as bs
  | fork : Forks (· ≠ ·) (parameterNames as) (parameterNames bs) →
      (TypeExpr.WithoutColons (parameterNames as ++ parameterNames bs) → ∀ outputs w,
        Forks (· ≠ ·) (Writing.perform outputs as w).writer.text.toList
          (Writing.perform outputs bs w).writer.text.toList) → Outcome as bs

namespace Action.Outcome

/-- Actions that do the same in front of scripts. -/
theorem behind {a b : Action} (h : Outcome as bs) (hnames : parameterNames [a] = parameterNames [b])
    (hsymbols : a.symbols = b.symbols)
    (hperform : ∀ outputs w, Writing.perform outputs [a] w = Writing.perform outputs [b] w) :
    Outcome (a :: as) (b :: bs) := by
  have hsplit (outputs : Outputs) (c : Action) (cs : List Action) (w : Writing) :
      Writing.perform outputs (c :: cs) w =
        Writing.perform outputs cs (Writing.perform outputs [c] w) :=
    Writing.perform_append outputs [c] cs w
  cases h with
  | same hrest hsymbolsRest hperformRest =>
    refine .same ?_ ?_ fun outputs w => ?_
    · rw [parameterNames_cons, parameterNames_cons b, hnames, hrest]
    · rw [List.flatMap_cons, List.flatMap_cons, hsymbols, hsymbolsRest]
    · rw [hsplit, hsplit outputs b, hperform, hperformRest]
  | fork hrest htexts =>
    refine .fork ?_ fun hcolons outputs w => ?_
    · rw [parameterNames_cons, parameterNames_cons b, hnames]
      exact hrest.prepend _
    · rw [parameterNames_cons, parameterNames_cons b] at hcolons
      rw [hsplit, hsplit outputs b, hperform]
      refine htexts (fun name hname => hcolons name ?_) outputs _
      rcases List.mem_append.mp hname with hmem | hmem
      · exact List.mem_append_left _ (List.mem_append_right _ hmem)
      · exact List.mem_append_right _ (List.mem_append_right _ hmem)

end Action.Outcome

/-- Scripts of equal templates come to one of the two ends, at the first type whose pieces are
different. -/
theorem Action.outcome_of_same (h : List.Forall₂ Action.Same as bs) : Action.Outcome as bs := by
  induction h with
  | nil => exact .same rfl rfl fun _ _ => rfl
  | @cons a b as bs hab _ ih =>
    cases hab with
    | refl => exact ih.behind rfl rfl fun _ _ => rfl
    | @printType t u hsame ht hu =>
      rcases (TypeExpr.agreeUntil_pieces hsame ht hu).eq_or_forks with hpieces | hforks
      · refine ih.behind ?_ (TypeExpr.symbols_of_pieces_eq hpieces) fun outputs w => ?_
        · simp [parameterNames, Action.types, TypeExpr.parameterNames, hpieces]
        · have hprint : w.printType t = w.printType u := by
            unfold Writing.printType
            rw [TypeExpr.print_of_pieces_eq hpieces]
          simp only [Writing.perform, hprint]
      · have hnames (t : TypeExpr) (rest : List Action) :
            parameterNames (.printType t :: rest) = t.parameterNames ++ parameterNames rest := by
          simp [parameterNames, Action.types]
        refine .fork ?_ fun hcolons outputs w => ?_
        · rw [hnames, hnames]
          exact (TypeExpr.forks_parameterNames hforks).mono (List.prefix_append _ _)
            (List.prefix_append _ _)
        · rw [hnames, hnames] at hcolons
          have hown : TypeExpr.WithoutColons (t.parameterNames ++ u.parameterNames) := by
            intro name hname
            rcases List.mem_append.mp hname with hmem | hmem
            · exact hcolons name (List.mem_append_left _ (List.mem_append_left _ hmem))
            · exact hcolons name (List.mem_append_right _ (List.mem_append_left _ hmem))
          have htexts := TypeExpr.forks_print hforks hown w.tracker
          have hwritten : Forks (· ≠ ·) (w.printType t).writer.text.toList
              (w.printType u).writer.text.toList := w.writer.forks_write htexts
          rw [Writing.perform, Writing.perform]
          exact hwritten.mono (Writing.prefix_perform outputs _ _)
            (Writing.prefix_perform outputs _ _)

end

end TypeScriptComposer
