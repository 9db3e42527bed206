import TypeScriptComposer.Proofs.Render.Agreement
import TypeScriptComposer.Proofs.Render.Levels
import TypeScriptComposer.Proofs.Render.Written
import TypeScriptComposer.Proofs.Writing.Order
import TypeScriptComposer.Proofs.Writing.Reordered

/-!
# Rendering equal templates

Equality does not look at the order in which a function type names its parameters, and rendering
does. Nothing else is lost: equal templates fail alike, and when they name the parameters in the
same order they render the same, body and imports.

When they do not, they are not written from quite the same state, because the names that the file
declares are claimed in the order in which the templates mention them. This order decides no name,
so the texts still come to differ where the parameters do.
-/

set_option autoImplicit false

namespace TypeScriptComposer

namespace Survey
variable {tracker : Tracker} {outputs : Outputs} {s s' : Survey}

/-- Two surveys that have found the same, but for the names to claim. -/
structure Alike (s s' : Survey) : Prop where
  registry : s'.registry = s.registry
  sites : s'.sites = s.sites
  walked : s'.walked = s.walked

namespace Alike

theorem next?_eq (h : s.Alike s') : s'.next? outputs = s.next? outputs := by
  have hawaits : s'.awaits outputs = s.awaits outputs := by
    funext o
    rw [awaits, awaits, hasWalked, hasWalked, h.registry, h.walked]
  rw [next?, next?, hawaits, h.sites]

theorem walk (h : s.Alike s') (o : OutputId) :
    (s.walk tracker outputs o).Alike (s'.walk tracker outputs o) := by
  constructor <;> simp [Survey.walk, Survey.visit, h.registry, h.sites, h.walked]

theorem complete (h : s.Alike s') :
    (s.complete tracker outputs).Alike (s'.complete tracker outputs) := by
  fun_induction Survey.complete tracker outputs s generalizing s' with
  | case1 s hnone => rwa [complete_of_next?_eq_none (h.next?_eq.trans hnone)]
  | case2 s o hnext ih =>
    rw [complete_of_next?_eq_some (h.next?_eq.trans hnext)]
    exact ih (h.walk o)

end Alike

end Survey

section
variable {outputs : Outputs} {c : Context} {a b : Template}

theorem sameAll_eq_beq (a b : Template) : Part.sameAll a b = (a == b) := by
  induction a generalizing b with
  | nil => cases b <;> rfl
  | cons p ps ih =>
    cases b with
    | nil => rfl
    | cons q qs =>
      rw [Part.sameAll, ih]
      rfl

theorem Template.same_script (h : (a == b) = true) (ha : a.isKeyed = true)
    (hb : b.isKeyed = true) : List.Forall₂ Action.Same a.script b.script :=
  same_scriptAfter none ((sameAll_eq_beq a b).trans h) ha hb

theorem Template.parameterNames_script (t : Template) :
    Action.parameterNames t.script = t.parameterNames := by
  rw [Action.parameterNames, flatMap_types_script, parameterNames]

theorem Template.references_of_same (h : List.Forall₂ Action.Same a.script b.script) :
    references a = references b := by
  have hscript := Action.flatMap_references_of_same h
  rwa [flatMap_references_script, flatMap_references_script] at hscript

theorem Template.sites_of_same (h : List.Forall₂ Action.Same a.script b.script) :
    sites a = sites b := by
  have hscript := Action.flatMap_sites_of_same h
  rwa [flatMap_sites_script, flatMap_sites_script] at hscript

/-- Equal templates are surveyed with the same result, but for the names to claim. -/
theorem Survey.alike_of_same (tracker : Tracker) (r : Registry)
    (h : List.Forall₂ Action.Same a.script b.script) :
    (ofTemplate tracker outputs r a).Alike (ofTemplate tracker outputs r b) := by
  have hvisit : ((start r).visit tracker a).Alike ((start r).visit tracker b) := by
    constructor <;>
      simp [visit, Template.references_of_same h, Template.sites_of_same h]
  exact hvisit.complete

/-- Equal templates are prepared with the same result, whatever the order of parameters. -/
theorem Context.fst_prepare_eq_of_same (h : List.Forall₂ Action.Same a.script b.script) :
    (c.prepare outputs b).1 = (c.prepare outputs a).1 := by
  have hcycle : (Survey.ofTemplate c.tracker outputs c.registry b).cycle? =
      (Survey.ofTemplate c.tracker outputs c.registry a).cycle? := by
    rw [Survey.cycle?, Survey.cycle?, (Survey.alike_of_same c.tracker c.registry h).walked]
  rw [prepare, prepare, hcycle]
  split <;> rfl

theorem Context.prepare_eq_of_symbols_eq (h : List.Forall₂ Action.Same a.script b.script)
    (hsymbols : a.script.flatMap Action.symbols = b.script.flatMap Action.symbols) :
    c.prepare outputs b = c.prepare outputs a := by
  rw [Template.flatMap_symbols_script, Template.flatMap_symbols_script] at hsymbols
  have hvisit : (Survey.start c.registry).visit c.tracker b =
      (Survey.start c.registry).visit c.tracker a := by
    rw [Survey.visit, Survey.visit, Template.references_of_same h, Template.sites_of_same h,
      hsymbols]
  rw [prepare, prepare, Survey.ofTemplate, Survey.ofTemplate, hvisit]

theorem liveOutputs_eq_of_same (r : Registry) (h : List.Forall₂ Action.Same a.script b.script) :
    liveOutputs outputs r b = liveOutputs outputs r a := by
  have hstep : liveStep outputs r b = liveStep outputs r a := by
    ext written o
    simp only [liveStep, MentionedIn, Template.references_of_same h, Template.sites_of_same h]
  rw [liveOutputs, liveOutputs, hstep]

namespace Template
variable {settings : Settings} {page page' : Page}

theorem mem_written_iff_of_same (h : List.Forall₂ Action.Same a.script b.script) (s : Symbol) :
    s ∈ b.written outputs settings ↔ s ∈ a.written outputs settings := by
  have hroot := Action.mem_symbols_iff_of_same h s
  rw [flatMap_symbols_script, flatMap_symbols_script] at hroot
  rw [mem_written_iff, mem_written_iff, liveOutputs_eq_of_same .empty h, hroot]

theorem exists_page_of_same (h : List.Forall₂ Action.Same a.script b.script)
    (hpage : a.render outputs settings = .ok page) :
    ∃ page', b.render outputs settings = .ok page' := by
  have hprepare : ((Context.ofSettings settings).prepare outputs b).1 = _ :=
    Context.fst_prepare_eq_of_same h
  unfold render at hpage ⊢
  split at hpage
  · cases hpage
  · rename_i hok
    rw [hok] at hprepare
    split
    · rename_i herror
      rw [herror] at hprepare
      cases hprepare
    · exact ⟨_, rfl⟩

/-- Equal templates begin to be written in states that differ at most in the order in which the
declared names were claimed. -/
theorem reordered_opening (h : List.Forall₂ Action.Same a.script b.script)
    (ha : a.render outputs settings = .ok page) (hb : b.render outputs settings = .ok page') :
    (a.opening outputs settings).Reordered (b.opening outputs settings) := by
  have hprepared := prepared_opening ha
  have hprepared' := prepared_opening hb
  refine ⟨⟨?_, ?_, ?_, ?_, ?_⟩, ?_, ?_⟩
  · intro name
    simp only [hprepared.declared, hprepared'.declared, mem_written_iff_of_same h]
  · rw [hprepared.imports, hprepared'.imports]
  · rw [hprepared.modules, hprepared'.modules]
  · rw [hprepared.reserved, hprepared'.reserved]
  · rw [hprepared.ownModule, hprepared'.ownModule]
  · rw [registry_opening, registry_opening, (Survey.alike_of_same _ _ h).registry]
  · rw [writer_opening, writer_opening]

/-- Templates that fork when they are written from the same state render to different bodies. -/
theorem body_ne_of_forks (h : List.Forall₂ Action.Same a.script b.script)
    (hforks : ∀ w, Forks (· ≠ ·) (Writing.perform outputs a.script w).writer.text.toList
      (Writing.perform outputs b.script w).writer.text.toList)
    (ha : a.render outputs settings = .ok page) (hb : b.render outputs settings = .ok page') :
    page.body ≠ page'.body := by
  have hclosing : (Writing.perform outputs b.script (a.opening outputs settings)).Reordered _ :=
    Writing.Reordered.perform b.script _ _ (reordered_opening h ha hb)
  rw [page_of_render ha, page_of_render hb]
  intro heq
  apply (hforks (a.opening outputs settings)).ne
  rw [← hclosing.writer]
  exact congrArg String.toList heq

end Template

end

/-- Equal types print the same against the same tracker, and equal templates render the same under
the same settings, when they name the parameters of their function types in the same order. When
they do not, types print different texts, and templates are written as different texts, in the same
context and on their own, unless a colon stands in a name. Equal templates are refused alike in any
case. -/
theorem render_of_equal (tracker : Tracker) (outputs : Outputs) (settings : Settings) (c : Context)
    (level : Nat) :
    (∀ {t u : TypeExpr}, (t == u) = true → t.isKeyed = true → u.isKeyed = true →
      (t.parameterNames = u.parameterNames → t.print tracker = u.print tracker) ∧
      (t.parameterNames ≠ u.parameterNames →
        TypeExpr.WithoutColons (t.parameterNames ++ u.parameterNames) →
        (t.print tracker).1 ≠ (u.print tracker).1)) ∧
    ∀ {a b : Template}, (a == b) = true → a.isKeyed = true → b.isKeyed = true →
      (c.prepare outputs a).1 = (c.prepare outputs b).1 ∧
      (a.parameterNames = b.parameterNames →
        c.prepare outputs a = c.prepare outputs b ∧
        c.renderIn outputs a level = c.renderIn outputs b level ∧
        a.render outputs settings = b.render outputs settings) ∧
      (a.parameterNames ≠ b.parameterNames →
        TypeExpr.WithoutColons (a.parameterNames ++ b.parameterNames) →
        (c.renderIn outputs a level).1 ≠ (c.renderIn outputs b level).1 ∧
        ∀ page, a.render outputs settings = .ok page →
          ∃ page', b.render outputs settings = .ok page' ∧ page.body ≠ page'.body) := by
  refine ⟨fun h ht hu => TypeExpr.print_of_same h ht hu tracker, ?_⟩
  intro a b h ha hb
  have hscript := Template.same_script h ha hb
  refine ⟨(Context.fst_prepare_eq_of_same hscript).symm, ?_⟩
  have houtcome := Action.outcome_of_same hscript
  cases houtcome with
  | same hnames hsymbols hperform =>
    rw [Template.parameterNames_script, Template.parameterNames_script] at hnames
    have hprepare (c : Context) : c.prepare outputs a = c.prepare outputs b :=
      (Context.prepare_eq_of_symbols_eq hscript hsymbols).symm
    have hrender (c : Context) (level : Nat) :
        c.renderIn outputs a level = c.renderIn outputs b level :=
      Context.renderIn_congr (hperform outputs _)
    refine ⟨fun _ => ⟨hprepare c, hrender c level, ?_⟩, fun hne => absurd hnames hne⟩
    unfold Template.render
    rw [hprepare]
    split
    · rfl
    · rw [hrender]
  | fork hnames htexts =>
    rw [Template.parameterNames_script, Template.parameterNames_script] at hnames htexts
    refine ⟨fun heq => absurd heq hnames.ne, fun _ hcolons => ⟨fun heq => ?_, ?_⟩⟩
    · exact (htexts hcolons outputs (c.writing level)).ne (congrArg String.toList heq)
    · intro page hpage
      obtain ⟨page', hpage'⟩ := Template.exists_page_of_same hscript hpage
      exact ⟨page', hpage', Template.body_ne_of_forks hscript (htexts hcolons outputs) hpage hpage'⟩

/-- Two types of functions that are given a function. The bounds of its type variable name their
parameters in different orders, and are not printed. -/
theorem render_of_equal_bounds :
    let bound (ps : List (String × TypeExpr)) : TypeExpr :=
      .typeVar ⟨"F", [.ofUnion (.lambda ps .void)]⟩
    let foo := TypeExpr.ofSymbol (.named "Foo" "./foo")
    let t := TypeExpr.lambda [("f", bound [("x", .string), ("y", .number)]), ("g", foo)] foo
    let u := TypeExpr.lambda [("f", bound [("y", .number), ("x", .string)]), ("g", foo)] foo
    let a : Template := [.text "type T = ", .type t]
    let b : Template := [.text "type T = ", .type u]
    let c := Context.ofSettings .standard
    (t == u) = true ∧ (a == b) = true ∧ t.print c.tracker = u.print c.tracker ∧
    a.render [] .standard = b.render [] .standard := by
  intro bound foo t u a b c
  have hsame : (t == u) = true := by cbv
  have hsameAll : (a == b) = true := by cbv
  have hlambda (ps : List (String × TypeExpr)) :
      (TypeExpr.lambda [("f", bound ps), ("g", foo)] foo).isKeyed = true := by
    apply TypeExpr.isKeyed_lambda _ rfl
    simp only [List.forall_mem_cons]
    exact ⟨rfl, rfl, by simp⟩
  have htemplate {v : TypeExpr} (hv : v.isKeyed = true) :
      Template.isKeyed [.text "type T = ", .type v] = true := by
    simpa [Template.isKeyed, Template.types, Part.types, TypeExpr.areKeyed] using hv
  have hnames : t.parameterNames = u.parameterNames := by rfl
  have hnamesAll : a.parameterNames = b.parameterNames := by rfl
  have hboth := render_of_equal c.tracker [] .standard c 0
  exact ⟨hsame, hsameAll, (hboth.1 hsame (hlambda _) (hlambda _)).1 hnames,
    ((hboth.2 hsameAll (htemplate (hlambda _)) (htemplate (hlambda _))).2.1 hnamesAll).2.2⟩

/-- Two equal function types that print their parameters in different orders, alone and in equal
templates. -/
theorem render_of_equal_reordered :
    let t := TypeExpr.lambda [("a", .literal "A"), ("b", .literal "B")] .void
    let u := TypeExpr.lambda [("b", .literal "B"), ("a", .literal "A")] .void
    let tracker := Tracker.ofSettings .standard
    let page (body : String) : Page := ⟨body, .ofTracker tracker .double, true⟩
    (t == u) = true ∧ ([Part.type t] == [Part.type u]) = true ∧
    (t.print tracker).1 = "(a: A, b: B) => void" ∧ (u.print tracker).1 = "(b: B, a: A) => void" ∧
    Template.render [] .standard [.type t] = .ok (page "(a: A, b: B) => void") ∧
    Template.render [] .standard [.type u] = .ok (page "(b: B, a: A) => void") := by
  intro t u tracker page
  refine ⟨by cbv, by cbv, by cbv, by cbv, by cbv, by cbv⟩

end TypeScriptComposer
