import TypeScriptComposer.Proofs.Render.Declarations
import TypeScriptComposer.Proofs.Survey.Cycles

/-!
# Declarations that are not written have no influence

Two lists of outputs with the same labels may declare different things. If they agree on the outputs
that are live under one of them, the survey never looks at a declaration on which they differ, nor
does the search for cycles, nor the writing. The whole render is then the same for both, its failure
included.
-/

set_option autoImplicit false

namespace TypeScriptComposer

/-- The same outputs, with the same declarations for the members of `live`. -/
structure AgreeOn (live : Set OutputId) (outputs outputs' : Outputs) : Prop where
  labels : outputs'.map (·.label) = outputs.map (·.label)
  bodies : ∀ o ∈ live, outputs'.body o = outputs.body o

namespace AgreeOn
variable {live : Set OutputId} {outputs outputs' : Outputs}

theorem length_eq (h : AgreeOn live outputs outputs') : outputs'.length = outputs.length := by
  simpa using congrArg List.length h.labels

theorem label_eq (h : AgreeOn live outputs outputs') : outputs'.label = outputs.label := by
  funext o
  have hat := congrArg (·[o]?) h.labels
  simp only [List.getElem?_map] at hat
  rw [Outputs.label, Outputs.label, hat]

theorem isDue_eq (h : AgreeOn live outputs outputs') (w : Writing) :
    w.isDue outputs' = w.isDue outputs := by
  funext o
  rw [Writing.isDue, Writing.isDue, h.length_eq]

theorem cycleError_eq (h : AgreeOn live outputs outputs') :
    Context.cycleError outputs' = Context.cycleError outputs := by
  funext cycle
  rw [Context.cycleError, Context.cycleError, h.label_eq]

end AgreeOn

section
variable {tracker : Tracker} {outputs outputs' : Outputs} {r : Registry} {root : Template}

namespace Survey
variable {s : Survey}

theorem next?_eq {live : Set OutputId} (h : AgreeOn live outputs outputs') (s : Survey) :
    s.next? outputs' = s.next? outputs := by
  have hawaits : s.awaits outputs' = s.awaits outputs := by
    funext o
    rw [awaits, awaits, h.length_eq]
  rw [next?, next?, hawaits]

theorem complete_of_next?_eq_none (h : s.next? outputs = none) :
    s.complete tracker outputs = s := by
  rw [complete]
  split
  · rfl
  · rename_i o hnext
    simp [h] at hnext

theorem complete_of_next?_eq_some {o : OutputId} (h : s.next? outputs = some o) :
    s.complete tracker outputs = (s.walk tracker outputs o).complete tracker outputs := by
  rw [complete]
  split
  · rename_i hnone
    simp [h] at hnone
  · rename_i p hnext
    rw [h] at hnext
    cases hnext
    rfl

/-- The survey walks live declarations only, on which the outputs agree. -/
theorem Follows.complete_eq (hagree : AgreeOn (liveOutputs outputs r root) outputs outputs')
    (h : s.Follows tracker outputs r root) :
    s.complete tracker outputs' = s.complete tracker outputs := by
  fun_induction Survey.complete tracker outputs s with
  | case1 s hnone => exact complete_of_next?_eq_none ((next?_eq hagree s).trans hnone)
  | case2 s o hnext ih =>
    have hbody : outputs'.body o = outputs.body o := hagree.bodies o (h.next_mem_live hnext)
    have hwalk : s.walk tracker outputs' o = s.walk tracker outputs o := by
      rw [Survey.walk, Survey.walk, hbody]
    rw [complete_of_next?_eq_some ((next?_eq hagree s).trans hnext), hwalk]
    exact ih (h.walk hnext)

theorem ofTemplate_eq (hagree : AgreeOn (liveOutputs outputs r root) outputs outputs') :
    ofTemplate tracker outputs' r root = ofTemplate tracker outputs r root :=
  (follows_start tracker outputs r root).complete_eq hagree

end Survey

/-- What is live under one list of outputs is live under the other. -/
theorem liveOutputs_eq (hagree : AgreeOn (liveOutputs outputs r root) outputs outputs') :
    liveOutputs outputs' r root = liveOutputs outputs r root := by
  ext o
  have hwalked := Survey.mem_walkedOutputs_iff (.ofSettings .standard) outputs' r root o
  rw [Survey.ofTemplate_eq hagree] at hwalked
  rw [← hwalked, Survey.mem_walkedOutputs_iff]

namespace Writing

/-- The writing of a surveyed template comes to live declarations only. -/
theorem Surveyed.perform_eq (hagree : AgreeOn (liveOutputs outputs r root) outputs outputs')
    {actions : List Action} {w : Writing} (hw : w.Surveyed tracker outputs r root)
    (hactions : ∀ a ∈ actions, InWrittenText outputs r root a) :
    Writing.perform outputs' actions w = Writing.perform outputs actions w := by
  fun_induction Writing.perform outputs actions w with
  | case1 w => rw [Writing.perform]
  | case7 o rest w due ih =>
    obtain ⟨hsite, hrest⟩ := List.forall_mem_cons.mp hactions
    have hlive := hw.mem_live hsite due
    have hbody : outputs'.body o = outputs.body o := hagree.bodies o hlive
    rw [Writing.perform, dif_pos (by rwa [hagree.isDue_eq]), hbody]
    apply ih (hw.emit hlive)
    exact List.forall_mem_append.mpr ⟨fun a ha => Or.inr ⟨o, hlive, ha⟩, hrest⟩
  | case8 o rest w notDue ih =>
    rw [Writing.perform, dif_neg (by rwa [hagree.isDue_eq])]
    exact ih hw (List.forall_mem_cons.mp hactions).2
  | case6 o rest w ih =>
    obtain ⟨ha, hrest⟩ := List.forall_mem_cons.mp hactions
    rw [Writing.perform, hagree.label_eq]
    exact ih (hw.act ha) hrest
  | case2 _ rest w ih | case3 _ rest w ih | case4 _ rest w ih | case5 _ rest w ih
  | case9 rest w ih | case10 rest w ih =>
    obtain ⟨ha, hrest⟩ := List.forall_mem_cons.mp hactions
    rw [Writing.perform]
    exact ih (hw.act ha) hrest

end Writing

end

section
variable {outputs outputs' : Outputs} {c : Context} {t : Template}

theorem Context.prepare_eq (hagree : AgreeOn (liveOutputs outputs c.registry t) outputs outputs') :
    c.prepare outputs' t = c.prepare outputs t := by
  rw [prepare, prepare, Survey.ofTemplate_eq hagree, hagree.cycleError_eq]

/-- A template is written the same in the context that its preparation leaves, with or without an
error. -/
theorem Context.renderIn_prepare_eq
    (hagree : AgreeOn (liveOutputs outputs c.registry t) outputs outputs') (level : Nat) :
    (c.prepare outputs t).2.renderIn outputs' t level =
      (c.prepare outputs t).2.renderIn outputs t level := by
  have hsurveyed (w : Writing) (hw : w.registry = (c.prepare outputs t).2.registry) :
      w.Surveyed c.tracker outputs c.registry t := by
    intro o
    rw [hw, prepare]
    split <;> exact Or.inl rfl
  rw [renderIn, renderIn, (hsurveyed _ rfl).perform_eq hagree fun _ ha => Or.inl ha]

end

/-- If two lists of outputs with the same labels declare the same for every output that is live
under the first, then the same outputs are live under the second, and the render of the template is
the same under both: the same body and the same imports, or the same cycle. -/
theorem render_eq_of_agreeOn_live {outputs outputs' : Outputs} (settings : Settings) {t : Template}
    (h : AgreeOn (liveOutputs outputs .empty t) outputs outputs') :
    liveOutputs outputs' .empty t = liveOutputs outputs .empty t ∧
      t.render outputs' settings = t.render outputs settings := by
  refine ⟨liveOutputs_eq h, ?_⟩
  have hprepare : (Context.ofSettings settings).prepare outputs' t =
      (Context.ofSettings settings).prepare outputs t := Context.prepare_eq h
  have hwrite := Context.renderIn_prepare_eq (c := .ofSettings settings) h 0
  unfold Template.render
  rw [hprepare]
  split
  · rfl
  · rename_i c hc
    rw [hc] at hwrite
    rw [hwrite]

/-- The second output is used and has a site, but the site stands in its own declaration. Whatever
it declares, a local name or a cycle, the first render does not change. -/
theorem render_eq_of_agreeOn_live_site_within :
    let outputs : Outputs := [⟨"a", some [.text "A", .reference 1]⟩, ⟨"b", none⟩]
    let outputs' : Outputs := [⟨"a", some [.text "A", .reference 1]⟩,
      ⟨"b", some [.declaration 1, .usage 1, .symbol (.declared "Foo")]⟩]
    let t : Template := [.declaration 0, .usage 0, .symbol (.named "Foo" "./foo")]
    AgreeOn (liveOutputs outputs .empty t) outputs outputs' ∧
      t.render outputs' .standard = t.render outputs .standard := by
  intro outputs outputs' t
  have hlive : ∀ o ∈ liveOutputs outputs .empty t, o = 0 := by
    apply liveOutputs_subset {o | o = 0}
    rintro o ⟨-, -, hroot | ⟨p, rfl, hbody⟩⟩
    · simpa [t, Template.sites, Part.sites] using hroot
    · simp [outputs, Outputs.body, Template.sites, Part.sites] at hbody
  have hagree : AgreeOn (liveOutputs outputs .empty t) outputs outputs' := by
    refine ⟨rfl, ?_⟩
    intro o ho
    rw [hlive o ho]
    rfl
  exact ⟨hagree, (render_eq_of_agreeOn_live .standard hagree).2⟩

end TypeScriptComposer
