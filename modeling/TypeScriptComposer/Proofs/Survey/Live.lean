import Mathlib
import TypeScriptComposer.Survey

/-!
# Live outputs

An output is live when its declaration is going to be written. That is a least fixed point: the
template is written, and the declaration of an output is written once the output is used and has
a declaration site, both in something that is written. The survey is a worklist algorithm for this
set, and here it is shown to walk exactly its members.

A render may begin with outputs that earlier ones have used; these count as used.
-/

set_option autoImplicit false

namespace TypeScriptComposer

/-- `o` is among the outputs that `mentions` finds in `root` or in the declaration of a member of
`written`. -/
def MentionedIn (mentions : Template → List OutputId) (outputs : Outputs) (root : Template)
    (written : Set OutputId) (o : OutputId) : Prop :=
  o ∈ mentions root ∨ ∃ p ∈ written, o ∈ mentions (outputs.body p)

theorem MentionedIn.mono {mentions : Template → List OutputId} {outputs : Outputs}
    {root : Template} {small large : Set OutputId} (hle : small ⊆ large) {o : OutputId}
    (h : MentionedIn mentions outputs root small o) :
    MentionedIn mentions outputs root large o := by
  rcases h with h | ⟨p, hp, h⟩
  · exact Or.inl h
  · exact Or.inr ⟨p, hle hp, h⟩

/-- The outputs whose declaration is written if at least those of `written` are. -/
def liveStep (outputs : Outputs) (r : Registry) (root : Template) :
    Set OutputId →o Set OutputId where
  toFun written := {o | o < outputs.length ∧
    (r.state o ≠ .unreferenced ∨ MentionedIn Template.references outputs root written o) ∧
    MentionedIn Template.sites outputs root written o}
  monotone' := by
    intro small large hle o ho
    obtain ⟨hknown, hused, hsited⟩ := ho
    exact ⟨hknown, hused.imp_right (MentionedIn.mono hle), hsited.mono hle⟩

/-- The outputs whose declaration a render of `root` writes, when the outputs start it in the
states of `r`. -/
def liveOutputs (outputs : Outputs) (r : Registry) (root : Template) : Set OutputId :=
  (liveStep outputs r root).lfp

section Live
variable {outputs : Outputs} {r : Registry} {root : Template}

theorem mem_liveOutputs_iff (o : OutputId) : o ∈ liveOutputs outputs r root ↔
    o < outputs.length ∧
    (r.state o ≠ .unreferenced ∨
      MentionedIn Template.references outputs root (liveOutputs outputs r root) o) ∧
    MentionedIn Template.sites outputs root (liveOutputs outputs r root) o := by
  have h : liveStep outputs r root (liveOutputs outputs r root) = liveOutputs outputs r root :=
    (liveStep outputs r root).map_lfp
  constructor
  · intro ho
    rw [← h] at ho
    exact ho
  · intro ho
    rw [← h]
    exact ho

/-- The rule that leads to live outputs is an induction principle for them. -/
theorem liveOutputs_subset (written : Set OutputId)
    (h : ∀ o ∈ liveStep outputs r root written, o ∈ written) :
    ∀ o ∈ liveOutputs outputs r root, o ∈ written := by
  intro o ho
  exact (liveStep outputs r root).lfp_le h ho

end Live

namespace Registry

theorem state_referenceAll (r : Registry) (os : List OutputId) (o : OutputId) :
    (r.referenceAll os).state o =
      if r.state o = .unreferenced ∧ o ∈ os then .referenced else r.state o := by
  induction os generalizing r with
  | nil => simp [referenceAll]
  | cons p os ih =>
    change ((r.reference p).2.referenceAll os).state o = _
    rw [ih, state_reference]
    by_cases hr : r.state o = .unreferenced
    · by_cases ho : o = p
      · simp [← ho, hr]
      · simp [hr, ho]
    · simp [hr]

end Registry

theorem mem_addNew (known os : List OutputId) (o : OutputId) :
    o ∈ addNew known os ↔ o ∈ known ∨ o ∈ os := by
  induction os generalizing known with
  | nil => simp [addNew]
  | cons p os ih =>
    change o ∈ addNew (if known.contains p then known else known ++ [p]) os ↔ _
    rw [ih]
    split
    · rename_i hp
      have hmem : p ∈ known := by simpa using hp
      constructor
      · rintro (h | h)
        · exact Or.inl h
        · exact Or.inr (List.mem_cons_of_mem p h)
      · rintro (h | h)
        · exact Or.inl h
        · rcases List.mem_cons.mp h with rfl | h
          · exact Or.inl hmem
          · exact Or.inr h
    · simp [or_assoc]

namespace Survey

def walkedOutputs (s : Survey) : List OutputId := s.walked.map (·.1)

theorem hasWalked_iff (s : Survey) (o : OutputId) : s.hasWalked o = true ↔ o ∈ s.walkedOutputs := by
  simp [hasWalked, walkedOutputs, List.any_eq_true]

def templates (outputs : Outputs) (root : Template) (s : Survey) : List Template :=
  root :: s.walkedOutputs.map outputs.body

/-- What a survey knows is what the templates it has walked say, and every declaration it has
walked is that of a live output. -/
structure Follows (tracker : Tracker) (outputs : Outputs) (r : Registry) (root : Template)
    (s : Survey) : Prop where
  registry : s.registry = r.referenceAll ((s.templates outputs root).flatMap Template.references)
  locals : s.locals = (((s.templates outputs root).flatMap Template.symbols).filter
    tracker.declares).map (·.value)
  sites : ∀ o, o ∈ s.sites ↔ o ∈ (s.templates outputs root).flatMap Template.sites
  walked : s.walked = s.walkedOutputs.map fun o => (o, Template.references (outputs.body o))
  nodup : s.walkedOutputs.Nodup
  live : ∀ o ∈ s.walkedOutputs, o ∈ liveOutputs outputs r root

variable {tracker : Tracker} {outputs : Outputs} {r : Registry} {root : Template} {s : Survey}

theorem mem_templates_flatMap (mentions : Template → List OutputId) (o : OutputId) :
    o ∈ (s.templates outputs root).flatMap mentions ↔
      MentionedIn mentions outputs root {p | p ∈ s.walkedOutputs} o := by
  simp [templates, MentionedIn]

theorem follows_start (tracker : Tracker) (outputs : Outputs) (r : Registry) (root : Template) :
    ((start r).visit tracker root).Follows tracker outputs r root where
  registry := by simp [visit, start, templates, Survey.walkedOutputs]
  locals := by simp [visit, start, templates, Survey.walkedOutputs]
  sites := by
    intro o
    simp [visit, start, templates, Survey.walkedOutputs, mem_addNew]
  walked := by simp [visit, start, Survey.walkedOutputs]
  nodup := by simp [visit, start, Survey.walkedOutputs]
  live := by
    intro o ho
    simp [visit, start, Survey.walkedOutputs] at ho

theorem walkedOutputs_walk (o : OutputId) :
    (s.walk tracker outputs o).walkedOutputs = s.walkedOutputs ++ [o] := by
  simp [Survey.walkedOutputs, walk]

theorem templates_walk (o : OutputId) :
    (s.walk tracker outputs o).templates outputs root =
      s.templates outputs root ++ [outputs.body o] := by
  simp [templates, walkedOutputs_walk]

theorem Follows.used_iff (h : s.Follows tracker outputs r root) (o : OutputId) :
    s.registry.state o ≠ .unreferenced ↔ r.state o ≠ .unreferenced ∨
      MentionedIn Template.references outputs root {p | p ∈ s.walkedOutputs} o := by
  rw [h.registry, Registry.state_referenceAll, ← mem_templates_flatMap]
  by_cases hr : r.state o = .unreferenced <;> simp [hr]

theorem awaits_iff (o : OutputId) : s.awaits outputs o = true ↔
    o < outputs.length ∧ s.registry.state o ≠ .unreferenced ∧ o ∉ s.walkedOutputs := by
  have h := s.hasWalked_iff o
  cases hw : s.hasWalked o <;> simp_all [awaits]

theorem Follows.next_mem_live (h : s.Follows tracker outputs r root) {o : OutputId}
    (hnext : s.next? outputs = some o) : o ∈ liveOutputs outputs r root := by
  obtain ⟨hknown, hstate, -⟩ := (awaits_iff o).mp (List.find?_some hnext)
  have hsite := (h.sites o).mp (List.mem_of_find?_eq_some hnext)
  have hle : {p | p ∈ s.walkedOutputs} ⊆ liveOutputs outputs r root := h.live
  apply (mem_liveOutputs_iff o).mpr
  refine ⟨hknown, ?_, ((mem_templates_flatMap _ o).mp hsite).mono hle⟩
  exact ((h.used_iff o).mp hstate).imp_right (MentionedIn.mono hle)

theorem Follows.walk (h : s.Follows tracker outputs r root) {o : OutputId}
    (hnext : s.next? outputs = some o) :
    (s.walk tracker outputs o).Follows tracker outputs r root where
  registry := by
    rw [templates_walk]
    simp only [Survey.walk, visit, h.registry, Registry.referenceAll, List.flatMap_append,
      List.foldl_append, List.flatMap_cons, List.flatMap_nil, List.append_nil]
  locals := by
    rw [templates_walk]
    simp [Survey.walk, visit, h.locals]
  sites := by
    intro p
    rw [templates_walk]
    simp only [Survey.walk, visit, mem_addNew, h.sites p, List.flatMap_append, List.mem_append,
      List.flatMap_cons, List.flatMap_nil, List.append_nil]
  walked := by
    rw [walkedOutputs_walk, List.map_append, ← h.walked]
    rfl
  nodup := by
    rw [walkedOutputs_walk]
    obtain ⟨-, -, hnew⟩ := (awaits_iff o).mp (List.find?_some hnext)
    rw [← List.concat_eq_append]
    exact List.Nodup.concat hnew h.nodup
  live := by
    intro p hp
    rw [walkedOutputs_walk] at hp
    rcases List.mem_append.mp hp with hp | hp
    · exact h.live p hp
    · have hpo : p = o := List.mem_singleton.mp hp
      subst p
      exact h.next_mem_live hnext

theorem Follows.complete (h : s.Follows tracker outputs r root) :
    (s.complete tracker outputs).Follows tracker outputs r root := by
  fun_induction Survey.complete tracker outputs s with
  | case1 s hnone => exact h
  | case2 s o hnext ih => exact ih (h.walk hnext)

theorem next?_complete (tracker : Tracker) (outputs : Outputs) (s : Survey) :
    (s.complete tracker outputs).next? outputs = none := by
  fun_induction Survey.complete tracker outputs s with
  | case1 s hnone => exact hnone
  | case2 s o hnext ih => exact ih

theorem follows_ofTemplate (tracker : Tracker) (outputs : Outputs) (r : Registry)
    (root : Template) : (ofTemplate tracker outputs r root).Follows tracker outputs r root :=
  (follows_start tracker outputs r root).complete

/-- The survey walks the declarations of the live outputs and no other. -/
theorem mem_walkedOutputs_iff (tracker : Tracker) (outputs : Outputs) (r : Registry)
    (root : Template) (o : OutputId) :
    o ∈ (ofTemplate tracker outputs r root).walkedOutputs ↔
      o ∈ liveOutputs outputs r root := by
  have h := follows_ofTemplate tracker outputs r root
  constructor
  · exact h.live o
  · apply liveOutputs_subset {p | p ∈ (ofTemplate tracker outputs r root).walkedOutputs}
    intro p hp
    obtain ⟨hknown, hused, hsited⟩ := hp
    have hnone : (ofTemplate tracker outputs r root).next? outputs = none := next?_complete _ _ _
    have hsite := (h.sites p).mpr ((mem_templates_flatMap _ p).mpr hsited)
    have hstate := (h.used_iff p).mpr hused
    by_contra hnew
    exact List.find?_eq_none.mp hnone p hsite ((awaits_iff p).mpr ⟨hknown, hstate, hnew⟩)

end Survey

end TypeScriptComposer
