import Mathlib.Computability.StateTransition
import TypeScriptComposer.Proofs.Survey.Live
import TypeScriptComposer.Survey.Cycle

/-!
# The survey step by step

The survey is a loop, and the search for a cycle a recursion along a graph that may have cycles.
Here both are transition systems with steps that recurse nowhere, so that coming to an end is a fact
about them. The loop ends because each round walks another output, and the search because no output
is on its stack twice.
-/

set_option autoImplicit false

namespace TypeScriptComposer

open StateTransition

/-- Different outputs of a list of outputs are not more than the list has. -/
theorem length_le_of_nodup {os : List OutputId} {n : Nat} (hnodup : os.Nodup)
    (hlt : ∀ o ∈ os, o < n) : os.length ≤ n := by
  have hsub : os ⊆ List.range n := fun o ho => List.mem_range.mpr (hlt o ho)
  simpa using (List.subperm_of_subset hnodup hsub).length_le

namespace Survey
variable {tracker : Tracker} {outputs : Outputs} {r : Registry} {root : Template} {s s' : Survey}

/-- One round of the loop. There is none when nothing is left to walk. -/
def advance (tracker : Tracker) (outputs : Outputs) (s : Survey) : Option Survey :=
  (s.next? outputs).map (s.walk tracker outputs)

theorem complete_mem_eval (tracker : Tracker) (outputs : Outputs) (s : Survey) :
    s.complete tracker outputs ∈ eval (advance tracker outputs) s := by
  refine mem_eval.mpr ⟨?_, by rw [advance, next?_complete, Option.map_none]⟩
  fun_induction Survey.complete tracker outputs s with
  | case1 s hnone => exact .refl
  | case2 s o hnext ih =>
    have hstep : s.walk tracker outputs o ∈ advance tracker outputs s := by simp [advance, hnext]
    exact .head hstep ih

theorem Follows.of_reaches (h : s.Follows tracker outputs r root)
    (hreach : Reaches (advance tracker outputs) s s') : s'.Follows tracker outputs r root := by
  induction hreach with
  | refl => exact h
  | tail _ hstep ih =>
    obtain ⟨o, hnext, rfl⟩ := Option.map_eq_some_iff.mp hstep
    exact ih.walk hnext

theorem Follows.lt_length (h : s.Follows tracker outputs r root) {o : OutputId}
    (ho : o ∈ s.walkedOutputs) : o < outputs.length :=
  ((mem_liveOutputs_iff o).mp (h.live o ho)).1

end Survey

/-- The state of a search for a cycle. -/
structure Search where
  /-- What is to be looked at below the innermost output on the stack. -/
  todo : List OutputId
  /-- The outputs on the stack, the innermost first, each with what is to be looked at behind it. -/
  callers : List (OutputId × List OutputId)
  done : List OutputId

namespace Search
variable {graph : List (OutputId × List OutputId)} {s s' : Search}

def start (graph : List (OutputId × List OutputId)) : Search := ⟨graph.map (·.1), [], []⟩

def stack (s : Search) : List OutputId := (s.callers.map (·.1)).reverse

/-- Looks at one output, or goes back to where the search came from. There is no step from an output
that is on the stack, and none when nothing is left. -/
def advance (graph : List (OutputId × List OutputId)) (s : Search) : Option Search :=
  match s.todo, s.callers with
  | [], [] => none
  | [], (o, todo) :: callers => some ⟨todo, callers, s.done ++ [o]⟩
  | o :: todo, callers =>
    if s.stack.contains o then none
    else if s.done.contains o then some ⟨todo, callers, s.done⟩
    else
      match graph.lookup o with
      | none => some ⟨todo, callers, s.done⟩
      | some uses => some ⟨uses, (o, todo) :: callers, s.done⟩

/-- The cycle that is closed by the output to look at next. -/
def cycle? (s : Search) : Option (List OutputId) :=
  s.todo.head?.map fun o => s.stack.dropWhile (· != o)

section
variable {stack done todo uses : List OutputId} {callers : List (OutputId × List OutputId)}
  {o : OutputId}

theorem advance_up : advance graph ⟨[], (o, todo) :: callers, done⟩ =
    some ⟨todo, callers, done ++ [o]⟩ := rfl

theorem advance_closed (h : (callers.map (·.1)).reverse.contains o = true) :
    advance graph ⟨o :: todo, callers, done⟩ = none := by
  simp only [advance, Search.stack, h, if_true]

theorem advance_past (hnew : ¬ (callers.map (·.1)).reverse.contains o = true)
    (h : done.contains o = true ∨ graph.lookup o = none) :
    advance graph ⟨o :: todo, callers, done⟩ = some ⟨todo, callers, done⟩ := by
  simp only [advance, Search.stack, hnew, Bool.false_eq_true, if_false]
  rcases h with hdone | hlookup
  · rw [if_pos hdone]
  · simp only [hlookup, ite_self]

theorem advance_down (hnew : ¬ (callers.map (·.1)).reverse.contains o = true)
    (hdone : ¬ done.contains o = true) (hlookup : graph.lookup o = some uses) :
    advance graph ⟨o :: todo, callers, done⟩ = some ⟨uses, (o, todo) :: callers, done⟩ := by
  simp only [advance, Search.stack, hnew, hdone, hlookup, Bool.false_eq_true, if_false]

end

/-- A step takes the innermost output from the stack, leaves the stack as it is, or puts an output
of the graph on it that was not there. -/
theorem stack_advance (h : s' ∈ advance graph s) :
    (∃ o, s.stack = s'.stack ++ [o]) ∨ s'.stack = s.stack ∨
      ∃ o, s'.stack = s.stack ++ [o] ∧ o ∉ s.stack ∧ (graph.lookup o).isSome = true := by
  obtain ⟨todo, callers, done⟩ := s
  cases todo with
  | nil =>
    cases callers with
    | nil => simp [advance] at h
    | cons caller callers =>
      cases h
      exact Or.inl ⟨caller.1, by simp [stack]⟩
  | cons o todo =>
    by_cases hnew : (callers.map (·.1)).reverse.contains o = true
    · simp [advance_closed hnew] at h
    by_cases hpast : done.contains o = true ∨ graph.lookup o = none
    · rw [advance_past hnew hpast] at h
      cases h
      exact Or.inr (Or.inl rfl)
    obtain ⟨hdone, hknown⟩ := not_or.mp hpast
    obtain ⟨uses, hlookup⟩ := Option.ne_none_iff_exists'.mp hknown
    rw [advance_down hnew hdone hlookup] at h
    cases h
    exact Or.inr (Or.inr ⟨o, by simp [stack], by simpa [stack] using hnew, by rw [hlookup]; rfl⟩)

/-- Wherever the search is, its stack has different outputs of the graph. -/
theorem nodup_stack (h : Reaches (advance graph) (start graph) s) :
    s.stack.Nodup ∧ ∀ o ∈ s.stack, (graph.lookup o).isSome = true := by
  induction h with
  | refl => simp [start, stack]
  | tail _ hstep ih =>
    obtain ⟨hnodup, hknown⟩ := ih
    rcases stack_advance hstep with ⟨o, hpop⟩ | hkeep | ⟨o, hpush, hnew, ho⟩
    · rw [hpop] at hnodup hknown
      exact ⟨(List.nodup_append.mp hnodup).1, fun p hp => hknown p (List.mem_append_left _ hp)⟩
    · rw [hkeep]
      exact ⟨hnodup, hknown⟩
    · rw [hpush]
      refine ⟨?_, List.forall_mem_append.mpr ⟨hknown, by simpa using ho⟩⟩
      rw [← List.concat_eq_append]
      exact List.Nodup.concat hnew hnodup

/-- The run of a search goes where the recursion goes: back to its callers with what is done, or to
an output that closes a cycle. -/
theorem exists_run (graph : List (OutputId × List OutputId)) (stack done todo : List OutputId)
    {callers : List (OutputId × List OutputId)} (hstack : (callers.map (·.1)).reverse = stack) :
    ∃ s, Reaches (advance graph) ⟨todo, callers, done⟩ s ∧
      ((∃ done', searchCycle graph stack done todo = .ok done' ∧ s = ⟨[], callers, done'⟩) ∨
        ∃ cycle, searchCycle graph stack done todo = .error cycle ∧ advance graph s = none ∧
          s.cycle? = some cycle) := by
  fun_induction searchCycle graph stack done todo generalizing callers with
  | case1 stack done => exact ⟨_, .refl, Or.inl ⟨done, rfl, rfl⟩⟩
  | case2 stack done o todo hmem =>
    refine ⟨_, .refl, Or.inr ⟨_, rfl, advance_closed (by rwa [hstack]), ?_⟩⟩
    rw [cycle?, List.head?_cons, Option.map_some, Search.stack, hstack]
  | case3 stack done o todo hnew hdone ih =>
    obtain ⟨s, hreach, hend⟩ := ih hstack
    exact ⟨s, .head (advance_past (by rwa [hstack]) (Or.inl hdone)) hreach, hend⟩
  | case4 stack done o todo hnew _ hlookup ih =>
    obtain ⟨s, hreach, hend⟩ := ih hstack
    exact ⟨s, .head (advance_past (by rwa [hstack]) (Or.inr hlookup)) hreach, hend⟩
  | case5 stack done o todo hnew hdone uses hlookup cycle hinner ih =>
    obtain ⟨s, hreach, hend⟩ := @ih ((o, todo) :: callers) (by simp [hstack])
    rw [hinner] at hend
    refine ⟨s, .head (advance_down (by rwa [hstack]) hdone hlookup) hreach, Or.inr ?_⟩
    simpa using hend
  | case6 stack done o todo hnew hdone uses hlookup done' hinner ihInner ih =>
    obtain ⟨s, hdown, hend⟩ := @ihInner ((o, todo) :: callers) (by simp [hstack])
    have hs : s = ⟨[], (o, todo) :: callers, done'⟩ := by
      rw [hinner] at hend
      simpa using hend
    obtain ⟨s', hreach, hend'⟩ := ih hstack
    refine ⟨s', .head (advance_down (by rwa [hstack]) hdone hlookup) ?_, hend'⟩
    exact hdown.trans (.head (hs ▸ advance_up) hreach)

end Search

/-- The search for a cycle comes to an end, and finds there what the survey reports. -/
theorem Survey.exists_eval_search (s : Survey) :
    ∃ found ∈ eval (Search.advance s.walked) (.start s.walked), found.cycle? = s.cycle? := by
  obtain ⟨found, hreach, hend⟩ :=
    @Search.exists_run s.walked [] [] (s.walked.map (·.1)) [] rfl
  refine ⟨found, mem_eval.mpr ⟨hreach, ?_⟩, ?_⟩
  · rcases hend with ⟨done, -, rfl⟩ | ⟨cycle, -, hnone, -⟩
    · rfl
    · exact hnone
  · rw [Survey.cycle?]
    rcases hend with ⟨done, hok, rfl⟩ | ⟨cycle, herror, -, hcycle⟩
    · rw [hok]
      rfl
    · rw [herror, hcycle]

end TypeScriptComposer
