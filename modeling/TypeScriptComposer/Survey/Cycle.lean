import TypeScriptComposer.Survey

/-!
# Cycles among declarations

A declaration must not use its own output, directly or through other declarations that are going
to be written. The search goes depth first from each walked output in turn. The outputs on the way
down are on the stack, and an output found on it closes a cycle; an output with nothing left below
it is done and is not searched again.
-/

set_option autoImplicit false

namespace TypeScriptComposer

def unstacked (graph : List (OutputId × List OutputId)) (stack : List OutputId) : Nat :=
  graph.countP fun entry => !stack.contains entry.1

theorem unstacked_append_lt {graph : List (OutputId × List OutputId)} {stack : List OutputId}
    {o : OutputId} {uses : List OutputId} (hstack : stack.contains o = false)
    (h : graph.lookup o = some uses) :
    unstacked graph (stack ++ [o]) < unstacked graph stack := by
  unfold unstacked
  induction graph with
  | nil => simp at h
  | cons entry graph ih =>
    have hle : (graph.countP fun e => !(stack ++ [o]).contains e.1) ≤
        graph.countP fun e => !stack.contains e.1 := by
      apply List.countP_mono_left
      intro e _ he
      simp only [List.contains_eq_mem, List.mem_append, List.mem_singleton, Bool.not_eq_true',
        decide_eq_false_iff_not] at he ⊢
      exact fun hm => he (Or.inl hm)
    obtain ⟨key, value⟩ := entry
    by_cases hk : o = key
    · subst hk
      rw [List.countP_cons, List.countP_cons]
      have hin : (stack ++ [o]).contains o = true := by simp
      simp only [hin, hstack]
      simp only [Bool.not_true, Bool.not_false, Bool.false_eq_true, if_false, if_true]
      omega
    · have hl : graph.lookup o = some uses := by
        have hb : (o == key) = false := by simp [hk]
        rw [List.lookup_cons, hb] at h
        exact h
      have hkey : (stack ++ [o]).contains key = stack.contains key := by
        simp [Ne.symm hk]
      rw [List.countP_cons, List.countP_cons, hkey]
      exact Nat.add_lt_add_right (ih hl) _

/-- Searches for a cycle below the outputs of the last argument. The answer is a cycle, as the
outputs on it from its first one on, or the outputs that are done. -/
def searchCycle (graph : List (OutputId × List OutputId)) (stack done : List OutputId) :
    List OutputId → Except (List OutputId) (List OutputId)
  | [] => .ok done
  | o :: todo =>
    if _onStack : stack.contains o then .error (stack.dropWhile (· != o))
    else if done.contains o then searchCycle graph stack done todo
    else
      match _found : graph.lookup o with
      | none => searchCycle graph stack done todo
      | some uses =>
        match searchCycle graph (stack ++ [o]) done uses with
        | .error cycle => .error cycle
        | .ok done => searchCycle graph stack (done ++ [o]) todo
termination_by todo => (unstacked graph stack, todo.length)
decreasing_by
  · exact Prod.Lex.right _ (by simp)
  · exact Prod.Lex.right _ (by simp)
  · exact Prod.Lex.left _ _ (unstacked_append_lt (by simpa using _onStack) _found)
  · exact Prod.Lex.right _ (by simp)

def Survey.cycle? (s : Survey) : Option (List OutputId) :=
  match searchCycle s.walked [] [] (s.walked.map (·.1)) with
  | .error cycle => some cycle
  | .ok _ => none

end TypeScriptComposer
