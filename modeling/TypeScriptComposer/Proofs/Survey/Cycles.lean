import Mathlib.Data.List.Chain
import TypeScriptComposer.Context
import TypeScriptComposer.Proofs.Survey.Live

/-!
# Cycles are found exactly when there are some

The search for a cycle is a depth-first search. While it goes on, the stack is a path of uses; when
it ends, everything that is done is accessible, that is, nothing below it can use it again. The
first fact makes a reported cycle one, and the second makes the search complete.
-/

set_option autoImplicit false

namespace TypeScriptComposer

def GraphUses (graph : List (OutputId × List OutputId)) (o p : OutputId) : Prop :=
  ∃ uses, graph.lookup o = some uses ∧ p ∈ uses ∧ (graph.lookup p).isSome = true

/-- What a search knows about its stack: it is a path without repetitions through the graph. -/
structure UsePath (graph : List (OutputId × List OutputId)) (stack : List OutputId) : Prop where
  nodup : stack.Nodup
  known : ∀ o ∈ stack, (graph.lookup o).isSome = true
  chain : stack.IsChain (GraphUses graph)

section Search
variable {graph : List (OutputId × List OutputId)}

theorem UsePath.nil : UsePath graph [] := ⟨List.nodup_nil, by simp, List.isChain_nil⟩

theorem UsePath.append {stack : List OutputId} (h : UsePath graph stack) {o : OutputId}
    (hknown : (graph.lookup o).isSome = true) (hnew : o ∉ stack)
    (huse : ∀ p ∈ stack.getLast?, GraphUses graph p o) : UsePath graph (stack ++ [o]) where
  nodup := by
    rw [← List.concat_eq_append]
    exact List.Nodup.concat hnew h.nodup
  known := by
    intro p hp
    rcases List.mem_append.mp hp with hp | hp
    · exact h.known p hp
    · have hpo : p = o := List.mem_singleton.mp hp
      subst p
      exact hknown
  chain := by
    apply h.chain.append (List.isChain_singleton o)
    intro p hp q hq
    have hqo : q = o := by simpa using hq.symm
    subst q
    exact huse p hp

/-- A use of something on the stack closes a cycle, which is the stack from there on. -/
theorem UsePath.closes {stack : List OutputId} (h : UsePath graph stack) {o : OutputId}
    (hmem : o ∈ stack) (huse : ∀ p ∈ stack.getLast?, GraphUses graph p o) :
    ∃ os, stack.dropWhile (· != o) = o :: os ∧ (o :: os).Nodup ∧
      (o :: os ++ [o]).IsChain (GraphUses graph) := by
  obtain ⟨before, os, rfl, hbefore⟩ := List.eq_append_cons_of_mem hmem
  have hlast : (before ++ o :: os).getLast? = (o :: os).getLast? := by
    simp [List.getLast?_cons]
  have hchain : (o :: os).IsChain (GraphUses graph) := h.chain.right_of_append
  refine ⟨os, ?_, (List.nodup_append.mp h.nodup).2.1, ?_⟩
  · have hpass : ∀ p ∈ before, (p != o) = true := by
      intro p hp
      simp only [bne_iff_ne, ne_eq]
      rintro rfl
      exact hbefore hp
    rw [List.dropWhile_append_of_pos hpass]
    simp
  · apply hchain.append (List.isChain_singleton o)
    intro p hp q hq
    have hqo : q = o := by simpa using hq.symm
    subst q
    exact huse p (hlast ▸ hp)

/-- A reported cycle is one: distinct outputs, each using the next and the last the first. -/
theorem searchCycle_error {stack done todo cycle : List OutputId}
    (h : searchCycle graph stack done todo = .error cycle) (hpath : UsePath graph stack)
    (hnext : ∀ o ∈ todo, (graph.lookup o).isSome = true →
      ∀ p ∈ stack.getLast?, GraphUses graph p o) :
    ∃ o os, cycle = o :: os ∧ (o :: os).Nodup ∧ (o :: os ++ [o]).IsChain (GraphUses graph) := by
  fun_induction searchCycle graph stack done todo with
  | case1 => simp at h
  | case2 stack done o todo hmem =>
    have hstack : o ∈ stack := by simpa using hmem
    obtain ⟨os, hdrop, hcycle⟩ := hpath.closes hstack
      (hnext o List.mem_cons_self (hpath.known o hstack))
    exact ⟨o, os, by rw [← hdrop]; exact (Except.error.inj h).symm, hcycle⟩
  | case3 stack done o todo _ _ ih =>
    exact ih h hpath fun p hp => hnext p (List.mem_cons_of_mem o hp)
  | case4 stack done o todo _ _ _ ih =>
    exact ih h hpath fun p hp => hnext p (List.mem_cons_of_mem o hp)
  | case5 stack done o todo hmem _ uses hlookup inner hinner ih =>
    have hknown : (graph.lookup o).isSome = true := by simp [hlookup]
    have hcycle : inner = cycle := Except.error.inj h
    subst inner
    apply ih hinner
    · exact hpath.append hknown (by simpa using hmem) (hnext o List.mem_cons_self hknown)
    · intro p hp hp' q hq
      have hqo : q = o := by simpa using hq.symm
      subst q
      exact ⟨uses, hlookup, hp, hp'⟩
  | case6 stack done o todo _ _ uses _ inner _ _ ih =>
    exact ih h hpath fun p hp => hnext p (List.mem_cons_of_mem o hp)

/-- What is done when a search ends has no infinite path of uses below it, and everything in the
graph that the search was to visit is done. -/
theorem searchCycle_ok {stack done todo done' : List OutputId}
    (h : searchCycle graph stack done todo = .ok done')
    (hdone : ∀ o ∈ done, Acc (fun p o => GraphUses graph o p) o) :
    (∀ o ∈ done', Acc (fun p o => GraphUses graph o p) o) ∧ (∀ o ∈ done, o ∈ done') ∧
      ∀ o ∈ todo, (graph.lookup o).isSome = true → o ∈ done' := by
  fun_induction searchCycle graph stack done todo generalizing done' with
  | case1 stack done =>
    have hdone' : done = done' := Except.ok.inj h
    subst done'
    exact ⟨hdone, fun o ho => ho, by simp⟩
  | case2 => simp at h
  | case3 stack done o todo _ hmem ih =>
    obtain ⟨hacc, hmono, htodo⟩ := ih h hdone
    refine ⟨hacc, hmono, ?_⟩
    intro p hp hknown
    rcases List.mem_cons.mp hp with rfl | hp
    · exact hmono p (by simpa using hmem)
    · exact htodo p hp hknown
  | case4 stack done o todo _ _ hlookup ih =>
    obtain ⟨hacc, hmono, htodo⟩ := ih h hdone
    refine ⟨hacc, hmono, ?_⟩
    intro p hp hknown
    rcases List.mem_cons.mp hp with rfl | hp
    · simp [hlookup] at hknown
    · exact htodo p hp hknown
  | case5 => simp at h
  | case6 stack done o todo _ _ uses hlookup inner hinner ihInner ih =>
    obtain ⟨hacc, hmono, huses⟩ := ihInner hinner hdone
    -- everything below `o` is done by now, so `o` itself is accessible
    have ho : Acc (fun p o => GraphUses graph o p) o := by
      refine Acc.intro o ?_
      rintro p ⟨uses', hlookup', hp, hknown⟩
      have heq : uses' = uses := Option.some.inj (hlookup'.symm.trans hlookup)
      subst uses'
      exact hacc p (huses p hp hknown)
    have hdone1 : ∀ p ∈ inner ++ [o], Acc (fun p o => GraphUses graph o p) p := by
      intro p hp
      rcases List.mem_append.mp hp with hp | hp
      · exact hacc p hp
      · have hpo : p = o := List.mem_singleton.mp hp
        subst p
        exact ho
    obtain ⟨hacc', hmono', htodo⟩ := ih h hdone1
    refine ⟨hacc', fun p hp => hmono' p (List.mem_append_left _ (hmono p hp)), ?_⟩
    intro p hp hknown
    rcases List.mem_cons.mp hp with rfl | hp
    · exact hmono' p (by simp)
    · exact htodo p hp hknown

end Search

/-- `o` and `p` are live, and the declaration of `o` uses `p`. -/
def Depends (outputs : Outputs) (r : Registry) (root : Template) (o p : OutputId) : Prop :=
  o ∈ liveOutputs outputs r root ∧ p ∈ liveOutputs outputs r root ∧
    p ∈ Template.references (outputs.body o)

theorem lookup_map_graph (f : OutputId → List OutputId) (os : List OutputId) (o : OutputId) :
    (os.map fun p => (p, f p)).lookup o = if o ∈ os then some (f o) else none := by
  induction os with
  | nil => simp
  | cons p os ih =>
    rw [List.map_cons, List.lookup_cons]
    by_cases hop : o = p
    · subst p
      simp
    · have hb : (o == p) = false := by simpa using hop
      simp [hb, ih, hop]

theorem not_self_of_acc {R : OutputId → OutputId → Prop} {o : OutputId} (h : Acc R o) :
    ¬ R o o := by
  induction h with
  | intro o _ ih =>
    intro hself
    exact ih o hself hself

namespace Survey
variable {tracker : Tracker} {outputs : Outputs} {r : Registry} {root : Template} {s : Survey}

theorem Follows.lookup_isSome (h : s.Follows tracker outputs r root) (o : OutputId) :
    (s.walked.lookup o).isSome = true ↔ o ∈ s.walkedOutputs := by
  rw [h.walked, lookup_map_graph]
  split <;> simp_all

theorem graphUses_iff (tracker : Tracker) (outputs : Outputs) (r : Registry) (root : Template)
    (o p : OutputId) : GraphUses (ofTemplate tracker outputs r root).walked o p ↔
      Depends outputs r root o p := by
  have h := follows_ofTemplate tracker outputs r root
  have hlive := mem_walkedOutputs_iff tracker outputs r root
  constructor
  · rintro ⟨uses, hlookup, hp, hknown⟩
    have ho := (h.lookup_isSome o).mp (by simp [hlookup])
    rw [h.walked, lookup_map_graph, if_pos ho] at hlookup
    have huses : Template.references (outputs.body o) = uses := Option.some.inj hlookup
    exact ⟨(hlive o).mp ho, (hlive p).mp ((h.lookup_isSome p).mp hknown), huses ▸ hp⟩
  · rintro ⟨ho, hp, huse⟩
    refine ⟨Template.references (outputs.body o), ?_, huse, ?_⟩
    · rw [h.walked, lookup_map_graph, if_pos ((hlive o).mpr ho)]
    · exact (h.lookup_isSome p).mpr ((hlive p).mpr hp)

theorem cycle_of_cycle? {cycle : List OutputId}
    (h : (ofTemplate tracker outputs r root).cycle? = some cycle) :
    ∃ o os, cycle = o :: os ∧ (o :: os).Nodup ∧
      (o :: os ++ [o]).IsChain (Depends outputs r root) := by
  unfold cycle? at h
  split at h
  · rename_i found hfound
    have hcycle : found = cycle := Option.some.inj h
    subst found
    obtain ⟨o, os, heq, hnodup, hchain⟩ := searchCycle_error hfound UsePath.nil (by simp)
    refine ⟨o, os, heq, hnodup, hchain.imp ?_⟩
    intro p q hpq
    exact (graphUses_iff tracker outputs r root p q).mp hpq
  · simp at h

theorem not_transGen_of_cycle? (h : (ofTemplate tracker outputs r root).cycle? = none)
    (o : OutputId) : ¬ Relation.TransGen (Depends outputs r root) o o := by
  unfold cycle? at h
  split at h
  · simp at h
  · rename_i done hfound
    obtain ⟨hacc, -, htodo⟩ := searchCycle_ok hfound (by simp)
    intro hcycle
    have ho : o ∈ (ofTemplate tracker outputs r root).walkedOutputs := by
      obtain ⟨p, hop, -⟩ := Relation.TransGen.head'_iff.mp hcycle
      exact (mem_walkedOutputs_iff tracker outputs r root o).mpr hop.1
    have hknown := ((follows_ofTemplate tracker outputs r root).lookup_isSome o).mpr ho
    have hdone : Acc (fun p o => Depends outputs r root o p) o := by
      simpa only [graphUses_iff] using hacc o (htodo o ho hknown)
    have hback : Relation.TransGen (fun p o => Depends outputs r root o p) o o :=
      Relation.transGen_swap.mp hcycle
    exact not_self_of_acc hdone.transGen hback

end Survey

theorem transGen_of_isChain {R : OutputId → OutputId → Prop} {o p : OutputId} {os : List OutputId}
    (h : (o :: os ++ [p]).IsChain R) : Relation.TransGen R o p := by
  induction os generalizing o with
  | nil => exact .single (by simpa using h)
  | cons q os ih =>
    obtain ⟨hoq, hrest⟩ := List.isChain_cons_cons.mp h
    exact .head hoq (ih hrest)

/-- Preparing a template fails exactly when live outputs depend on each other in a cycle, and then
the error shows such a cycle by the labels on it. The vertices are the outputs that the survey has
walked, so that a cycle through a declaration that is not going to be written does not count. -/
theorem prepare_error_iff_cycle (outputs : Outputs) (c : Context) (t : Template) :
    (∀ o, o ∈ (Survey.ofTemplate c.tracker outputs c.registry t).walkedOutputs ↔
      o ∈ liveOutputs outputs c.registry t) ∧
    ((∃ name path, (c.prepare outputs t).1 = .error (.cycle name path)) ↔
      ∃ o, Relation.TransGen (Depends outputs c.registry t) o o) ∧
    ∀ e, (c.prepare outputs t).1 = .error e → ∃ o os, (o :: os).Nodup ∧
      (∀ p ∈ o :: os, p ∈ liveOutputs outputs c.registry t) ∧
      (o :: os ++ [o]).IsChain (Depends outputs c.registry t) ∧
      e = .cycle (outputs.label o) ((o :: os ++ [o]).map outputs.label) := by
  have hlive := Survey.mem_walkedOutputs_iff c.tracker outputs c.registry t
  refine ⟨hlive, ?_⟩
  cases hcycle : (Survey.ofTemplate c.tracker outputs c.registry t).cycle? with
  | none =>
    have hok : (c.prepare outputs t).1 = .ok () := by simp [Context.prepare, hcycle]
    have hfree := Survey.not_transGen_of_cycle? hcycle
    simp [hok, hfree]
  | some cycle =>
    obtain ⟨o, os, rfl, hnodup, hchain⟩ := Survey.cycle_of_cycle? hcycle
    have herror : (c.prepare outputs t).1 =
        .error (.cycle (outputs.label o) ((o :: os ++ [o]).map outputs.label)) := by
      simp [Context.prepare, hcycle, Context.cycleError]
    refine ⟨?_, ?_⟩
    · refine ⟨fun _ => ⟨o, transGen_of_isChain hchain⟩, fun _ => ⟨_, _, herror⟩⟩
    · intro e he
      have hmem : ∀ p ∈ o :: os, p ∈ liveOutputs outputs c.registry t := by
        apply hchain.backwards_concat_induction (· ∈ liveOutputs outputs c.registry t)
        · intro p q hpq _
          exact hpq.1
        · obtain ⟨p, hop, -⟩ := Relation.TransGen.head'_iff.mp (transGen_of_isChain hchain)
          exact hop.1
      exact ⟨o, os, hnodup, hmem, hchain, Except.error.inj (he.symm.trans herror)⟩

theorem prepare_refuses_mutual_use :
    let outputs : Outputs := [⟨"a", some [.usage 1]⟩, ⟨"b", some [.usage 0]⟩]
    let t : Template := [.declaration 0, .declaration 1, .reference 0]
    let c := Context.ofSettings .standard
    (c.prepare outputs t).1 = .error (.cycle "a" ["a", "b", "a"]) ∧
      ∃ o, Relation.TransGen (Depends outputs c.registry t) o o := by
  intro outputs t c
  have h : (c.prepare outputs t).1 = .error (.cycle "a" ["a", "b", "a"]) := by cbv
  exact ⟨h, (prepare_error_iff_cycle outputs c t).2.1.mp ⟨_, _, h⟩⟩

end TypeScriptComposer
