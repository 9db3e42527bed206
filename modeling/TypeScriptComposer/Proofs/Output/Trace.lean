import TypeScriptComposer.Output

/-!
# Traces of a registry

Every change to a registry is a call: a use is noted, or a declaration begins. A trace is a list of
calls that leads from one registry to another. An output goes forward along it, from unreferenced
over referenced to emitted, so that its declaration begins at most once and only behind a use.
-/

set_option autoImplicit false

namespace TypeScriptComposer

namespace OutputState

/-- How far an output has come. -/
def rank : OutputState → Nat
  | .unreferenced => 0
  | .referenced => 1
  | .emitted => 2

end OutputState

namespace Registry

/-- A change to a registry. That a declaration begins is one only where the registry permits it. -/
inductive Call where
  | reference (o : OutputId)
  | beginEmit (o : OutputId)
  deriving DecidableEq

namespace Call

def output : Call → OutputId
  | .reference o => o
  | .beginEmit o => o

def begun? : Call → Option OutputId
  | .reference _ => none
  | .beginEmit o => some o

theorem begun?_eq_some_iff (c : Call) (o : OutputId) : c.begun? = some o ↔ c = .beginEmit o := by
  cases c <;> simp [begun?]

end Call

/-- The calls, one after the other, lead from the first registry to the second. -/
inductive Trace : Registry → List Call → Registry → Prop where
  | nil (r : Registry) : Trace r [] r
  | reference {r r' : Registry} {o : OutputId} {calls : List Call} :
      Trace (r.reference o).2 calls r' → Trace r (.reference o :: calls) r'
  | beginEmit {r mid r' : Registry} {o : OutputId} {calls : List Call} :
      r.beginEmit o = (true, mid) → Trace mid calls r' → Trace r (.beginEmit o :: calls) r'

namespace Trace
variable {r mid r' : Registry} {a b calls before after : List Call} {o : OutputId}

theorem append (ha : Trace r a mid) (hb : Trace mid b r') : Trace r (a ++ b) r' := by
  induction ha with
  | nil => exact hb
  | reference _ ih => exact .reference (ih hb)
  | beginEmit hbegin _ ih => exact .beginEmit hbegin (ih hb)

theorem exists_of_append (h : Trace r (a ++ b) r') : ∃ mid, Trace r a mid ∧ Trace mid b r' := by
  induction a generalizing r with
  | nil => exact ⟨r, .nil r, h⟩
  | cons c a ih =>
    cases h with
    | reference h =>
      obtain ⟨mid, ha, hb⟩ := ih h
      exact ⟨mid, .reference ha, hb⟩
    | beginEmit hbegin h =>
      obtain ⟨mid, ha, hb⟩ := ih h
      exact ⟨mid, .beginEmit hbegin ha, hb⟩

theorem referenceAll (r : Registry) (os : List OutputId) :
    Trace r (os.map .reference) (r.referenceAll os) := by
  induction os generalizing r with
  | nil => exact .nil r
  | cons o os ih => exact .reference (ih (r.reference o).2)

theorem rank_le (h : Trace r calls r') (o : OutputId) : (r.state o).rank ≤ (r'.state o).rank := by
  induction h with
  | nil => exact Nat.le_refl _
  | @reference r r' p calls _ ih =>
    have hstep : (r.state o).rank ≤ ((r.reference p).2.state o).rank := by
      rw [state_reference]
      split
      · rename_i hnew
        simp [hnew.1, OutputState.rank]
      · exact Nat.le_refl _
    exact Nat.le_trans hstep ih
  | @beginEmit r mid r' p calls hbegin _ ih =>
    obtain ⟨hstate, rfl⟩ := (beginEmit_eq_true_iff _ _ _).mp hbegin
    have hstep : (r.state o).rank ≤ ((r.set p .emitted).state o).rank := by
      by_cases hop : o = p
      · subst p
        simp [hstate, OutputState.rank]
      · exact Nat.le_of_eq (by rw [state_set_of_ne _ _ hop])
    exact Nat.le_trans hstep ih

theorem emitted_iff (h : Trace r calls r') (o : OutputId) :
    r'.state o = .emitted ↔ r.state o = .emitted ∨ .beginEmit o ∈ calls := by
  induction h with
  | nil => simp
  | reference _ ih =>
    rw [ih, reference_emitted_iff]
    simp
  | @beginEmit r mid r' p calls hbegin _ ih =>
    obtain ⟨-, rfl⟩ := (beginEmit_eq_true_iff _ _ _).mp hbegin
    rw [ih]
    by_cases hop : o = p
    · subst p
      simp
    · simp [state_set_of_ne _ _ hop, hop]

theorem used_iff (h : Trace r calls r') (o : OutputId) :
    r'.state o ≠ .unreferenced ↔ r.state o ≠ .unreferenced ∨ .reference o ∈ calls := by
  induction h with
  | nil => simp
  | @reference r r' p calls _ ih =>
    rw [ih, state_reference]
    by_cases hop : o = p
    · subst p
      by_cases hnew : r.state o = .unreferenced <;> simp [hnew]
    · simp [hop]
  | @beginEmit r mid r' p calls hbegin _ ih =>
    obtain ⟨hstate, rfl⟩ := (beginEmit_eq_true_iff _ _ _).mp hbegin
    rw [ih]
    by_cases hop : o = p
    · subst p
      simp [hstate]
    · simp [state_set_of_ne _ _ hop]

/-- Calls for other outputs leave an output as it is. -/
theorem state_eq (h : Trace r calls r') (hother : ∀ c ∈ calls, c.output ≠ o) :
    r'.state o = r.state o := by
  induction h with
  | nil => rfl
  | @reference r r' p calls _ ih =>
    obtain ⟨hop, hother⟩ := List.forall_mem_cons.mp hother
    have hne : o ≠ p := Ne.symm hop
    rw [ih hother, state_reference]
    simp [hne]
  | @beginEmit r mid r' p calls hbegin _ ih =>
    obtain ⟨hop, hother⟩ := List.forall_mem_cons.mp hother
    obtain ⟨-, rfl⟩ := (beginEmit_eq_true_iff _ _ _).mp hbegin
    have hne : o ≠ p := Ne.symm hop
    rw [ih hother, state_set_of_ne _ _ hne]

/-- Where a declaration begins, its output has been used, and its declaration begins nowhere else
in the trace. -/
theorem of_beginEmit (h : Trace r (before ++ .beginEmit o :: after) r') :
    (r.state o ≠ .unreferenced ∨ .reference o ∈ before) ∧ r.state o ≠ .emitted ∧
      .beginEmit o ∉ before ∧ .beginEmit o ∉ after := by
  obtain ⟨mid, hbefore, h⟩ := h.exists_of_append
  cases h with
  | beginEmit hbegin hafter =>
    obtain ⟨hstate, rfl⟩ := (beginEmit_eq_true_iff _ _ _).mp hbegin
    have hnew : ¬ (r.state o = .emitted ∨ .beginEmit o ∈ before) := by
      rw [← hbefore.emitted_iff, hstate]
      simp
    refine ⟨(hbefore.used_iff o).mp (by simp [hstate]), fun he => hnew (Or.inl he),
      fun hb => hnew (Or.inr hb), ?_⟩
    -- a second beginning would find the output emitted
    intro hagain
    obtain ⟨front, back, rfl⟩ := List.append_of_mem hagain
    obtain ⟨last, hfront, hback⟩ := hafter.exists_of_append
    cases hback with
    | beginEmit hbegin' _ =>
      obtain ⟨hstate', -⟩ := (beginEmit_eq_true_iff _ _ _).mp hbegin'
      have hemitted := (hfront.emitted_iff o).mpr (Or.inl (state_set_self _ _ _))
      simp [hstate'] at hemitted

theorem nodup_begun (h : Trace r calls r') : (calls.filterMap Call.begun?).Nodup := by
  induction h with
  | nil => exact List.nodup_nil
  | reference _ ih => exact ih
  | @beginEmit r mid r' p calls hbegin hrest ih =>
    have hfirst : Trace r ([] ++ .beginEmit p :: calls) r' := .beginEmit hbegin hrest
    have hnew := hfirst.of_beginEmit.2.2.2
    have hbegun : ((.beginEmit p :: calls).filterMap Call.begun?) =
        p :: calls.filterMap Call.begun? := rfl
    rw [hbegun, List.nodup_cons]
    refine ⟨?_, ih⟩
    intro hmem
    obtain ⟨c, hc, hcp⟩ := List.mem_filterMap.mp hmem
    exact hnew ((c.begun?_eq_some_iff p).mp hcp ▸ hc)

end Trace

end Registry

end TypeScriptComposer
