import TypeScriptComposer.Template

/-!
# Outputs

An output is something that a file declares only if the file uses it. The list of outputs says what
each one is called and what its declaration is; the registry follows, through one render, which
ones have been used and which ones have been declared. A number that is not in the list stands for
no output: its label is empty and it is never declared.
-/

set_option autoImplicit false

namespace TypeScriptComposer

structure Output where
  label : String
  body? : Option Template

abbrev Outputs := List Output

namespace Outputs

def label (outputs : Outputs) (o : OutputId) : String :=
  (outputs[o]?.map (·.label)).getD ""

def body (outputs : Outputs) (o : OutputId) : Template :=
  (outputs[o]?.bind (·.body?)).getD []

/-- Gives an output its declaration. The first one stays. -/
def setBody (outputs : Outputs) (o : OutputId) (body : Template) : Bool × Outputs :=
  match outputs[o]? with
  | some ⟨label, none⟩ => (true, outputs.set o ⟨label, some body⟩)
  | _ => (false, outputs)

end Outputs

inductive OutputState where
  | unreferenced
  | referenced
  | emitted
  deriving DecidableEq, Inhabited

structure Registry where
  state : OutputId → OutputState

namespace Registry

def empty : Registry := ⟨fun _ => .unreferenced⟩

def set (r : Registry) (o : OutputId) (s : OutputState) : Registry :=
  ⟨fun p => if p = o then s else r.state p⟩

@[simp] theorem state_set_self (r : Registry) (o : OutputId) (s : OutputState) :
    (r.set o s).state o = s := by simp [set]

theorem state_set_of_ne (r : Registry) {o p : OutputId} (s : OutputState) (h : p ≠ o) :
    (r.set o s).state p = r.state p := by simp [set, h]

/-- Notes a use. The answer tells whether it is the first one. -/
def reference (r : Registry) (o : OutputId) : Bool × Registry :=
  match r.state o with
  | .unreferenced => (true, r.set o .referenced)
  | _ => (false, r)

def referenceAll (r : Registry) (os : List OutputId) : Registry :=
  os.foldl (fun r o => (r.reference o).2) r

def beginEmit (r : Registry) (o : OutputId) : Bool × Registry :=
  match r.state o with
  | .referenced => (true, r.set o .emitted)
  | _ => (false, r)

theorem state_reference (r : Registry) (o p : OutputId) :
    (r.reference o).2.state p =
      if r.state p = .unreferenced ∧ p = o then .referenced else r.state p := by
  by_cases hp : p = o
  · subst p
    cases ho : r.state o <;> simp [reference, ho]
  · cases ho : r.state o <;> simp [reference, ho, state_set_of_ne r _ hp, hp]

theorem reference_emitted_iff (r : Registry) (o p : OutputId) :
    (r.reference o).2.state p = .emitted ↔ r.state p = .emitted := by
  rw [state_reference]
  split
  · rename_i h
    simp [h.1]
  · rfl

theorem beginEmit_eq_true_iff (r r' : Registry) (o : OutputId) :
    r.beginEmit o = (true, r') ↔ r.state o = .referenced ∧ r' = r.set o .emitted := by
  cases h : r.state o <;> simp [beginEmit, h, eq_comm]

theorem beginEmit_of_ne {r : Registry} {o : OutputId} (h : r.state o ≠ .referenced) :
    r.beginEmit o = (false, r) := by
  cases hstate : r.state o with
  | referenced => exact (h hstate).elim
  | _ => simp [beginEmit, hstate]

/-- The outputs whose declaration has not begun. -/
def unopened (r : Registry) (outputs : Outputs) : Nat :=
  (List.range outputs.length).countP fun o => r.state o != .emitted

theorem unopened_reference (r : Registry) (outputs : Outputs) (o : OutputId) :
    (r.reference o).2.unopened outputs = r.unopened outputs := by
  unfold unopened
  congr 1
  funext p
  have h := reference_emitted_iff r o p
  rw [Bool.eq_iff_iff, bne_iff_ne, bne_iff_ne, ne_eq, ne_eq, h]

end Registry

end TypeScriptComposer
