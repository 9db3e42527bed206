import TypeScriptComposer.Output
import TypeScriptComposer.Template.Mentions
import TypeScriptComposer.Tracker

/-!
# The survey

Before a template is written it is surveyed: which declarations will be written, and which names
will the file declare? A declaration is going to be written once its output has been used and has a
declaration site, both in the template or in another declaration that is going to be written. The
survey therefore walks the template, and then one live declaration after the other until there is
none left.
-/

set_option autoImplicit false

namespace TypeScriptComposer

structure Survey where
  registry : Registry
  /-- Declared names, in the order in which they were met and with repetitions. -/
  locals : List String
  sites : List OutputId
  /-- Outputs whose declaration has been walked, each with the outputs it uses. -/
  walked : List (OutputId × List OutputId)

/-- Adds the members of the second list that the first does not have, in their order. -/
def addNew (known : List OutputId) (os : List OutputId) : List OutputId :=
  os.foldl (fun known o => if known.contains o then known else known ++ [o]) known

namespace Survey

def start (r : Registry) : Survey := ⟨r, [], [], []⟩

def hasWalked (s : Survey) (o : OutputId) : Bool := s.walked.any (·.1 == o)

/-- Whether an output has a declaration that is going to be written and has not been walked. -/
def awaits (outputs : Outputs) (s : Survey) (o : OutputId) : Bool :=
  o < outputs.length && s.registry.state o != .unreferenced && !s.hasWalked o

def next? (outputs : Outputs) (s : Survey) : Option OutputId :=
  s.sites.find? (s.awaits outputs)

def visit (tracker : Tracker) (s : Survey) (t : Template) : Survey where
  registry := s.registry.referenceAll (Template.references t)
  locals := s.locals ++ ((Template.symbols t).filter tracker.declares).map (·.value)
  sites := addNew s.sites (Template.sites t)
  walked := s.walked

def walk (tracker : Tracker) (outputs : Outputs) (s : Survey) (o : OutputId) : Survey :=
  let visited := s.visit tracker (outputs.body o)
  { visited with walked := s.walked ++ [(o, Template.references (outputs.body o))] }

/-- The outputs whose declaration has not been walked. -/
def unwalked (outputs : Outputs) (s : Survey) : Nat :=
  (List.range outputs.length).countP fun o => !s.hasWalked o

theorem hasWalked_walk (tracker : Tracker) (outputs : Outputs) (s : Survey) (o p : OutputId) :
    (s.walk tracker outputs o).hasWalked p = (s.hasWalked p || o == p) := by
  simp [hasWalked, walk]

theorem unwalked_walk_lt {tracker : Tracker} {outputs : Outputs} {s : Survey} {o : OutputId}
    (h : s.next? outputs = some o) :
    (s.walk tracker outputs o).unwalked outputs < s.unwalked outputs := by
  have ho := List.find?_some h
  simp only [awaits, Bool.and_eq_true, decide_eq_true_eq, Bool.not_eq_true'] at ho
  obtain ⟨⟨hlt, -⟩, hwalked⟩ := ho
  unfold unwalked
  rw [List.countP_eq_length_filter, List.countP_eq_length_filter]
  have hsub : ((List.range outputs.length).filter
      fun p => !(s.walk tracker outputs o).hasWalked p) =
      ((List.range outputs.length).filter fun p => !s.hasWalked p).filter (· != o) := by
    rw [List.filter_filter]
    congr 1
    funext p
    rw [hasWalked_walk]
    cases s.hasWalked p <;> simp [bne, BEq.comm]
  rw [hsub]
  refine List.length_filter_lt_length_iff_exists.2 ⟨o, ?_, by simp⟩
  simp [hlt, hwalked]

def complete (tracker : Tracker) (outputs : Outputs) (s : Survey) : Survey :=
  match _found : s.next? outputs with
  | none => s
  | some o => (s.walk tracker outputs o).complete tracker outputs
termination_by s.unwalked outputs
decreasing_by exact unwalked_walk_lt _found

/-- The survey of a template, in a render whose outputs are in the states of `r`. -/
def ofTemplate (tracker : Tracker) (outputs : Outputs) (r : Registry) (t : Template) : Survey :=
  ((start r).visit tracker t).complete tracker outputs

def uses? (s : Survey) (o : OutputId) : Option (List OutputId) := s.walked.lookup o

end Survey

end TypeScriptComposer
