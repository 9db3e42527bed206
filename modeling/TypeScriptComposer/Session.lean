import TypeScriptComposer.Context
import TypeScriptComposer.Text.Quoted

/-!
# Sessions

A session is a context together with the outputs that it renders, and is changed by one operation
at a time, in any order.
-/

set_option autoImplicit false

namespace TypeScriptComposer

def Outputs.describe (outputs : Outputs) (o : OutputId) : String :=
  "ConditionalOutput \x7b usage_site: " ++ quoted (outputs.label o) ++ ", .. \x7d"

structure Session where
  outputs : Outputs
  context : Context

namespace Session

def start (outputs : Outputs) (s : Settings) : Session := ⟨outputs, .ofSettings s⟩

inductive Operation where
  | prepare (t : Template)
  | renderIn (t : Template) (level : Nat)
  | declareIfUsed (o : OutputId) (level : Nat)
  | reference (o : OutputId)
  | beginEmit (o : OutputId)
  | setBody (o : OutputId) (body : Template)
  | register (s : Symbol)
  | define (name : String)

inductive Answer where
  | none
  | failed (e : Error)
  | text (s : String)
  | flag (b : Bool)

def withContext (s : Session) (c : Context) : Session := { s with context := c }

def step (s : Session) : Operation → Answer × Session
  | .prepare t =>
    let (result, c) := s.context.prepare s.outputs t
    (match result with
      | .ok () => .none
      | .error e => .failed e, s.withContext c)
  | .renderIn t level =>
    let (text, c) := s.context.renderIn s.outputs t level
    (.text text, s.withContext c)
  | .declareIfUsed o level =>
    let (text?, c) := s.context.declareIfUsed s.outputs o level
    (match text? with
      | Option.none => .none
      | some text => .text text, s.withContext c)
  | .reference o =>
    let (first, registry) := s.context.registry.reference o
    (.flag first, s.withContext { s.context with registry := registry })
  | .beginEmit o =>
    let (begun, registry) := s.context.registry.beginEmit o
    (.flag begun, s.withContext { s.context with registry := registry })
  | .setBody o body =>
    let (taken, outputs) := s.outputs.setBody o body
    (.flag taken, { s with outputs := outputs })
  | .register symbol =>
    let (name, tracker) := s.context.tracker.register symbol
    (.text name, s.withContext { s.context with tracker := tracker })
  | .define name =>
    let (claimed, tracker) := s.context.tracker.define name
    (.flag claimed, s.withContext { s.context with tracker := tracker })

def run (s : Session) : List Operation → List Answer × Session
  | [] => ([], s)
  | operation :: rest =>
    let (answer, s) := s.step operation
    let (answers, s) := s.run rest
    (answer :: answers, s)

end Session

end TypeScriptComposer
