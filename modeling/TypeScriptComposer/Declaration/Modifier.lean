/-!
# Modifiers

The keywords in front of a declaration. They are written in one fixed order, each at most once, no
matter in which order and how often they were given.
-/

set_option autoImplicit false

namespace TypeScriptComposer

inductive Modifier where
  | exported
  | ambient
  | byDefault
  | isPublic
  | isProtected
  | isPrivate
  | readOnly
  | isAbstract
  | isStatic
  | isAsync
  | constant
  deriving DecidableEq

namespace Modifier

def all : List Modifier :=
  [exported, ambient, byDefault, isPublic, isProtected, isPrivate, readOnly, isAbstract, isStatic,
   isAsync, constant]

theorem mem_all (m : Modifier) : m ∈ all := by cases m <;> decide

def keyword : Modifier → String
  | exported => "export"
  | ambient => "declare"
  | byDefault => "default"
  | isPublic => "public"
  | isProtected => "protected"
  | isPrivate => "private"
  | readOnly => "readonly"
  | isAbstract => "abstract"
  | isStatic => "static"
  | isAsync => "async"
  | constant => "const"

/-- Modifiers are ordered as they are written. -/
instance : LT Modifier := ⟨fun a b => a.ctorIdx < b.ctorIdx⟩

instance : LE Modifier := ⟨fun a b => a.ctorIdx ≤ b.ctorIdx⟩

instance : DecidableLE Modifier := fun a b => Nat.decLe a.ctorIdx b.ctorIdx

/-- The modifiers in their order, with all repetitions. -/
def sort (ms : List Modifier) : List Modifier := ms.mergeSort (· ≤ ·)

/-- The modifiers that are written: those given and not implicit, once each. -/
def written (ms implicit : List Modifier) : List Modifier :=
  all.filter fun m => ms.contains m && !implicit.contains m

def text (ms implicit : List Modifier) : String :=
  String.join ((written ms implicit).map (·.keyword ++ " "))

theorem mem_written_iff (m : Modifier) (ms implicit : List Modifier) :
    m ∈ written ms implicit ↔ m ∈ ms ∧ m ∉ implicit := by
  simp [written, mem_all]

end Modifier

end TypeScriptComposer
