import TypeScriptComposer.Layout.Indent

/-!
# The line writer

A writer collects text and puts the margin of the current level in front of the first character of
each line. Lines without a character get no margin, and a change of level in the middle of a line
takes effect with the next one.
-/

set_option autoImplicit false

namespace TypeScriptComposer

structure Writer where
  indent : Indent
  level : Nat
  text : String
  atLineStart : Bool
  deriving DecidableEq

namespace Writer

def start (indent : Indent) (level : Nat) : Writer := ⟨indent, level, "", true⟩

def put (w : Writer) (c : Char) : Writer :=
  if c = '\n' then { w with text := w.text.push c, atLineStart := true }
  else if w.atLineStart then
    { w with text := (w.text ++ w.indent.margin w.level).push c, atLineStart := false }
  else { w with text := w.text.push c }

def write (w : Writer) (text : String) : Writer := text.toList.foldl put w

def writeLine (w : Writer) (text : String) : Writer := (w.write text).put '\n'

def raise (w : Writer) : Writer := { w with level := w.level + 1 }

def lower (w : Writer) : Writer := { w with level := w.level - 1 }

@[simp] theorem write_empty (w : Writer) : w.write "" = w := rfl

theorem write_append (w : Writer) (a b : String) : w.write (a ++ b) = (w.write a).write b := by
  simp [write]

inductive Operation where
  | write (text : String)
  | line (text : String)
  | raise
  | lower
  deriving DecidableEq

def step (w : Writer) : Operation → Writer
  | .write text => w.write text
  | .line text => w.writeLine text
  | .raise => w.raise
  | .lower => w.lower

def run (w : Writer) (operations : List Operation) : Writer := operations.foldl step w

end Writer

end TypeScriptComposer
