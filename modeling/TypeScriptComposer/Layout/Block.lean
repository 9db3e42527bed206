import TypeScriptComposer.Text.Blank

/-!
# Block openers

A text opens a block when it ends in an opening bracket and a line break, with at most some
indentation for the next line behind the break. What such a text is followed by decides whether
that indentation is kept, so the text is cut behind its last line break.
-/

set_option autoImplicit false

namespace TypeScriptComposer

def indentsLine (c : Char) : Bool := c == ' ' || c == '\t'

def opensBracket (c : Char) : Bool := c == '\x7b' || c == '(' || c == '['

def opensBlock (text : String) : Bool :=
  match text.toList.reverse.dropWhile indentsLine with
  | '\n' :: before => (before.dropWhile isBlank).head?.any opensBracket
  | _ => false

def throughLastBreak (text : String) : String :=
  String.ofList (text.toList.reverse.dropWhile (· != '\n')).reverse

def afterLastBreak (text : String) : String :=
  String.ofList (text.toList.reverse.takeWhile (· != '\n')).reverse

theorem throughLastBreak_append_afterLastBreak (text : String) :
    throughLastBreak text ++ afterLastBreak text = text := by
  rw [← String.toList_inj]
  simp [throughLastBreak, afterLastBreak, ← List.reverse_append]

end TypeScriptComposer
