import TypeScriptComposer.Text.Pieces

/-!
# Paths

Paths are texts with slashes between their components. Nothing is resolved when paths are joined;
when the last component is taken off, so are the slashes and the single dots in front of it.
-/

set_option autoImplicit false

namespace TypeScriptComposer

namespace Path

/-- `path` below `directory`; an absolute `path` stands for itself. -/
def join (directory path : String) : String :=
  if path.toList.head? = some '/' then path
  else if directory.isEmpty || directory.toList.getLast? = some '/' then directory ++ path
  else directory ++ "/" ++ path

/-- Whether a segment that is not the first one stands for nothing. -/
def isVoid (segment : List Char) : Bool := segment.isEmpty || segment == ['.']

/-- Drops segments that stand for nothing from the end; the first segment stays. -/
def trimSegments : List (List Char) → List (List Char)
  | [] => []
  | first :: rest => first :: (rest.reverse.dropWhile isVoid).reverse

def parent (path : String) : String :=
  match trimSegments (trimSegments (pieces '/' path.toList)).dropLast with
  | [[]] => "/"
  | kept => String.ofList (glue '/' kept)

/-- The most bytes that a path may have when something is read or written there. -/
def maxSize : Nat := 4095

def fits (path : String) : Bool := path.utf8ByteSize ≤ maxSize

def components (path : String) : List String :=
  ((pieces '/' path.toList).filter (!isVoid ·)).map String.ofList

end Path

end TypeScriptComposer
