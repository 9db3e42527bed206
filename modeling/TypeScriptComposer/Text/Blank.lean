/-!
# Blank characters

The Unicode property `White_Space`: the characters that count as blank when the end of a text is
looked at. Core's `Char.isWhitespace` knows four of them.
-/

set_option autoImplicit false

namespace TypeScriptComposer

/-- The ranges of code points with the property `White_Space`, first and last included. -/
def blankRanges : List (Nat × Nat) :=
  [(0x09, 0x0D), (0x20, 0x20), (0x85, 0x85), (0xA0, 0xA0), (0x1680, 0x1680), (0x2000, 0x200A),
   (0x2028, 0x2029), (0x202F, 0x202F), (0x205F, 0x205F), (0x3000, 0x3000)]

def isBlank (c : Char) : Bool :=
  blankRanges.any fun (first, last) => first ≤ c.toNat && c.toNat ≤ last

end TypeScriptComposer
