/-!
# Blanks

The white space that may stand between tokens: more than a plain space, and not all of it ASCII.

Headlines:
* `blanks` lists the characters as ranges of code points, in increasing order; `isBlank` looks them
  up.
-/

namespace JackSyntax.Text

/-- The ranges of blank code points, first and last one included. -/
def blanks : List (Nat × Nat) :=
  [(0x9, 0xD), (0x1C, 0x20), (0x85, 0x85), (0xA0, 0xA0), (0x1680, 0x1680), (0x2000, 0x200A),
    (0x2028, 0x2029), (0x202F, 0x202F), (0x205F, 0x205F), (0x3000, 0x3000)]

/-- A character is blank when one of the ranges holds it. -/
def isBlank (c : Char) : Bool :=
  blanks.any fun range => range.1 ≤ c.toNat && c.toNat ≤ range.2

end JackSyntax.Text
