/-!
# Places in a source text

A line and a column, both counted from one. Only a newline starts a new line; every other character
is one column wide.

Headlines:
* `Place.after` moves over one character, `Place.afterAll` over many.
* `Place.locate` adds a place to the reason of an error.
-/

namespace JackSyntax

/-- A line and a column. A token that was not read from a text stands at `0, 0`. -/
structure Place where
  line : Int := 0
  col : Int := 0
deriving DecidableEq, Repr, Inhabited

namespace Place

/-- The place of the first character of a text. -/
def start : Place :=
  ⟨1, 1⟩

/-- The place behind one character. -/
def after (place : Place) (c : Char) : Place :=
  if c = '\n' then ⟨place.line + 1, 1⟩ else ⟨place.line, place.col + 1⟩

/-- The place behind several characters. -/
def afterAll (place : Place) (text : List Char) : Place :=
  text.foldl after place

/-- A reason together with the place where it was found. -/
def locate (place : Place) (reason : String) : String :=
  s!"{reason} at line {place.line}, col {place.col}"

@[simp] theorem afterAll_nil (place : Place) : place.afterAll [] = place := rfl

@[simp] theorem afterAll_cons (place : Place) (c : Char) (text : List Char) :
    place.afterAll (c :: text) = (place.after c).afterAll text := rfl

end Place

end JackSyntax
