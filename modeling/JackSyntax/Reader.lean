import JackSyntax.Token.Error

/-!
# Readers

A reader stands between two characters of a source text and only moves forward. It keeps the
characters it has passed, nearest first, those still ahead, and its place.

Headlines:
* Every operation moves by `Reader.skip`, so what it leaves is a suffix of what it found
  (`ahead_skip`) and the text as a whole never changes (`source_skip`).
* `Reading` is the type of operations that may fail; a failed one leaves the reader where it
  stopped.
* `takeWhile` takes the longest run of accepted characters.
-/

namespace JackSyntax

/-- A reader in the middle of a text. -/
structure Reader where
  behind : List Char := []
  ahead : List Char
  place : Place := .start
deriving Repr

/-- An operation on a reader. -/
abbrev Reading := EStateM LexError Reader

namespace Reader

/-- A reader at the start of a text. -/
def ofString (text : String) : Reader :=
  ⟨[], text.toList, .start⟩

/-- The whole text. -/
def source (reader : Reader) : List Char :=
  reader.behind.reverse ++ reader.ahead

/-- The number of characters passed. -/
def position (reader : Reader) : Nat :=
  reader.behind.length

/-- No character is left. -/
def atEnd (reader : Reader) : Bool :=
  reader.ahead.isEmpty

/-- The character `offset` places after the next one. A position before the start of the text counts
from its end, except that the last character is not reached that way. -/
def peek (reader : Reader) (offset : Int) : Option Char :=
  let index := reader.position + offset
  if 0 ≤ index then reader.source[index.toNat]?
  else if index = -1 then none
  else if 0 ≤ index + reader.source.length then
    reader.source[(index + reader.source.length).toNat]?
  else none

/-- The reader `count` characters further on, or at the end. -/
def skip : Nat → Reader → Reader
  | 0, reader => reader
  | count + 1, reader =>
    match reader.ahead with
    | [] => reader
    | c :: rest => skip count ⟨c :: reader.behind, rest, reader.place.after c⟩

/-- The next character. -/
def advance : Reading Char := fun reader =>
  match reader.ahead with
  | [] => .error ⟨.pastEnd, reader.place⟩ reader
  | c :: _ => .ok c (reader.skip 1)

/-- The longest run of accepted characters. -/
def takeWhile (accept : Char → Bool) : Reading (List Char) := fun reader =>
  let run := reader.ahead.takeWhile accept
  .ok run (reader.skip run.length)

/-! ## What skipping leaves -/

theorem ahead_skip (count : Nat) (reader : Reader) :
    (reader.skip count).ahead = reader.ahead.drop count := by
  fun_induction skip count reader with
  | case1 => rfl
  | case2 count reader h => simp [h]
  | case3 count reader c rest h ih => simp [ih, h]

theorem behind_skip (count : Nat) (reader : Reader) :
    (reader.skip count).behind = (reader.ahead.take count).reverse ++ reader.behind := by
  fun_induction skip count reader with
  | case1 => rfl
  | case2 count reader h => simp [h]
  | case3 count reader c rest h ih => simp [ih, h]

theorem place_skip (count : Nat) (reader : Reader) :
    (reader.skip count).place = reader.place.afterAll (reader.ahead.take count) := by
  fun_induction skip count reader with
  | case1 => rfl
  | case2 count reader h => simp [h]
  | case3 count reader c rest h ih => simp [ih, h]

theorem source_skip (count : Nat) (reader : Reader) :
    (reader.skip count).source = reader.source := by
  simp [source, ahead_skip, behind_skip, List.append_assoc]

end Reader

end JackSyntax
