import JackSyntax.Reader
import JackSyntax.Text.Blank

/-!
# Gaps between tokens

A gap is a run of blanks, comments to the end of the line and block comments. A block comment ends
with the first `*/` behind its opening mark and may span lines.

Headlines:
* `gap` measures the gap at the front of a text, or finds the block comment that is never closed.
* `Reader.skipGap` passes over it. An unclosed comment is reported at its opening mark, with the
  reader at the end of the text.
-/

namespace JackSyntax

/-- The number of characters up to the first `*/` and including it. -/
def commentEnd? : List Char → Option Nat
  | '*' :: '/' :: _ => some 2
  | _ :: rest => (commentEnd? rest).map (· + 1)
  | [] => none

/-- The gap at the front of a text. -/
inductive Gap where
  /-- The next token, or the end of the text, is `length` characters ahead. -/
  | closed (length : Nat)
  /-- The block comment that opens `start` characters ahead never ends. -/
  | unclosed (start : Nat)
deriving DecidableEq, Repr

/-- The same gap behind `count` more characters. -/
def Gap.behind (count : Nat) : Gap → Gap
  | closed length => closed (count + length)
  | unclosed start => unclosed (count + start)

/-- The gap at the front of a text. -/
def gap : List Char → Gap
  | '/' :: '/' :: rest =>
    let comment := rest.takeWhile (· != '\n')
    (gap (rest.drop comment.length)).behind (2 + comment.length)
  | '/' :: '*' :: rest =>
    match commentEnd? rest with
    | some length => (gap (rest.drop length)).behind (2 + length)
    | none => .unclosed 0
  | c :: rest => if Text.isBlank c then (gap rest).behind 1 else .closed 0
  | [] => .closed 0
termination_by text => text.length

namespace Reader

/-- Passes over a block comment, its first two characters unseen. -/
def skipBlockComment : Reading Unit := fun reader =>
  match reader.ahead with
  | _ :: _ :: rest =>
    match commentEnd? rest with
    | some length => .ok () (reader.skip (2 + length))
    | none => .error ⟨.unterminatedComment, reader.place⟩ (reader.skip reader.ahead.length)
  | short =>
    let last := reader.skip short.length
    .error ⟨.pastEnd, last.place⟩ last

/-- Passes over the gap before the next token. -/
def skipGap : Reading Unit := fun reader =>
  match gap reader.ahead with
  | .closed length => .ok () (reader.skip length)
  | .unclosed start =>
    .error ⟨.unterminatedComment, (reader.skip start).place⟩ (reader.skip reader.ahead.length)

end Reader

end JackSyntax
