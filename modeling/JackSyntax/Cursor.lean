import JackSyntax.Token

/-!
# Cursors over a token list

A cursor reads a fixed list of tokens from front to back and can return the token it took last,
once.

Headlines:
* `Cursor.taken` is the number of tokens passed, `Cursor.position` the index of the current one,
  `-1` before the first.
* `peek` sees the token that `advance` takes (`advance_eq_ok_iff`).
* `pushback` needs a token that was just taken and is not the first.
-/

namespace JackSyntax

/-- A list of tokens, the number already passed, and whether the last of them may be returned. -/
structure Cursor where
  tokens : Array Token
  taken : Nat := 0
  returnable : Bool := false
deriving DecidableEq, Repr

/-- A request that a cursor cannot serve where it stands. -/
inductive CursorFault where
  | nothingNext (position : Int)
  | nothingCurrent (position : Int)
  | nothingToReturn (position : Int)
  | outsideTokens
deriving DecidableEq, Repr

/-- The text of a fault. -/
def CursorFault.message : CursorFault → String
  | nothingNext position => s!"No token after position {position}"
  | nothingCurrent position => s!"No current token at position {position}"
  | nothingToReturn position =>
    s!"Invalid pushback at position {position}: only one token may be returned"
  | outsideTokens => "tuple index out of range"

namespace Cursor

/-- A cursor before the first of the given tokens. -/
def ofList (tokens : List Token) : Cursor :=
  ⟨tokens.toArray, 0, false⟩

/-- The index of the current token. -/
def position (cursor : Cursor) : Int :=
  cursor.taken - 1

/-- The tokens not yet passed. -/
def remaining (cursor : Cursor) : List Token :=
  cursor.tokens.toList.drop cursor.taken

/-- The number of tokens not yet passed. -/
def left (cursor : Cursor) : Nat :=
  cursor.tokens.size - cursor.taken

/-- A token is left. -/
def hasNext (cursor : Cursor) : Bool :=
  cursor.taken < cursor.tokens.size

/-- The next token. -/
def peek (cursor : Cursor) : Option Token :=
  cursor.tokens[cursor.taken]?

/-- Takes the next token. -/
def advance : EStateM CursorFault Cursor Token := fun cursor =>
  match cursor.peek with
  | some token => .ok token { cursor with taken := cursor.taken + 1, returnable := true }
  | none => .error (.nothingNext cursor.position) cursor

/-- The token taken last. -/
def current (cursor : Cursor) : Except CursorFault Token :=
  match cursor.taken with
  | 0 => .error (.nothingCurrent cursor.position)
  | before + 1 =>
    match cursor.tokens[before]? with
    | some token => .ok token
    | none => .error (.nothingCurrent cursor.position)

/-- Returns the token taken last. -/
def pushback : EStateM CursorFault Cursor Unit := fun cursor =>
  if cursor.returnable && 1 < cursor.taken then
    .ok () { cursor with taken := cursor.taken - 1, returnable := false }
  else .error (.nothingToReturn cursor.position) cursor

/-- The token at an index; a negative index counts from the end. -/
def get (cursor : Cursor) (index : Int) : Except CursorFault Token :=
  let fromStart := if index < 0 then index + cursor.tokens.size else index
  match if fromStart < 0 then none else cursor.tokens[fromStart.toNat]? with
  | some token => .ok token
  | none => .error .outsideTokens

/-- Makes the token at an index the current one, `-1` for none; the index may lie past the end. -/
def seek (cursor : Cursor) (position : Int) : Cursor :=
  { cursor with taken := (position + 1).toNat }

/-- The cursor in a message. -/
def display (cursor : Cursor) : String :=
  s!"TokenStream(position={cursor.position}, length={cursor.tokens.size})"

theorem left_eq_length_remaining (cursor : Cursor) : cursor.left = cursor.remaining.length := by
  simp [left, remaining]

theorem advance_eq_ok_iff {cursor after : Cursor} {token : Token} :
    advance cursor = .ok token after ↔ cursor.peek = some token ∧
      after = { cursor with taken := cursor.taken + 1, returnable := true } := by
  unfold advance
  cases cursor.peek <;> simp [eq_comm]

theorem hasNext_iff {cursor : Cursor} :
    cursor.hasNext = true ↔ ∃ token, cursor.peek = some token := by
  simp [hasNext, peek, ← Option.isSome_iff_exists]

end Cursor

end JackSyntax
