import JackSyntax.Text.DecimalDigit
import JackSyntax.Text.Quoted
import JackSyntax.Token
import JackSyntax.Vocabulary

/-!
# Lexical errors

Why a source text cannot be split into tokens.

Headlines:
* `LexCause` is what went wrong, `LexError` adds the place: that of the first character of the
  malformed lexeme.
* `LexCause.isMalformed` separates malformed lexemes, whose messages tell the place, from the other
  causes: a run of digits too long to convert, a number without digits, a step past the end.
-/

namespace JackSyntax

/-- What went wrong while a text was read. -/
inductive LexCause where
  | unterminatedComment
  | unterminatedString
  | integerOutOfRange (digits : List Char)
  | unexpected (c : Char)
  /-- A run of `count` digits, more than are converted to a number. -/
  | tooManyDigits (count : Nat)
  /-- A number was asked for where no digit stands. -/
  | noDigits
  /-- A character was asked for at the end of the text. -/
  | pastEnd
deriving DecidableEq, Repr

namespace LexCause

/-- The text itself is malformed. -/
def isMalformed : LexCause → Bool
  | unterminatedComment | unterminatedString | integerOutOfRange _ | unexpected _ => true
  | tooManyDigits _ | noDigits | pastEnd => false

/-- The reason that a message gives. -/
def reason : LexCause → String
  | unterminatedComment => "Unterminated block comment"
  | unterminatedString => "Unterminated string constant"
  | integerOutOfRange digits =>
    s!"Integer constant {String.ofList digits} out of range 0..{Vocabulary.largestInteger}"
  | unexpected c => s!"Unexpected character {Text.quoted (String.singleton c)}"
  | tooManyDigits count =>
    s!"Exceeds the limit ({Text.mostDigits} digits) for integer string conversion: " ++
      s!"value has {count} digits; use sys.set_int_max_str_digits() to increase the limit"
  | noDigits => "invalid literal for int() with base 10: ''"
  | pastEnd => "string index out of range"

end LexCause

/-- What went wrong and where. -/
structure LexError where
  cause : LexCause
  place : Place
deriving DecidableEq, Repr

/-- The text of an error; only a malformed lexeme tells its place. -/
def LexError.message (error : LexError) : String :=
  if error.cause.isMalformed then error.place.locate error.cause.reason else error.cause.reason

end JackSyntax
