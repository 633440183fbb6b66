import JackSyntax.Text.Hex
import JackSyntax.Text.Printable

/-!
# Quoted texts

How messages show a piece of source text: between quotes, on one line, with nothing invisible.

Headlines:
* `Quoted.delimiter` is the single quote, unless the text holds single quotes and no double one.
* `quoted` puts a backslash before the delimiter and before a backslash, and escapes what is not
  printable.
-/

namespace JackSyntax.Text

namespace Quoted

/-- The quote that needs no escape, the single one when both or neither do. -/
def delimiter (text : List Char) : Char :=
  if text.contains '\'' && !text.contains '"' then '"' else '\''

/-- An unprintable character by its code point, in the shortest of the three widths. -/
def escape (code : Nat) : List Char :=
  if code < 0x100 then '\\' :: 'x' :: hexDigits 2 code
  else if code < 0x10000 then '\\' :: 'u' :: hexDigits 4 code
  else '\\' :: 'U' :: hexDigits 8 code

/-- One character between the given quotes. -/
def character (quote c : Char) : List Char :=
  if c = quote || c = '\\' then ['\\', c]
  else if c = '\n' then ['\\', 'n']
  else if c = '\r' then ['\\', 'r']
  else if c = '\t' then ['\\', 't']
  else if isPrintable c then [c]
  else escape c.toNat

/-- The quoted form, as characters. -/
def encode (text : List Char) : List Char :=
  let quote := delimiter text
  quote :: text.flatMap (character quote) ++ [quote]

end Quoted

/-- The quoted form of a text. -/
def quoted (text : String) : String :=
  String.ofList (Quoted.encode text.toList)

end JackSyntax.Text
