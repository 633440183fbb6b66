import JackSyntax.Text.Blank
import JackSyntax.Text.DecimalDigit

/-!
# Integer numerals

How an integer is read from an argument: blanks around it, a sign, and decimal digits of any script
with single underscores between them.

Headlines:
* `readInteger?` is the value of a numeral, `none` for any other text and for more digits than are
  converted.
-/

namespace JackSyntax.Text

namespace Numeral

/-- Blanks that may stand around a numeral; the four ASCII separators are not among them. -/
def isPadding (c : Char) : Bool :=
  isBlank c && !(0x1C ≤ c.toNat && c.toNat ≤ 0x1F)

/-- The values of the digits, a single underscore allowed between two of them. -/
def digits? : List Char → Option (List Nat)
  | [] => none
  | [c] => (decimalValue? c).map ([·])
  | c :: '_' :: rest => do return (← decimalValue? c) :: (← digits? rest)
  | c :: rest => do return (← decimalValue? c) :: (← digits? rest)

/-- The natural number of a run of digits. -/
def natural? (text : List Char) : Option Nat := do
  let digits ← digits? text
  if mostDigits < digits.length then none else return decimal digits

/-- The text without the padding around it. -/
def trim (text : List Char) : List Char :=
  ((text.dropWhile isPadding).reverse.dropWhile isPadding).reverse

end Numeral

/-- The integer that a text writes. -/
def readInteger? (text : String) : Option Int :=
  match Numeral.trim text.toList with
  | '-' :: rest => (Numeral.natural? rest).map fun value => -(value : Int)
  | '+' :: rest => (Numeral.natural? rest).map fun value => (value : Int)
  | rest => (Numeral.natural? rest).map fun value => (value : Int)

end JackSyntax.Text
