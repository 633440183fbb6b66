/-!
# Hexadecimal numerals of fixed width

Escapes write a code point as a fixed number of lower-case hexadecimal digits.

Headlines:
* `hexDigits width n` are the last `width` digits of a number.
-/

namespace JackSyntax.Text

/-- The lower-case hexadecimal digit of a number below sixteen. -/
def hexDigit (n : Nat) : Char :=
  if n < 10 then Char.ofNat ('0'.toNat + n) else Char.ofNat ('a'.toNat + (n - 10))

/-- The last `width` hexadecimal digits of a number, most significant first. -/
def hexDigits : Nat → Nat → List Char
  | 0, _ => []
  | width + 1, n => hexDigits width (n / 16) ++ [hexDigit (n % 16)]

end JackSyntax.Text
