import JackSyntax.Token.Error

/-!
# Lexemes

What one token looks like at the front of a text. A lexeme is, in this order of precedence, a string
constant, an integer constant, a word, or a single mark; digits and word characters are taken as
long as possible.

Headlines:
* `lexemeAt` finds the lexeme at the front of a text from its first character.
* `Lexeme.length` is the number of characters read, also when they turn out to be malformed.
* `length_pos_lexemeAt`: a well-formed lexeme is not empty.
-/

namespace JackSyntax

/-- The digits of integer constants. -/
def isDigit (c : Char) : Bool :=
  '0' ≤ c && c ≤ '9'

/-- The characters of identifiers and keywords. -/
def isWordCharacter (c : Char) : Bool :=
  ('a' ≤ c && c ≤ 'z') || ('A' ≤ c && c ≤ 'Z') || isDigit c || c == '_'

/-- The characters that a string constant may contain. -/
def isStringCharacter (c : Char) : Bool :=
  c != '"' && c != '\n'

/-- The value of a run of digits. -/
def digitsValue (digits : List Char) : Nat :=
  Text.decimal (digits.map fun c => c.toNat - '0'.toNat)

/-- The class and text of a token. -/
structure Word where
  kind : TokenKind
  text : String
deriving DecidableEq, Repr

/-- The characters read from the front of a text, and what they mean. -/
structure Lexeme where
  length : Nat
  word : Except LexCause Word

namespace Lexeme

/-- A string constant, its first character taken for the opening quote. It closes on its own line.
-/
def string : List Char → Lexeme
  | [] => ⟨0, .error .pastEnd⟩
  | _ :: text =>
    let contents := text.takeWhile isStringCharacter
    match text.drop contents.length with
    | '"' :: _ => ⟨contents.length + 2, .ok ⟨.stringConstant, String.ofList contents⟩⟩
    | _ => ⟨contents.length + 1, .error .unterminatedString⟩

/-- What a run of digits means: its value, written without leading zeros. -/
def integerWord (digits : List Char) : Except LexCause Word :=
  if digits.isEmpty then .error .noDigits
  else if Text.mostDigits < digits.length then .error (.tooManyDigits digits.length)
  else if Vocabulary.largestInteger < digitsValue digits then .error (.integerOutOfRange digits)
  else .ok ⟨.integerConstant, toString (digitsValue digits)⟩

/-- An integer constant. -/
def integer (text : List Char) : Lexeme :=
  let digits := text.takeWhile isDigit
  ⟨digits.length, integerWord digits⟩

/-- A reserved word is a keyword, any other name an identifier. -/
def nameWord (name : String) : Word :=
  ⟨if Vocabulary.keywords.contains name then .keyword else .identifier, name⟩

/-- A keyword or an identifier. -/
def name (text : List Char) : Lexeme :=
  let run := text.takeWhile isWordCharacter
  ⟨run.length, .ok (nameWord (String.ofList run))⟩

/-- A single mark. -/
def mark (c : Char) : Lexeme :=
  if Vocabulary.symbols.contains c then ⟨1, .ok ⟨.symbol, String.singleton c⟩⟩
  else ⟨0, .error (.unexpected c)⟩

end Lexeme

/-- The lexeme at the front of the text `c :: rest`. -/
def lexemeAt (c : Char) (rest : List Char) : Lexeme :=
  if c = '"' then .string (c :: rest)
  else if isDigit c then .integer (c :: rest)
  else if isWordCharacter c then .name (c :: rest)
  else .mark c

theorem length_pos_lexemeAt {c : Char} {rest : List Char} {word : Word}
    (h : (lexemeAt c rest).word = .ok word) : 0 < (lexemeAt c rest).length := by
  unfold lexemeAt at h ⊢
  split
  · simp only [Lexeme.string]
    split <;> simp
  · split
    next hdigit => simp [Lexeme.integer, hdigit]
    next =>
      split
      next hword => simp [Lexeme.name, hword]
      next hquote hdigit hword =>
        simp only [hquote, hdigit, hword, Lexeme.mark, reduceIte, Bool.false_eq_true] at h ⊢
        split at h <;> simp_all

end JackSyntax
