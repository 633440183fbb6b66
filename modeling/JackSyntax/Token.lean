import JackSyntax.Place

/-!
# Tokens

A classified piece of source text. Two tokens are the same word when kind and text agree, wherever
they stand.

Headlines:
* `TokenKind.tag` is the name of a kind in every output; `TokenKind.ofTag?_tag` reads it back.
* `Token.sameWord` compares tokens without their places.
-/

namespace JackSyntax

/-- The five lexical classes. -/
inductive TokenKind where
  | keyword
  | symbol
  | identifier
  | integerConstant
  | stringConstant
deriving DecidableEq, Repr, Inhabited

namespace TokenKind

/-- Every class. -/
def all : List TokenKind :=
  [keyword, symbol, identifier, integerConstant, stringConstant]

/-- The name of a class in listings and trees. -/
def tag : TokenKind → String
  | keyword => "keyword"
  | symbol => "symbol"
  | identifier => "identifier"
  | integerConstant => "integerConstant"
  | stringConstant => "stringConstant"

/-- The class of a name. -/
def ofTag? (name : String) : Option TokenKind :=
  all.find? (·.tag == name)

theorem ofTag?_tag (kind : TokenKind) : ofTag? kind.tag = some kind := by
  cases kind <;> decide

end TokenKind

/-- A token: the lexeme of a word or mark, the decimal value of an integer, or the contents of a
string, and the place of its first character. -/
structure Token where
  kind : TokenKind
  text : String
  place : Place := {}
deriving DecidableEq, Repr, Inhabited

namespace Token

/-- The token is one of the given marks. -/
def isSymbol (token : Token) (marks : List String) : Bool :=
  token.kind == .symbol && marks.contains token.text

/-- The token is one of the given reserved words. -/
def isKeyword (token : Token) (words : List String) : Bool :=
  token.kind == .keyword && words.contains token.text

/-- The tokens agree in kind and text. -/
def sameWord (first second : Token) : Bool :=
  first.kind == second.kind && first.text == second.text

/-- The token in a list of tokens. -/
def describe (token : Token) : String :=
  s!"{token.kind.tag} {token.text}"

/-- The token on its own. -/
def display (token : Token) : String :=
  s!"Token({token.kind.tag}, {token.text})"

end Token

end JackSyntax
