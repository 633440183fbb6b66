/-!
# The vocabulary of Jack

The closed word lists and bounds of the Jack language. Words and marks outside these lists are names
or errors; nothing here can be configured.

Headlines:
* `keywords` and `symbols` decide how a lexeme is classified.
* The smaller lists name the words that a grammar rule asks for.
* `largestInteger` and `deepestNesting` are the two bounds of the language.
-/

namespace JackSyntax.Vocabulary

/-- The reserved words. -/
def keywords : List String :=
  ["class", "constructor", "function", "method", "field", "static", "var", "int", "char", "boolean",
    "void", "true", "false", "null", "this", "let", "do", "if", "else", "while", "return"]

/-- The marks that are tokens by themselves. -/
def symbols : List Char :=
  ['{', '}', '(', ')', '[', ']', '.', ',', ';', '+', '-', '*', '/', '&', '|', '<', '>', '=', '~']

/-- The operators between two terms. -/
def binaryOperators : List String :=
  ["+", "-", "*", "/", "&", "|", "<", ">", "="]

/-- The operators before one term. -/
def unaryOperators : List String :=
  ["-", "~"]

/-- The reserved words that are values. -/
def keywordConstants : List String :=
  ["true", "false", "null", "this"]

/-- The words that start a declaration of class variables. -/
def fieldKeywords : List String :=
  ["static", "field"]

/-- The words that start a subroutine. -/
def subroutineKeywords : List String :=
  ["constructor", "function", "method"]

/-- The types that are reserved words. -/
def primitiveTypes : List String :=
  ["int", "char", "boolean"]

/-- The words that start a statement. -/
def statementKeywords : List String :=
  ["let", "if", "while", "do", "return"]

/-- The largest value of an integer constant. -/
def largestInteger : Nat :=
  32767

/-- The longest chain of productions that may be open at once. -/
def deepestNesting : Nat :=
  256

/-- How the marks that collide with markup are written in it. -/
def markupEscapes : List (String × String) :=
  [("<", "&lt;"), (">", "&gt;"), ("&", "&amp;")]

end JackSyntax.Vocabulary
