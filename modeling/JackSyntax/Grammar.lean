import JackSyntax.Production
import JackSyntax.Text.Quoted
import JackSyntax.Vocabulary

/-!
# The grammar of Jack

Every production as a rule: what to take, which production to nest, and where the next token
decides.

* A unit is `class` name `{` members `}` and nothing behind it.
* Expressions are flat: terms with operators between them, grouped from left to right.
* An identifier at the start of a term is followed by `[` (an element), `(` or `.` (a call), or
  stands alone. The step onto that token and back is `Rule.probe`.

Headlines:
* `TokenClass.accepts` says which tokens a place in a rule takes, `TokenClass.description` how a
  message calls them.
* `Grammar.rule` is the rule of each production.
-/

namespace JackSyntax

/-- A class of tokens that a rule asks for. -/
inductive TokenClass where
  | keyword (words : List String)
  | symbol (marks : List String)
  | identifier
  /-- A primitive type or an identifier. -/
  | typeName
  /-- An integer or a string constant. -/
  | constant
deriving DecidableEq, Repr

namespace TokenClass

/-- The token belongs to the class. -/
def accepts : TokenClass → Token → Bool
  | keyword words, token => token.isKeyword words
  | symbol marks, token => token.isSymbol marks
  | identifier, token => token.kind == .identifier
  | typeName, token => token.kind == .identifier || token.isKeyword Vocabulary.primitiveTypes
  | constant, token => token.kind == .integerConstant || token.kind == .stringConstant

/-- What a message says was expected. -/
def description : TokenClass → String
  | keyword words => " or ".intercalate (words.map Text.quoted)
  | symbol marks => " or ".intercalate (marks.map Text.quoted)
  | identifier => "identifier"
  | typeName => "type"
  | constant => "constant"

end TokenClass

/-- What a production consists of. -/
inductive Rule where
  /-- Nothing. -/
  | empty
  /-- One token of a class. -/
  | take (expected : TokenClass)
  /-- An instance of a production. -/
  | nest (production : Production)
  /-- One after the other. -/
  | seq (first second : Rule)
  /-- One of two, decided by the next token. -/
  | branch (next : TokenClass) (yes no : Rule)
  /-- Again and again, as long as the next token is of the class. -/
  | many (next : TokenClass) (item : Rule)
  /-- A step onto the next token, if there is one, and back. -/
  | probe
  /-- No token can stand here: a term was expected. -/
  | refuse
  /-- The end of the input. -/
  | finish
deriving DecidableEq, Repr

namespace Rule

/-- All of them in order. -/
def all (rules : List Rule) : Rule :=
  rules.foldr seq empty

/-- One mark. -/
def mark (text : String) : Rule :=
  take (.symbol [text])

/-- One of some reserved words. -/
def word (words : List String) : Rule :=
  take (.keyword words)

/-- The rule if the next token is of the class, otherwise nothing. -/
def optional (next : TokenClass) (rule : Rule) : Rule :=
  branch next rule empty

/-- One of the productions, chosen by the next keyword; the last one when it starts no other. -/
def byKeyword (selectors : List (String × Production)) : List Production → Rule
  | [] => empty
  | [production] => nest production
  | production :: rest =>
    branch (.keyword ((selectors.filter (·.2 == production)).map (·.1))) (nest production)
      (byKeyword selectors rest)

/-- As many productions as keywords start them. -/
def manyByKeyword (selectors : List (String × Production)) : Rule :=
  many (.keyword (selectors.map (·.1))) (byKeyword selectors (selectors.map (·.2)).eraseDups)

/-- The rule, and again behind every comma. -/
def separated (rule : Rule) : Rule :=
  seq rule (many (.symbol [","]) (seq (mark ",") rule))

end Rule

namespace Grammar

open Rule

/-- One or more names, closed by a semicolon. -/
def variableNames : Rule :=
  all [separated (take .identifier), mark ";"]

/-- Statements in braces. -/
def block : Rule :=
  all [mark "\x7b", nest .statementList, mark "\x7d"]

/-- An expression in parentheses. -/
def parenthesized : Rule :=
  all [mark "(", nest .expression, mark ")"]

/-- An expression in brackets. -/
def index : Rule :=
  all [mark "[", nest .expression, mark "]"]

/-- A type and the name of a parameter. -/
def parameter : Rule :=
  all [nest .type, take .identifier]

/-- A term that starts with a name. -/
def namedTerm : Rule :=
  all [take .identifier, probe,
    branch (.symbol ["["]) index (optional (.symbol ["(", "."]) (nest .call))]

/-- The rule of each production. -/
def rule : Production → Rule
  | .unit =>
    all [word ["class"], take .identifier, mark "\x7b", manyByKeyword memberProductions,
      mark "\x7d", finish]
  | .fieldDecl =>
    all [word Vocabulary.fieldKeywords, nest .type, variableNames]
  | .type => take .typeName
  | .subroutineDecl =>
    -- `void` stands in the place of a type and is taken as one, but without opening `type`. That
    -- could be told apart only where no production may be nested in a declaration: no error arises
    -- at `void` itself. Sessions start with no production open, and the parameter list that follows
    -- is nested just as deep.
    all [word Vocabulary.subroutineKeywords,
      branch (.keyword ["void"]) (word ["void"]) (nest .type), take .identifier,
      mark "(", nest .paramList, mark ")", nest .subroutineBody]
  | .paramList => optional .typeName (separated parameter)
  | .subroutineBody =>
    all [mark "\x7b", many (.keyword ["var"]) (nest .localVarDecl), nest .statementList,
      mark "\x7d"]
  | .localVarDecl =>
    all [word ["var"], nest .type, variableNames]
  | .statementList => manyByKeyword statementProductions
  | .letStmt =>
    all [word ["let"], take .identifier, optional (.symbol ["["]) index, mark "=", nest .expression,
      mark ";"]
  | .ifStmt =>
    all [word ["if"], parenthesized, block,
      optional (.keyword ["else"]) (all [word ["else"], block])]
  | .whileStmt =>
    all [word ["while"], parenthesized, block]
  | .doStmt =>
    all [word ["do"], take .identifier, nest .call, mark ";"]
  | .returnStmt =>
    all [word ["return"], branch (.symbol [";"]) empty (nest .expression), mark ";"]
  | .expression =>
    all [nest .term, many (.symbol Vocabulary.binaryOperators)
      (all [take (.symbol Vocabulary.binaryOperators), nest .term])]
  | .term =>
    branch .constant (take .constant) <|
    branch (.keyword Vocabulary.keywordConstants) (word Vocabulary.keywordConstants) <|
    branch (.symbol Vocabulary.unaryOperators)
      (all [take (.symbol Vocabulary.unaryOperators), nest .term]) <|
    branch (.symbol ["("]) parenthesized <|
    branch .identifier namedTerm refuse
  | .call =>
    all [optional (.symbol ["."]) (all [mark ".", take .identifier]), mark "(", nest .argList,
      mark ")"]
  | .argList => branch (.symbol [")"]) empty (separated (nest .expression))

end Grammar

end JackSyntax
