import JackSyntax.Text.Quoted
import JackSyntax.Token

/-!
# Productions

The named rules of the Jack grammar. Most open a node of the tree; a type and a call only group
tokens, which then belong to the node around them.

Headlines:
* `Production.name` is a rule's name in messages, `Production.tag?` the tag of its nodes.
* `memberProductions` and `statementProductions` tell which rule a leading keyword starts.
-/

namespace JackSyntax

/-- The rules of the grammar. -/
inductive Production where
  | unit
  | fieldDecl
  | type
  | subroutineDecl
  | paramList
  | subroutineBody
  | localVarDecl
  | statementList
  | letStmt
  | ifStmt
  | whileStmt
  | doStmt
  | returnStmt
  | expression
  | term
  | call
  | argList
deriving DecidableEq, Repr, Inhabited

namespace Production

/-- Every rule. -/
def all : List Production :=
  [unit, fieldDecl, type, subroutineDecl, paramList, subroutineBody, localVarDecl, statementList,
    letStmt, ifStmt, whileStmt, doStmt, returnStmt, expression, term, call, argList]

/-- The name of a rule. -/
def name : Production → String
  | unit => "unit"
  | fieldDecl => "fieldDecl"
  | type => "type"
  | subroutineDecl => "subroutineDecl"
  | paramList => "paramList"
  | subroutineBody => "subroutineBody"
  | localVarDecl => "localVarDecl"
  | statementList => "statementList"
  | letStmt => "letStmt"
  | ifStmt => "ifStmt"
  | whileStmt => "whileStmt"
  | doStmt => "doStmt"
  | returnStmt => "returnStmt"
  | expression => "expression"
  | term => "term"
  | call => "call"
  | argList => "argList"

/-- The rule of a name. -/
def ofName? (name : String) : Option Production :=
  all.find? (·.name == name)

/-- What is said of a name that no rule has. -/
def unknownName (name : String) : String :=
  s!"{Text.quoted name} is not a valid Production"

/-- The name in capitals, its words joined by underscores. -/
def label (production : Production) : String :=
  String.ofList <| production.name.toList.flatMap fun c =>
    if c.isUpper then ['_', c] else [c.toUpper]

/-- The tag of the nodes that a rule opens, `none` when it opens none. -/
def tag? : Production → Option String
  | unit => some "class"
  | fieldDecl => some "classVarDec"
  | type => none
  | subroutineDecl => some "subroutineDec"
  | paramList => some "parameterList"
  | subroutineBody => some "subroutineBody"
  | localVarDecl => some "varDec"
  | statementList => some "statements"
  | letStmt => some "letStatement"
  | ifStmt => some "ifStatement"
  | whileStmt => some "whileStatement"
  | doStmt => some "doStatement"
  | returnStmt => some "returnStatement"
  | expression => some "expression"
  | term => some "term"
  | call => none
  | argList => some "expressionList"

end Production

/-- Which rule each leading keyword of a class member starts. -/
def memberProductions : List (String × Production) :=
  [("static", .fieldDecl), ("field", .fieldDecl), ("constructor", .subroutineDecl),
    ("function", .subroutineDecl), ("method", .subroutineDecl)]

/-- Which rule each leading keyword of a statement starts. -/
def statementProductions : List (String × Production) :=
  [("let", .letStmt), ("if", .ifStmt), ("while", .whileStmt), ("do", .doStmt),
    ("return", .returnStmt)]

/-- The rule that a token starts; only a keyword can start one. -/
def Token.starts? (selectors : List (String × Production)) (token : Token) : Option Production :=
  if token.kind == .keyword then selectors.lookup token.text else none

end JackSyntax
