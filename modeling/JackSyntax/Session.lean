import JackSyntax.Cursor
import JackSyntax.Grammar
import JackSyntax.Report
import JackSyntax.Token.Scan
import JackSyntax.Tree

/-!
# Parsing sessions

A session matches productions against the tokens of a cursor, deciding everything on the next token.
It keeps the chain of productions that are open; at most `Vocabulary.deepestNesting` may be.

Headlines:
* `Rule.run` matches one rule, given how a nested production is matched, and yields its trees.
* `Session.forest` matches a production with room for a number of productions, itself included.
* `Session.parse` matches one production from where a session stands, `Tree.ofTokens` a whole unit.
* A failure leaves the cursor where matching stopped and tells the token there.
-/

namespace JackSyntax

/-- Why tokens do not match. -/
inductive SyntaxCause where
  | expected (what : TokenClass)
  | expectedTerm
  | trailing
  | tooDeep
deriving DecidableEq, Repr

/-- A grammatical error: the offending token and its index, the number of tokens when the input
ended early, and the productions that were open, outermost first. -/
structure SyntaxError where
  cause : SyntaxCause
  index : Nat
  token : Option Token
  rules : List Production
deriving DecidableEq, Repr

namespace SyntaxError

/-- The rule in which matching stopped. -/
def production (error : SyntaxError) : Production :=
  error.rules.getLast?.getD .unit

/-- The reason that a message gives. -/
def reason (error : SyntaxError) : String :=
  let found := match error.token with
    | none => "end of input"
    | some token => Text.quoted token.text
  match error.cause with
  | .expected what => s!"Expected {what.description}, got {found}"
  | .expectedTerm => s!"Expected a term, got {found}"
  | .trailing => "Unexpected token after end of class"
  | .tooDeep => "Nesting too deep"

/-- What is told of the error. -/
def report (error : SyntaxError) : Report :=
  ⟨error.reason, error.production.name, error.index, error.token, error.rules.map (·.name)⟩

/-- The innermost open statement. -/
def statement? (error : SyntaxError) : Option Production :=
  error.rules.reverse.find? (statementProductions.map (·.2)).contains

end SyntaxError

/-- A cursor and the productions that are open on it, innermost first. -/
structure Session where
  cursor : Cursor
  enclosing : List Production := []
deriving DecidableEq, Repr

/-- Why a session stops: the tokens do not match, or the cursor was misused. -/
inductive Failure where
  | rejected (error : SyntaxError)
  | cursor (fault : CursorFault)
deriving DecidableEq, Repr

/-- A step of a session. -/
abbrev Matching := EStateM Failure Session

namespace Session

/-- A session at the start of some tokens. -/
def ofList (tokens : List Token) : Session :=
  ⟨.ofList tokens, []⟩

/-- A step of the cursor alone. -/
def onCursor (step : EStateM CursorFault Cursor α) : Matching α := fun session =>
  match step session.cursor with
  | .ok value cursor => .ok value { session with cursor }
  | .error fault cursor => .error (.cursor fault) { session with cursor }

/-- Stops at the next token. -/
def reject (cause : SyntaxCause) : Matching α := fun session =>
  .error (.rejected ⟨cause, session.cursor.taken, session.cursor.peek, session.enclosing.reverse⟩)
    session

/-- There is a next token, and it is of the class. -/
def nextIs (session : Session) (what : TokenClass) : Bool :=
  match session.cursor.peek with
  | some token => what.accepts token
  | none => false

/-- Takes the next token if it is of the class. -/
def take (expected : TokenClass) : Matching (List Tree) := fun session =>
  if session.nextIs expected then
    (do return [Tree.ofToken (← onCursor Cursor.advance)]) session
  else reject (.expected expected) session

/-- Steps onto the next token, if there is one, and back. -/
def probe : Matching (List Tree) := fun session =>
  if session.cursor.hasNext then
    (do discard (onCursor Cursor.advance); onCursor Cursor.pushback; return []) session
  else .ok [] session

/-- Matches inside a production. -/
def inside (production : Production) (body : Matching α) : Matching α := fun session =>
  match body { session with enclosing := production :: session.enclosing } with
  | .ok value session => .ok value { session with enclosing := session.enclosing.tail }
  | .error failure session => .error failure { session with enclosing := session.enclosing.tail }

/-- Repeats a step while the next token is of the class, at most `limit` times. -/
def repeatWhile (next : TokenClass) (step : Matching (List Tree)) : Nat → Matching (List Tree)
  | 0 => pure []
  | limit + 1 => fun session =>
    if session.nextIs next then
      (do return (← step) ++ (← repeatWhile next step limit)) session
    else .ok [] session

end Session

namespace Rule

open Session

/-- Matches a rule; `enter` matches a nested production. A repetition needs no more turns than there
are tokens left, because each turn takes one. -/
def run (enter : Production → Matching (List Tree)) : Rule → Matching (List Tree)
  | empty => pure []
  | take expected => Session.take expected
  | nest production => enter production
  | seq first second => do return (← first.run enter) ++ (← second.run enter)
  | branch next yes no => fun session =>
    if session.nextIs next then yes.run enter session else no.run enter session
  | many next item => fun session =>
    repeatWhile next (item.run enter) session.cursor.left session
  | probe => Session.probe
  | refuse => reject .expectedTerm
  | finish => fun session =>
    if session.cursor.hasNext then reject .trailing session else .ok [] session

end Rule

/-- What an instance of a production contributes to the node around it. -/
def Production.wrap (production : Production) (children : List Tree) : List Tree :=
  match production.tag? with
  | some tag => [.node tag children]
  | none => children

namespace Session

/-- Matches a production, which may open `room` productions, itself included; yields its children.
-/
def forest : Nat → Production → Matching (List Tree)
  | 0, production => inside production (reject .tooDeep)
  | room + 1, production =>
    inside production ((Grammar.rule production).run fun nested =>
      return nested.wrap (← forest room nested))

/-- Matches a production and builds its tree. A production without a tag lends its name. -/
def parse (production : Production) : Matching Tree := fun session =>
  (do
    let children ← forest (Vocabulary.deepestNesting - session.enclosing.length) production
    return Tree.node (production.tag?.getD production.name) children) session

end Session

/-- The tree of a whole compilation unit. -/
def Tree.ofTokens (tokens : List Token) : Except Failure Tree :=
  match Session.parse .unit (.ofList tokens) with
  | .ok tree _ => .ok tree
  | .error failure _ => .error failure

end JackSyntax
