import JackSyntax.Production
import JackSyntax.Text.Quoted

/-!
# Reports of grammatical errors

How an error tells what was wrong, in which rule, inside which other rules, and at which token.

Headlines:
* `Report.message` is the text of an error.
* `Report.statement?` is the innermost statement around it.
-/

namespace JackSyntax

/-- What is told of a grammatical error. `enclosing` lists the names of the rules around it,
outermost first. -/
structure Report where
  reason : String
  production : String
  index : Int
  token : Option Token
  enclosing : List String
deriving Repr

namespace Report

/-- The offending token and its place, or the end of the input. -/
def found (report : Report) : String :=
  match report.token with
  | none => s!"token #{report.index} (end of input)"
  | some token => token.place.locate s!"token #{report.index} {Text.quoted token.text}"

/-- The enclosing rules, when there is more than one. -/
def chain (report : Report) : String :=
  if report.enclosing.length > 1 then " (" ++ " > ".intercalate report.enclosing ++ ")" else ""

/-- The text of the error. -/
def message (report : Report) : String :=
  s!"{report.reason} in {report.production}{report.chain}: {report.found}"

/-- The enclosing rules; an error outside of all others is inside its own. -/
def rules (report : Report) : List String :=
  if report.enclosing.isEmpty then [report.production] else report.enclosing

/-- The innermost rule around the error that is named as a statement. -/
def statement? (report : Report) : Option String :=
  report.rules.reverse.find? fun rule => "Stmt".toList.isSuffixOf rule.toList

end Report

end JackSyntax
