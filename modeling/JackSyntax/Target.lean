import JackSyntax.Text.Lowercase
import JackSyntax.Text.Quoted

/-!
# Output targets

The two formats that documents are written in.

Headlines:
* `Target.ofName?` knows the targets by name, whatever the case of its letters.
-/

namespace JackSyntax

/-- A format of documents. -/
inductive Target where
  | xml
  | json
deriving DecidableEq, Repr, Inhabited

namespace Target

/-- Every format, in the order of the names. -/
def all : List Target :=
  [json, xml]

/-- The name of a format. -/
def name : Target → String
  | xml => "xml"
  | json => "json"

/-- The format of a name in lower case. -/
def ofLowercase? (name : String) : Option Target :=
  all.find? (·.name == name)

/-- The format of a name. -/
def ofName? (name : String) : Option Target :=
  ofLowercase? (Text.lowercase name)

/-- The ending of the files written in a format. -/
def extension (target : Target) : String :=
  "." ++ target.name

/-- What is said of a name that no format has. -/
def unknownName (name : String) : String :=
  s!"Unknown output target: {Text.quoted (Text.lowercase name)}"

end Target

end JackSyntax
