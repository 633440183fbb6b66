import JackSyntax.Artifacts
import JackSyntax.Disk
import JackSyntax.Settings

/-!
# Faults of an analysis

What can go wrong with one source, and what stops a whole run.

Headlines:
* A `Defect` is the fault of one source: malformed text, text that is no class, or a file that
  cannot be read or written. A batch reports it and goes on.
* A `Fault` is what a run ends with when it does not return: a defect, or something that a batch
  does not report.
* `Unencodable` is what can be encoded in no way: a document with a character that its codec lacks,
  or a path with a NUL.
-/

namespace JackSyntax

/-- Why a file or directory could not be used. -/
inductive AccessCause where
  | unreadable
  | unwritable
  | notFound
deriving DecidableEq, Repr

/-- The reason that a message gives. -/
def AccessCause.reason : AccessCause → String
  | unreadable => "Cannot read source"
  | unwritable => "Cannot write output"
  | notFound => "No such file or directory"

/-- A reason together with the path that it is about. -/
def Path.locate (path reason : String) : String :=
  s!"{reason}: {path}"

/-- What is wrong with one source. -/
inductive Defect where
  | lexical (error : LexError)
  | grammatical (error : SyntaxError)
  | access (cause : AccessCause) (path : Path)
deriving DecidableEq, Repr

namespace Defect

/-- The kind of a defect. -/
def kind : Defect → String
  | lexical _ => "LexError"
  | grammatical _ => "JackSyntaxError"
  | access _ _ => "ResourceError"

/-- The text of a defect. -/
def message : Defect → String
  | lexical error => error.message
  | grammatical error => error.report.message
  | access cause path => Path.locate path.toString cause.reason

end Defect

/-- What cannot be encoded. -/
inductive Unencodable where
  /-- The document for a path holds a character that the codec lacks. -/
  | document (path : Path)
  /-- The path holds a NUL. -/
  | path (path : Path)
deriving DecidableEq, Repr

/-- What is said of it. The codec's own words for a document are not told. -/
def Unencodable.message : Unencodable → String
  | document place => Path.locate place.toString "Cannot encode output"
  | path _ => "embedded null byte"

/-- What a run ends with when it does not return. -/
inductive Fault where
  | defect (defect : Defect)
  /-- A run of digits that is not converted, or a misused reader. -/
  | unread (error : LexError)
  | cursor (fault : CursorFault)
  | unwritten (target : Target) (fault : WalkFault)
  /-- A single file was given that is no source. -/
  | notSource (suffix : String)
  | unknownFormat (settings : Settings)
  /-- Nothing was given as the indentation of markup. -/
  | noIndent
  | unknownEncoding (name : String)
  | unencodable (what : Unencodable)
  | noDirectory (fault : DiskFault) (path : Path)

namespace Fault

/-- The fault of a lexical error; only malformed text is a defect of the source. -/
def ofLexError (error : LexError) : Fault :=
  if error.cause.isMalformed then .defect (.lexical error) else .unread error

/-- The fault of a source text without artifacts. -/
def ofSourceFault (target : Target) : SourceFault → Fault
  | .lexical error => ofLexError error
  | .unmatched (.rejected error) => .defect (.grammatical error)
  | .unmatched (.cursor fault) => .cursor fault
  | .unwritten fault => .unwritten target fault

/-- The text of a fault. -/
def message : Fault → String
  | defect found => found.message
  | unread error => error.message
  | cursor fault => fault.message
  | unwritten target (.refused fault) => Document.refusal target fault
  | unwritten _ (.foreign value) => value.refusal
  | notSource suffix => s!"Only {suffix} files are supported."
  | unknownFormat settings => settings.unknownFormat
  | noIndent => Settings.noIndent
  | unknownEncoding name => Text.Encoding.unknownName name
  | unencodable what => what.message
  | noDirectory fault path => fault.message path

end Fault

end JackSyntax
