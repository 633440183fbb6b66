import JackSyntax.Path
import JackSyntax.Target
import JackSyntax.Text.Encoding

/-!
# Settings

Which files are read and what is written for them. For `Main.jack` the usual settings write the
token listing to `MainT.xml` and the parse tree to `Main.xml`, beside the source.

Headlines:
* `Given` is what a setting was given: a value, or nothing in its place.
* `Settings.codecs` is the table in which the name of the encoding is looked up.
* `Settings.tokenOutput` and `Settings.treeOutput` name the two documents of a source.
-/

namespace JackSyntax

/-- What a setting was given: its value, or nothing where a value belongs. -/
inductive Given (α : Type) where
  | nothing
  | value (it : α)
deriving DecidableEq, Repr, Inhabited

namespace Given

/-- The value, if there is one. -/
def value? : Given α → Option α
  | nothing => none
  | value it => some it

/-- Changes the value; nothing stays nothing. -/
def map (change : α → β) : Given α → Given β
  | nothing => nothing
  | value it => value (change it)

/-- Reads the value; nothing needs no reading. -/
def read? (read : α → Option β) : Given α → Option (Given β)
  | nothing => some nothing
  | value it => (read it).map value

end Given

/-- How sources are chosen, read and written. Formats and encodings are given by name; which
encodings there are is given too. -/
structure Settings where
  sourceSuffix : String := ".jack"
  tokenSuffix : String := "T"
  treeSuffix : String := ""
  target : Given String := .value Target.xml.name
  encoding : String := "utf-8"
  codecs : String → Option Text.Codec := Text.Codec.ofName?
  outputDir : Option Path := none
  writeTokens : Bool := true
  indent : Option (Given Int) := none

namespace Settings

/-- The format of the documents. -/
def format? (settings : Settings) : Option Target :=
  settings.target.value?.bind Target.ofName?

/-- The codec of sources and documents. -/
def codec? (settings : Settings) : Option Text.Codec :=
  settings.codecs settings.encoding

/-- What is said of a format that is not known. -/
def unknownFormat (settings : Settings) : String :=
  match settings.target with
  | .nothing => "'list' object has no attribute 'lower'"
  | .value name => Text.quoted (Text.lowercase name)

/-- The indentation of the documents of a format. When nothing is given for it, JSON goes on one
line and markup cannot be laid out. -/
def indentFor? (settings : Settings) (target : Target) : Option (Option Int) :=
  match settings.indent, target with
  | none, _ => some none
  | some (.value width), _ => some (some width)
  | some .nothing, .json => some (some 0)
  | some .nothing, .xml => none

/-- What is said of markup without an indentation. -/
def noIndent : String :=
  "can't multiply sequence by non-int of type 'list'"

/-- The document of a source in a format, the source's own ending replaced. -/
def output (settings : Settings) (target : Target) (source : Path) (ending : String) : Path :=
  (settings.outputDir.getD source.parent).join (source.stem ++ ending ++ target.extension)

/-- Where the token listing of a source goes. -/
def tokenOutput (settings : Settings) (target : Target) (source : Path) : Path :=
  settings.output target source settings.tokenSuffix

/-- Where the parse tree of a source goes. -/
def treeOutput (settings : Settings) (target : Target) (source : Path) : Path :=
  settings.output target source settings.treeSuffix

end Settings

end JackSyntax
