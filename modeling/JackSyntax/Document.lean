import JackSyntax.Document.JsonTree
import JackSyntax.Document.Markup
import JackSyntax.Session
import JackSyntax.Target

/-!
# Documents

A document in either format, built from events, and the two documents of a source text: the listing
of its tokens and its parse tree.

Headlines:
* `Document.accept` and `Document.output` work alike for both formats.
* `Document.ofTree` writes a tree, `Document.listing` a list of tokens. They lay out any
  indentation; `Document.checkMargins` refuses those whose margins are too wide to be counted.

Left out: memory is never short, also for a margin that only just has an index for its width.
-/

namespace JackSyntax

/-- A document under construction. -/
inductive Document where
  | markup (document : Markup)
  | json (document : JsonTree)
deriving Repr

namespace Document

/-- An empty document; without an indentation the format's own is used. -/
def empty (target : Target) (indent : Option Int) : Document :=
  match target, indent with
  | .xml, some indent => .markup { indent }
  | .xml, none => .markup {}
  | .json, some indent => .json { indent }
  | .json, none => .json {}

/-- The tags that are open, innermost first. -/
def openTags : Document → List String
  | markup document => document.openTags
  | json document => document.openTags

/-- Adds an event. -/
def accept (event : Event) : Document → Except EventFault Document
  | markup document => .markup <$> document.accept event
  | json document => .json <$> document.accept event

/-- The finished document. -/
def output : Document → Except EventFault String
  | markup document => document.output
  | json document => document.output

/-- What a format says of a refusal. -/
def refusal : Target → EventFault → String
  | .xml => Markup.refusal
  | .json => JsonTree.refusal

/-- The text of a tree. -/
def ofTree (target : Target) (indent : Option Int) (tree : Tree) : Except WalkFault String :=
  match tree.walk accept (empty target indent) with
  | .ok () document => document.output.mapError .refused
  | .error fault _ => .error fault

/-- The tag around a listing of tokens. -/
def listingTag : String :=
  "tokens"

/-- The tree of a listing: one leaf per token. -/
def listingTree (tokens : List Token) : Tree :=
  .node listingTag (tokens.map .ofToken)

/-- The listing of some tokens. -/
def listing (target : Target) (indent : Option Int) (tokens : List Token) :
    Except WalkFault String :=
  ofTree target indent (listingTree tokens)

/-! ## Margins that can be counted -/

/-- The number can be the length of a text: it fits in 64 bits with a sign. -/
def isIndex (number : Int) : Bool :=
  decide (-0x8000000000000000 ≤ number ∧ number < 0x8000000000000000)

/-- The width of each margin is an index. Markup multiplies the indentation by the tags around each
line, most of all for the innermost one; JSON counts the blanks of one step only. -/
def fits (target : Target) (indent : Option Int) (tree : Tree) : Bool :=
  match target, indent with
  | _, none => true
  | .xml, some width => isIndex (width * tree.depth)
  | .json, some width => isIndex width

/-- Refuses a tree with a margin that is too wide to be counted. -/
def checkMargins (target : Target) (indent : Option Int) (tree : Tree) : Except WalkFault Unit :=
  if fits target indent tree then .ok () else .error (.refused .tooWide)

end Document

end JackSyntax
