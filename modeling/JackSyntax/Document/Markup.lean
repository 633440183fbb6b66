import JackSyntax.Document.Event
import JackSyntax.Vocabulary

/-!
# Tagged markup

One line per event. A leaf stands with its text between its tags, padded by one space; only the
three marks that collide with markup are escaped, every other text is written as it is.

Headlines:
* `Markup.accept` adds the line of an event; a close must match the innermost open tag.
* `Markup.output` is the document, once every tag is closed.
-/

namespace JackSyntax

/-- Markup under construction: the indentation per open tag, the lines written, last one first, and
the tags that are open, innermost first. -/
structure Markup where
  indent : Int := 0
  written : List String := []
  openTags : List String := []
deriving Repr

namespace Markup

/-- How a mark is written; any other text stays. -/
def escapeMark (text : String) : String :=
  (Vocabulary.markupEscapes.lookup text).getD text

/-- The text of a leaf; only marks are escaped. -/
def leafText (kind text : String) : String :=
  if kind == TokenKind.symbol.tag then escapeMark text else text

/-- The blanks before a line inside `depth` tags: none when the indentation is negative. Any other
number of them is laid out, also one that no index reaches; `Document.checkMargins` refuses
that beforehand. -/
def margin (indent : Int) (depth : Nat) : String :=
  String.ofList (List.replicate (indent * depth).toNat ' ')

/-- The lines so far, in order. -/
def lines (markup : Markup) : List String :=
  markup.written.reverse

/-- One more line, inside the tags that are open now. -/
def addLine (markup : Markup) (line : String) : Markup :=
  let margin := margin markup.indent markup.openTags.length
  { markup with written := (margin ++ line) :: markup.written }

/-- Adds an event. -/
def accept : Event → Markup → Except EventFault Markup
  | .opened tag, markup =>
    .ok { markup.addLine s!"<{tag}>" with openTags := tag :: markup.openTags }
  | .leaf kind text, markup => .ok (markup.addLine s!"<{kind}> {leafText kind text} </{kind}>")
  | .closed tag, markup =>
    match markup.openTags with
    | [] => .error (.mismatchedClose tag none)
    | innermost :: outer =>
      if innermost = tag then .ok ({ markup with openTags := outer }.addLine s!"</{tag}>")
      else .error (.mismatchedClose tag (some innermost))

/-- The document. -/
def output (markup : Markup) : Except EventFault String :=
  if markup.openTags.isEmpty then .ok (String.join (markup.lines.map (· ++ "\n")))
  else .error (.unclosed markup.openTags.reverse)

/-- How a message calls the innermost tag when none is open. -/
def noTag : String :=
  "None"

/-- What is said of a refusal. -/
def refusal : EventFault → String
  | .mismatchedClose tag innermost =>
    s!"Close tag </{tag}> does not match open tag <{innermost.getD noTag}>"
  | .leafOutside kind text => s!"Terminal {kind} {text} outside of any tag"
  | .unclosed tags => "Unclosed tags: " ++ ", ".intercalate tags
  | .tooWide => EventFault.tooWideText

end Markup

end JackSyntax
