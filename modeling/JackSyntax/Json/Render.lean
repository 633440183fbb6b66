import JackSyntax.Json
import JackSyntax.Text.Hex

/-!
# Writing JSON

One layout keeps a document on one line, the other puts every item on a line of its own. Either way
the text is printable ASCII and newlines; everything else is escaped, characters beyond the basic
plane as surrogate pairs.

Headlines:
* `Json.Layout.ofIndent` reads an indentation: zero is one line, a negative one indents by nothing.
* `Json.render` is the text of a value.
-/

namespace JackSyntax.Json

/-- Where the items of a list or record stand. -/
inductive Layout where
  | oneLine
  | indented (width : Nat)
deriving DecidableEq, Repr

namespace Layout

/-- The layout for an indentation, also for one that no index reaches; `Document.checkMargins`
refuses that beforehand. -/
def ofIndent (indent : Int) : Layout :=
  if indent = 0 then oneLine else indented indent.toNat

/-- What stands before an item at a depth, and before the bracket that closes above it. -/
def lineBreak : Layout → Nat → List Char
  | oneLine, _ => []
  | indented width, depth => '\n' :: List.replicate (width * depth) ' '

/-- What stands between two items at a depth. -/
def separator : Layout → Nat → List Char
  | oneLine, _ => [',', ' ']
  | layout, depth => ',' :: layout.lineBreak depth

end Layout

/-- The escape of a UTF-16 unit. -/
def escapeUnit (unit : Nat) : List Char :=
  '\\' :: 'u' :: Text.hexDigits 4 unit

/-- One character of a text. -/
def escape (c : Char) : List Char :=
  if c = '"' || c = '\\' then ['\\', c]
  else if c = '\n' then ['\\', 'n']
  else if c = '\r' then ['\\', 'r']
  else if c = '\t' then ['\\', 't']
  else if c = Char.ofNat 0x8 then ['\\', 'b']
  else if c = Char.ofNat 0xC then ['\\', 'f']
  else if 0x20 ≤ c.toNat && c.toNat ≤ 0x7E then [c]
  else if c.toNat < 0x10000 then escapeUnit c.toNat
  else escapeUnit (0xD800 + (c.toNat - 0x10000) / 0x400) ++
    escapeUnit (0xDC00 + (c.toNat - 0x10000) % 0x400)

/-- A text in quotes. -/
def renderText (text : String) : List Char :=
  '"' :: text.toList.flatMap escape ++ ['"']

/-- Items in brackets; the brackets stand at `depth`, the items one deeper. -/
def bracket (layout : Layout) (depth : Nat) (opening closing : Char) (items : List (List Char)) :
    List Char :=
  if items.isEmpty then [opening, closing]
  else opening :: layout.lineBreak (depth + 1) ++
    (layout.separator (depth + 1)).intercalate items ++ layout.lineBreak depth ++ [closing]

mutual

/-- The text of a value at a depth. -/
def renderAt (layout : Layout) (depth : Nat) : Json → List Char
  | text value => renderText value
  | list items => bracket layout depth '[' ']' (renderItems layout (depth + 1) items)
  | record fields => bracket layout depth '{' '}' (renderFields layout (depth + 1) fields)

/-- The texts of the items of a list. -/
def renderItems (layout : Layout) (depth : Nat) : List Json → List (List Char)
  | [] => []
  | item :: rest => item.renderAt layout depth :: renderItems layout depth rest

/-- The texts of the fields of a record. -/
def renderFields (layout : Layout) (depth : Nat) : List (String × Json) → List (List Char)
  | [] => []
  | (key, value) :: rest =>
    (renderText key ++ ':' :: ' ' :: value.renderAt layout depth) :: renderFields layout depth rest

end

/-- The text of a value. -/
def render (layout : Layout) (value : Json) : String :=
  String.ofList (value.renderAt layout 0)

end JackSyntax.Json
