import JackSyntax.Document.Event
import JackSyntax.Json.Render

/-!
# JSON trees

The record of a tree, built from events: each open tag has a frame that gathers its children, and
the outermost one becomes the root when it closes.

Headlines:
* `JsonTree.accept` takes an event; a leaf needs an open tag, a close must match the innermost one.
* `JsonTree.output` is the text of the root, empty as long as there is none.
-/

namespace JackSyntax

/-- An open tag and its children so far, last one first. -/
structure Frame where
  tag : String
  children : List Json := []
deriving Repr

/-- The record of the tag once it closes. -/
def Frame.close (frame : Frame) : Json :=
  .ofNode frame.tag frame.children.reverse

/-- A JSON tree under construction: the indentation, the finished root, and the frames of the open
tags, innermost first. -/
structure JsonTree where
  indent : Int := 2
  root : Option Json := none
  frames : List Frame := []
deriving Repr

namespace JsonTree

/-- The tags that are open, innermost first. -/
def openTags (tree : JsonTree) : List String :=
  tree.frames.map (·.tag)

/-- Puts a finished value where it belongs: under the innermost open tag, else at the root. -/
def place (value : Json) (tree : JsonTree) : JsonTree :=
  match tree.frames with
  | [] => { tree with root := some value }
  | frame :: outer =>
    { tree with frames := { frame with children := value :: frame.children } :: outer }

/-- Adds an event. -/
def accept : Event → JsonTree → Except EventFault JsonTree
  | .opened tag, tree => .ok { tree with frames := { tag } :: tree.frames }
  | .leaf kind text, tree =>
    if tree.frames.isEmpty then .error (.leafOutside kind text)
    else .ok (tree.place (.ofLeaf kind text))
  | .closed tag, tree =>
    match tree.frames with
    | [] => .error (.mismatchedClose tag none)
    | frame :: outer =>
      if frame.tag = tag then .ok ({ tree with frames := outer }.place frame.close)
      else .error (.mismatchedClose tag (some frame.tag))

/-- The document. -/
def output (tree : JsonTree) : Except EventFault String :=
  if tree.frames.isEmpty then
    .ok <| match tree.root with
      | some root => root.render (.ofIndent tree.indent) ++ "\n"
      | none => ""
  else .error (.unclosed tree.openTags.reverse)

/-- What is said of a refusal. -/
def refusal : EventFault → String
  | .mismatchedClose tag innermost =>
    let found := (innermost.map Text.quoted).getD "None"
    s!"Close tag {Text.quoted tag} does not match open tag {found}"
  | .leafOutside kind text => s!"Terminal {kind} {Text.quoted text} outside of any tag"
  | .unclosed tags => "Unclosed tags: " ++ ", ".intercalate tags
  | .tooWide => EventFault.tooWideText

end JsonTree

end JackSyntax
