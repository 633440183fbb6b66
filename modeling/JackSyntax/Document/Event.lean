import JackSyntax.Tree

/-!
# Document events

A document is written as a sequence of events: a tag opens, a leaf stands, a tag closes.

Headlines:
* `Tree.events` is the sequence of a tree, in source order.
* `Tree.walk` feeds a tree to anything that accepts events; it stops at the first event that is not
  accepted, or at the first foreign value.
-/

namespace JackSyntax

/-- A step in a document. -/
inductive Event where
  | opened (tag : String)
  | leaf (kind text : String)
  | closed (tag : String)
deriving DecidableEq, Repr

/-- Why a document refuses an event, or to be finished. -/
inductive EventFault where
  | mismatchedClose (tag : String) (innermost : Option String)
  | leafOutside (kind text : String)
  | unclosed (tags : List String)
  /-- The blanks of a margin cannot be counted by an index. -/
  | tooWide
deriving DecidableEq, Repr

/-- What is said of a margin whose blanks cannot be counted, whatever the format. -/
def EventFault.tooWideText : String :=
  "cannot fit 'int' into an index-sized integer"

/-- Why a tree is not written. -/
inductive WalkFault where
  | refused (fault : EventFault)
  | foreign (value : Foreign)
deriving Repr

/-- What is said of a foreign value in a tree. -/
def Foreign.refusal (value : Foreign) : String :=
  s!"Cannot serialize {value.typeName}; expected a ParseNode"

namespace Tree

mutual

/-- The events of a tree; a foreign value has none. -/
def events : Tree → List Event
  | leaf kind text => [.leaf kind text]
  | node tag children => .opened tag :: eventsAll children ++ [.closed tag]
  | foreign _ => []

/-- The events of several trees. -/
def eventsAll : List Tree → List Event
  | [] => []
  | tree :: rest => tree.events ++ eventsAll rest

end

/-- Feeds one event. -/
def feed (accept : Event → σ → Except EventFault σ) (event : Event) : EStateM WalkFault σ Unit :=
  fun state =>
    match accept event state with
    | .ok next => .ok () next
    | .error fault => .error (.refused fault) state

mutual

/-- Feeds the events of a tree. -/
def walk (accept : Event → σ → Except EventFault σ) : Tree → EStateM WalkFault σ Unit
  | leaf kind text => feed accept (.leaf kind text)
  | node tag children => do
    feed accept (.opened tag)
    walkAll accept children
    feed accept (.closed tag)
  | foreign value => throw (.foreign value)

/-- Feeds the events of several trees. -/
def walkAll (accept : Event → σ → Except EventFault σ) : List Tree → EStateM WalkFault σ Unit
  | [] => pure ()
  | tree :: rest => do
    walk accept tree
    walkAll accept rest

end

end Tree

end JackSyntax
