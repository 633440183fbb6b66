import JackSyntax.Tree

/-!
# JSON values

The part of JSON that documents use: texts, lists, and records with their fields in order.

Headlines:
* `Tree.toJson?` is the record of a tree; a tree with a foreign value has none.
-/

namespace JackSyntax

/-- A JSON value. -/
inductive Json where
  | text (value : String)
  | list (items : List Json)
  | record (fields : List (String × Json))
deriving Repr, Inhabited

namespace Json

/-- The record of a leaf. -/
def ofLeaf (kind text : String) : Json :=
  .record [("kind", .text kind), ("text", .text text)]

/-- The record of a node. -/
def ofNode (tag : String) (children : List Json) : Json :=
  .record [("tag", .text tag), ("children", .list children)]

end Json

namespace Tree

mutual

/-- The record of a tree. -/
def toJson? : Tree → Option Json
  | leaf kind text => some (.ofLeaf kind text)
  | node tag children => (toJsonAll? children).map (.ofNode tag)
  | foreign _ => none

/-- The records of several trees. -/
def toJsonAll? : List Tree → Option (List Json)
  | [] => some []
  | tree :: rest => do return (← tree.toJson?) :: (← toJsonAll? rest)

end

end Tree

end JackSyntax
