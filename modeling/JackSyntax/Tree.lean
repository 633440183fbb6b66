import JackSyntax.Text.Quoted
import JackSyntax.Token

/-!
# Parse trees

Ordered trees whose leaves are tokens without their places. A tree built by hand may also hold
foreign values, which are no tree and cannot be written out.

Headlines:
* `Tree.leaves` lists the leaves from left to right, `Tree.findAll` the nodes of one tag in
  pre-order.
* `Tree.isProper` says that no foreign value occurs.
* `Tree.same` is equality of trees by kind, text, tag and children; `eq_of_same` for those without
  foreign values.
-/

namespace JackSyntax

/-- A value that is no tree. A bare node is a node of no shape, and unlike any other value. -/
inductive Foreign where
  | bareNode
  | nothing
  | boolean (value : Bool)
  | integer (value : Int)
  | text (value : String)
  | list (items : List Foreign)
  | record (fields : List (String × Foreign))
deriving Repr, Inhabited

namespace Foreign

/-- The name of a value's type. -/
def typeName : Foreign → String
  | bareNode => "ParseNode"
  | nothing => "NoneType"
  | boolean _ => "bool"
  | integer _ => "int"
  | text _ => "str"
  | list _ => "list"
  | record _ => "dict"

mutual

/-- The value in a message. -/
def display : Foreign → String
  | bareNode => "ParseNode"
  | nothing => "None"
  | boolean value => if value then "True" else "False"
  | integer value => toString value
  | text value => Text.quoted value
  | list items => "[" ++ ", ".intercalate (displayAll items) ++ "]"
  | record fields => "\x7b" ++ ", ".intercalate (displayFields fields) ++ "\x7d"

/-- The values of a list. -/
def displayAll : List Foreign → List String
  | [] => []
  | value :: rest => value.display :: displayAll rest

/-- The fields of a record. -/
def displayFields : List (String × Foreign) → List String
  | [] => []
  | (key, value) :: rest => (Text.quoted key ++ ": " ++ value.display) :: displayFields rest

end

mutual

/-- The values are equal. -/
def same : Foreign → Foreign → Bool
  | nothing, nothing => true
  | boolean first, boolean second => first == second
  | integer first, integer second => first == second
  | boolean first, integer second => (if first then 1 else 0) == second
  | integer first, boolean second => first == (if second then 1 else 0)
  | text first, text second => first == second
  | list first, list second => sameAll first second
  | record first, record second => first.length == second.length && sameFields first second
  | _, _ => false

/-- The lists are equal, value by value. -/
def sameAll : List Foreign → List Foreign → Bool
  | [], [] => true
  | value :: rest, other :: others => value.same other && sameAll rest others
  | _, _ => false

/-- Each field of the first record is in the second, wherever it stands. -/
def sameFields : List (String × Foreign) → List (String × Foreign) → Bool
  | [], _ => true
  | (key, value) :: rest, fields =>
    (match fields.lookup key with
      | some other => value.same other
      | none => false) && sameFields rest fields

end

end Foreign

/-- A parse tree. -/
inductive Tree where
  /-- A token: the name of its kind and its text. -/
  | leaf (kind text : String)
  /-- An instance of a grammar rule and what it consists of, in source order. -/
  | node (tag : String) (children : List Tree)
  /-- Something that is no tree. -/
  | foreign (value : Foreign)
deriving Repr, Inhabited

namespace Tree

/-- The leaf of a token. -/
def ofToken (token : Token) : Tree :=
  .leaf token.kind.tag token.text

mutual

/-- The leaves from left to right, as kind and text. -/
def leaves : Tree → List (String × String)
  | leaf kind text => [(kind, text)]
  | node _ children => leavesAll children
  | foreign _ => []

/-- The leaves of several trees. -/
def leavesAll : List Tree → List (String × String)
  | [] => []
  | tree :: rest => tree.leaves ++ leavesAll rest

end

mutual

/-- No foreign value occurs. -/
def isProper : Tree → Bool
  | leaf _ _ => true
  | node _ children => areProper children
  | foreign _ => false

/-- No foreign value occurs in any of the trees. -/
def areProper : List Tree → Bool
  | [] => true
  | tree :: rest => tree.isProper && areProper rest

end

mutual

/-- The number of nodes around the innermost part of a tree. -/
def depth : Tree → Nat
  | node _ children => depthInside children
  | _ => 0

/-- The number of nodes around the innermost part of trees that are inside one node more. -/
def depthInside : List Tree → Nat
  | [] => 0
  | tree :: rest => max (tree.depth + 1) (depthInside rest)

end

mutual

/-- The nodes of a tag below the root, in pre-order. -/
def findAll (name : String) : Tree → List Tree
  | node _ children => findAmong name children
  | _ => []

/-- The nodes of a tag among several trees, their roots included. -/
def findAmong (name : String) : List Tree → List Tree
  | [] => []
  | node tag children :: rest =>
    (if tag == name then [node tag children] else []) ++ findAmong name children ++
      findAmong name rest
  | _ :: rest => findAmong name rest

end

mutual

/-- The trees agree in shape, tags, kinds and texts. -/
def same : Tree → Tree → Bool
  | leaf kind text, leaf kind' text' => kind == kind' && text == text'
  | node tag children, node tag' children' => tag == tag' && sameAll children children'
  | foreign value, foreign value' => value.same value'
  | _, _ => false

/-- The lists agree, tree by tree. -/
def sameAll : List Tree → List Tree → Bool
  | [], [] => true
  | tree :: rest, tree' :: rest' => tree.same tree' && sameAll rest rest'
  | _, _ => false

end

mutual

/-- Trees without foreign values agree only when they are equal. -/
theorem eq_of_same : ∀ {first second : Tree}, first.isProper = true → first.same second = true →
    first = second
  | leaf kind text, leaf kind' text', _, h => by
    simp only [same, Bool.and_eq_true, beq_iff_eq] at h
    rw [h.1, h.2]
  | node tag children, node tag' children', hproper, h => by
    simp only [same, Bool.and_eq_true, beq_iff_eq] at h
    rw [h.1, eq_of_sameAll hproper h.2]
  | leaf _ _, node _ _, _, h | leaf _ _, foreign _, _, h | node _ _, leaf _ _, _, h
  | node _ _, foreign _, _, h => by
    simp only [same] at h
    cases h
  | foreign _, _, hproper, _ => by cases hproper

/-- Lists of trees without foreign values agree only when they are equal. -/
theorem eq_of_sameAll : ∀ {first second : List Tree}, areProper first = true →
    sameAll first second = true → first = second
  | [], [], _, _ => rfl
  | tree :: rest, tree' :: rest', hproper, h => by
    simp only [areProper, sameAll, Bool.and_eq_true] at hproper h
    rw [eq_of_same hproper.1 h.1, eq_of_sameAll hproper.2 h.2]
  | [], _ :: _, _, h | _ :: _, [], _, h => by
    simp only [sameAll] at h
    cases h

end

mutual

/-- The tree in a message; of each node the first three children are shown. -/
def display : Tree → String
  | leaf kind text => "Terminal(" ++ kind ++ ", " ++ Text.quoted text ++ ")"
  | node tag children =>
    let more := if children.length > 3 then ", ..." else ""
    let shown := ", ".intercalate (displayFirst 3 children)
    s!"NonTerminal({tag}, children=[{shown}{more}])"
  | foreign value => value.display

/-- The first `count` trees in a message. -/
def displayFirst : Nat → List Tree → List String
  | 0, _ => []
  | _, [] => []
  | count + 1, tree :: rest => tree.display :: displayFirst count rest

end

/-- The children of a node; anything else has none. -/
def children : Tree → List Tree
  | node _ children => children
  | _ => []

/-- The tags of the children that are nodes. -/
def childTags (tree : Tree) : List String :=
  tree.children.filterMap fun
    | node tag _ => some tag
    | _ => none

/-- A node with one more child at the end. -/
def append : Tree → Tree → Tree
  | node tag children, child => node tag (children ++ [child])
  | other, _ => other

/-- The child at an index; a negative index counts from the end. -/
def child? (tree : Tree) (index : Int) : Option Tree :=
  let fromStart := if index < 0 then index + tree.children.length else index
  if fromStart < 0 then none else tree.children[fromStart.toNat]?

/-- What is said of an index that no child has. -/
def noSuchChild : String :=
  "list index out of range"

/-- The type of a tree that cannot be an element of a set: nodes, and lists and records among the
foreign values, can still be changed. -/
def changeable? : Tree → Option String
  | leaf _ _ => none
  | node _ _ => some "NonTerminal"
  | foreign (.list items) => some (Foreign.list items).typeName
  | foreign (.record fields) => some (Foreign.record fields).typeName
  | foreign _ => none

/-- The size of the set of two trees. -/
def distinct (first second : Tree) : Except String Nat :=
  match first.changeable? <|> second.changeable? with
  | some typeName => .error s!"unhashable type: '{typeName}'"
  | none => .ok (if first.same second then 1 else 2)

end Tree

end JackSyntax
