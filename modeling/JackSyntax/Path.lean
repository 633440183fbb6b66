/-!
# Paths

Paths as users write them: parts between slashes. Repeated slashes, single dots and a slash at the
end mean nothing; two dots stay, because only a disk can tell what they mean.

Headlines:
* `Path.ofString` reads a path, `Path.toString` writes it, the empty path as a dot.
* `Path.stem` and `Path.suffix` cut the name at its last dot, unless that is its first or last
  character (`stem_append_suffix`).
* `Path.hasNul` tells the paths that the system takes from nobody.
-/

namespace JackSyntax

/-- A path: the leading slashes that count, and the parts. -/
structure Path where
  root : Nat := 0
  parts : List String := []
deriving DecidableEq, Repr, Inhabited

namespace Path

/-- The pieces of a text between slashes. -/
def split : List Char → List (List Char)
  | [] => [[]]
  | c :: rest =>
    if c = '/' then [] :: split rest
    else match split rest with
      | [] => [[c]]
      | piece :: pieces => (c :: piece) :: pieces

/-- The leading slashes that count: exactly two stay two, any other number of them is one. -/
def rootOf (text : List Char) : Nat :=
  match (text.takeWhile (· == '/')).length with
  | 0 => 0
  | 2 => 2
  | _ => 1

/-- The path of a text. -/
def ofString (text : String) : Path :=
  ⟨rootOf text.toList,
    ((split text.toList).map String.ofList).filter fun part => part != "" && part != "."⟩

/-- The text of a path. -/
def toString (path : Path) : String :=
  if path.root = 0 && path.parts.isEmpty then "."
  else String.ofList (List.replicate path.root '/') ++ "/".intercalate path.parts

/-- The last part; empty when there is none. -/
def name (path : Path) : String :=
  path.parts.getLast?.getD ""

/-- A NUL stands in the path. It would end the text in the middle, so no call of the system takes
such a path. -/
def hasNul (path : Path) : Bool :=
  path.parts.any fun part => part.toList.contains (Char.ofNat 0)

/-- The path without its last part. -/
def parent (path : Path) : Path :=
  { path with parts := path.parts.dropLast }

/-- One more part, taken as it is. -/
def child (path : Path) (name : String) : Path :=
  { path with parts := path.parts ++ [name] }

/-- The path that a text names as seen from this one. -/
def join (path : Path) (text : String) : Path :=
  let other := ofString text
  if other.root = 0 then { path with parts := path.parts ++ other.parts } else other

/-- A name cut at its last dot; the dot belongs to the second half. A dot at either end of the name
does not count. -/
def cut (name : List Char) : List Char × List Char :=
  let after := (name.reverse.takeWhile (· != '.')).length
  let before := name.length - after - 1
  if 0 < before && 0 < after && after < name.length then (name.take before, name.drop before)
  else (name, [])

/-- The name without its suffix. -/
def stem (path : Path) : String :=
  String.ofList (cut path.name.toList).1

/-- The end of the name from its last dot on. -/
def suffix (path : Path) : String :=
  String.ofList (cut path.name.toList).2

theorem stem_append_suffix (path : Path) : path.stem ++ path.suffix = path.name := by
  rw [stem, suffix, ← String.ofList_append, cut]
  split <;> simp

end Path

end JackSyntax
