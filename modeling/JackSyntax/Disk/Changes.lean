import JackSyntax.Disk

/-!
# Changes of a disk

What has to be done to one disk so that it becomes another.

Headlines:
* `Disk.changes` lists directories that are new, files that are new or have other bytes, and entries
  that are gone.
* A change is an addition to one disk or a removal from the other.
* `Disk.spell` says where, as a user in the working directory would.
-/

namespace JackSyntax

/-- A location as it is spelled: names from the working directory on, or a slash and the names from
the root on. -/
abbrev Spelling := List String

/-- The path of a spelled location. -/
def Spelling.path : Spelling → Path
  | "/" :: names => ⟨1, names⟩
  | names => ⟨0, names⟩

/-- One change of a disk. -/
inductive Change where
  | made (place : Spelling)
  | written (place : Spelling) (bytes : ByteArray)
  | removed (place : Spelling)
deriving DecidableEq

/-- The change that puts an entry at a place. -/
def Entry.put (place : Spelling) : Entry → Change
  | file bytes => .written place bytes
  | directory => .made place

namespace Disk

/-- How a location is spelled. -/
def spell (disk : Disk) (location : Location) : Spelling :=
  if disk.here.isPrefixOf location then location.drop disk.here.length else "/" :: location

/-- What differs at the location of an entry that is to be there. -/
def additions (before : Disk) (entries : List (Location × Entry)) : List Change :=
  entries.filterMap fun entry =>
    if before.find? entry.1 = some entry.2 then none
    else some (entry.2.put (before.spell entry.1))

/-- The locations of entries that are not to be there any more. -/
def removals (after : Disk) (entries : List (Location × Entry)) : List Change :=
  entries.filterMap fun entry =>
    if (after.find? entry.1).isNone then some (.removed (after.spell entry.1)) else none

/-- What has to be done to `before` so that it becomes `after`; what was added last comes last, so
that a directory is made before the files in it are written. -/
def changes (before after : Disk) : List Change :=
  before.additions after.entries.reverse ++ after.removals before.entries

end Disk

end JackSyntax
