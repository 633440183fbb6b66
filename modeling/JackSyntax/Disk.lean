import JackSyntax.Path
import JackSyntax.Text.Quoted

/-!
# Disks

Files and directories below the root. A path is followed part by part, from the root or from the
working directory; every part but the last must be a directory, and two dots lead to the directory
around, those of the root to the root itself. A file has one location, however its path is spelled.

Headlines:
* `Disk.resolve` follows a path to a location, which need not exist.
* `Disk.write?` replaces or creates one file, `Disk.remove` removes one, `Disk.makeDirectories`
  makes a directory and those around it.
* `find?_insert_ne` and `find?_erase_ne`: inserting and erasing change one location and no other.

Left out: links, so that two locations never share a file; permissions and full disks, so that a
write fails for what stands on the way or in its place alone; limits on the length of names and
paths; what other programs do meanwhile. Names on a disk hold no slash and no NUL. Slashes are kept
apart where it matters (`WellNamed`); a path with a NUL is refused before a disk is asked.
-/

namespace JackSyntax

/-- A place on a disk: the names that lead to it from the root. -/
abbrev Location := List String

/-- Byte strings are compared by their contents. -/
instance instDecidableEqBytes : DecidableEq ByteArray := ByteArray.instDecidableEq

/-- What stands at a location. -/
inductive Entry where
  | file (bytes : ByteArray)
  | directory
deriving DecidableEq

/-- A disk: where the working directory is, and the entries, at most one at a location. The
directories on the way to the working directory are no entries; they are always there. -/
structure Disk where
  here : Location := ["home", "work"]
  entries : List (Location × Entry) := []
  distinct : (entries.map (·.1)).Nodup := by exact List.nodup_nil

/-- Why a path cannot be followed, or a directory not be made. -/
inductive DiskFault where
  /-- Something on the way is missing. -/
  | missing
  /-- Something on the way is a file. -/
  | notDirectory
  /-- What should be made is there already, and is a file. -/
  | exists
deriving DecidableEq, Repr

namespace Disk

/-- The directories that are always there: the working directory and those around it, up to the
root. -/
def isAlwaysThere (disk : Disk) (location : Location) : Bool :=
  location.isPrefixOf disk.here

/-- What stands at a location. -/
def find? (disk : Disk) (location : Location) : Option Entry :=
  if disk.isAlwaysThere location then some .directory else disk.entries.lookup location

/-- The disk without what stands at a location. -/
def erase (disk : Disk) (location : Location) : Disk where
  here := disk.here
  entries := disk.entries.filter (·.1 != location)
  distinct := disk.distinct.sublist (List.filter_sublist.map _)

/-- The disk with an entry at a location, in place of what stood there. -/
def insert (disk : Disk) (location : Location) (entry : Entry) : Disk where
  here := disk.here
  entries := (location, entry) :: (disk.erase location).entries
  distinct := by
    refine List.nodup_cons.mpr ⟨?_, (disk.erase location).distinct⟩
    simp [erase]

/-- The location that a part leads to. -/
def follow (location : Location) (part : String) : Location :=
  if part == ".." then location.dropLast else location ++ [part]

/-- Follows the parts of a path from a location. -/
def resolveFrom (disk : Disk) : Location → List String → Except DiskFault Location
  | location, [] => .ok location
  | location, part :: rest =>
    match disk.find? location with
    | some .directory => disk.resolveFrom (follow location part) rest
    | some (.file _) => .error .notDirectory
    | none => .error .missing

/-- Where a path is followed from. -/
def start (disk : Disk) (path : Path) : Location :=
  if path.root = 0 then disk.here else []

/-- The location of a path. -/
def resolve (disk : Disk) (path : Path) : Except DiskFault Location :=
  disk.resolveFrom (disk.start path) path.parts

/-- The location that a path leads to when nothing on the way is missing. -/
def locate (disk : Disk) (path : Path) : Location :=
  path.parts.foldl follow (disk.start path)

/-- What stands at a path. -/
def entry? (disk : Disk) (path : Path) : Option Entry :=
  match disk.resolve path with
  | .ok location => disk.find? location
  | .error _ => none

/-- A file stands at the path. -/
def isFile (disk : Disk) (path : Path) : Bool :=
  match disk.entry? path with
  | some (.file _) => true
  | _ => false

/-- A directory stands at the path. -/
def isDirectory (disk : Disk) (path : Path) : Bool :=
  match disk.entry? path with
  | some .directory => true
  | _ => false

/-- The bytes of the file at a path. -/
def read? (disk : Disk) (path : Path) : Option ByteArray :=
  match disk.entry? path with
  | some (.file bytes) => some bytes
  | _ => none

/-- Writes a file; there must be a directory for it and none in its place. -/
def write? (disk : Disk) (path : Path) (bytes : ByteArray) : Option Disk :=
  match disk.resolve path with
  | .error _ => none
  | .ok location =>
    match disk.find? location with
    | some .directory => none
    | _ => some (disk.insert location (.file bytes))

/-- Removes the file at a path; anything else stays. -/
def remove (disk : Disk) (path : Path) : Disk :=
  match disk.resolve path with
  | .error _ => disk
  | .ok location =>
    match disk.find? location with
    | some (.file _) => disk.erase location
    | _ => disk

/-- Makes one directory; a failure tells its path. -/
def makeDirectory (path : Path) : EStateM (DiskFault × Path) Disk Unit := fun disk =>
  match disk.resolve path with
  | .error fault => .error (fault, path) disk
  | .ok location =>
    match disk.find? location with
    | none => .ok () (disk.insert location .directory)
    | some .directory => .ok () disk
    | some (.file _) => .error (.exists, path) disk

/-- Makes the directory of a path and those that are missing on the way, given the number of parts.
-/
def makeWithin : Nat → Path → EStateM (DiskFault × Path) Disk Unit
  | 0, path => makeDirectory path
  | parts + 1, path => fun disk =>
    match makeDirectory path disk with
    | .error (.missing, _) disk =>
      match makeWithin parts path.parent disk with
      | .ok () disk => makeDirectory path disk
      | .error failure disk => .error failure disk
    | result => result

/-- Makes the directory of a path and those that are missing on the way. A failure tells the path
that could not be made; what was made before it stays. -/
def makeDirectories (path : Path) : EStateM (DiskFault × Path) Disk Unit :=
  makeWithin path.parts.length path

/-- The names of the entries in the directory at a location, in the order of their characters. -/
def names (disk : Disk) (location : Location) : List String :=
  let inside := disk.entries.filterMap fun entry =>
    match entry.1.getLast? with
    | some name => if entry.1.dropLast == location then some name else none
    | none => none
  inside.mergeSort fun first second => !decide (second < first)

/-- The paths of what is in the directory at a path, in the order of the names. -/
def list (disk : Disk) (path : Path) : List Path :=
  match disk.resolve path with
  | .error _ => []
  | .ok location => (disk.names location).map path.child

/-! ## Each change is at one location -/

section Change

variable {disk : Disk} {changed location : Location} {entry : Entry}

@[simp] theorem here_erase : (disk.erase changed).here = disk.here := rfl

@[simp] theorem here_insert : (disk.insert changed entry).here = disk.here := rfl

@[simp] theorem isAlwaysThere_erase :
    (disk.erase changed).isAlwaysThere location = disk.isAlwaysThere location := rfl

@[simp] theorem isAlwaysThere_insert :
    (disk.insert changed entry).isAlwaysThere location = disk.isAlwaysThere location := rfl

theorem find?_erase_ne (h : location ≠ changed) :
    (disk.erase changed).find? location = disk.find? location := by
  have hlookup : (disk.entries.filter (·.1 != changed)).lookup location =
      disk.entries.lookup location := by
    induction disk.entries with
    | nil => rfl
    | cons entry rest ih =>
      obtain ⟨key, value⟩ := entry
      by_cases hkey : key = changed
      · subst hkey
        have hne : (location == key) = false := by simpa using h
        simp [List.lookup_cons, hne, ih]
      · simp only [List.filter_cons, bne_iff_ne, ne_eq, hkey, not_false_eq_true, ↓reduceIte,
          List.lookup_cons, ih]
  rw [find?, find?, isAlwaysThere_erase, erase, hlookup]

theorem find?_insert_ne (h : location ≠ changed) :
    (disk.insert changed entry).find? location = disk.find? location := by
  have hne : (location == changed) = false := by simpa using h
  rw [← @find?_erase_ne disk _ _ h, find?, find?, isAlwaysThere_insert, isAlwaysThere_erase]
  simp only [insert, List.lookup_cons, hne]

theorem find?_insert_self (h : disk.isAlwaysThere location = false) :
    (disk.insert location entry).find? location = some entry := by
  rw [find?, isAlwaysThere_insert, h, if_neg Bool.false_ne_true, insert, List.lookup_cons_self]

end Change

end Disk

/-- What is said of a directory that cannot be made. -/
def DiskFault.message (fault : DiskFault) (path : Path) : String :=
  let reason := match fault with
    | missing => "[Errno 2] No such file or directory"
    | notDirectory => "[Errno 20] Not a directory"
    | .exists => "[Errno 17] File exists"
  s!"{reason}: {Text.quoted path.toString}"

end JackSyntax
