import JackSyntax.Disk
import JackSyntax.Proofs.Runs

/-!
# What changes on a disk

Writing and removing a file change what stands at one place, and leave every directory as it is, so
that all paths go on leading where they led. Making directories only adds to a disk.

## The model

* `Disk.KeepsDirectories before after`: no directory of the first disk is gone, and the working
  directory is the same.
* `Disk.Extends before after`: what stood on the first disk stands on the second.
* `Disk.Touches paths before after`: only files have come, gone or changed, and only at the places
  of the given paths.
* `Disk.SamePlace`: two paths lead to the same place.

## Results

* `resolve_mono`: a path leads to the same place as long as no directory goes.
* `Touches.trans`, `Touches.mono`: changes one after the other.
* **`touches_write`**, `read?_write`: a file that is written is there, and nothing else has changed.
* **`touches_remove`**, `isFile_foldl_remove`: files that are removed are gone, and nothing else has
  changed.
* `extends_makeDirectories`: making directories, failed or not, takes nothing away.
-/

namespace JackSyntax

namespace Disk

variable {disk before middle after : Disk} {path : Path} {location changed : Location}

/-! ## One location -/

theorem isAlwaysThere_eq_false (h : disk.find? location ≠ some .directory) :
    disk.isAlwaysThere location = false := by
  cases hthere : disk.isAlwaysThere location with
  | false => rfl
  | true => exact absurd (by rw [find?, if_pos hthere]) h

theorem isAlwaysThere_of_file {bytes : ByteArray} (h : disk.find? location = some (.file bytes)) :
    disk.isAlwaysThere location = false := by
  refine isAlwaysThere_eq_false (?_ : disk.find? location ≠ some .directory)
  simp [h]

theorem find?_insert {entry : Entry} (h : disk.isAlwaysThere changed = false)
    (location : Location) :
    (disk.insert changed entry).find? location =
      if location = changed then some entry else disk.find? location := by
  split
  · rename_i heq
    rw [heq, find?_insert_self h]
  · rename_i hne
    exact find?_insert_ne hne

theorem lookup_filter_ne (entries : List (Location × Entry)) (changed : Location) :
    (entries.filter (·.1 != changed)).lookup changed = none := by
  rw [List.lookup_eq_none_iff]
  intro entry hentry
  have hne : (entry.1 != changed) = true := (List.mem_filter.mp hentry).2
  rw [bne_iff_ne] at hne ⊢
  exact hne.symm

theorem find?_erase (h : disk.isAlwaysThere changed = false) (location : Location) :
    (disk.erase changed).find? location =
      if location = changed then none else disk.find? location := by
  split
  · rename_i heq
    rw [heq, find?, isAlwaysThere_erase, h, if_neg Bool.false_ne_true]
    exact lookup_filter_ne disk.entries changed
  · rename_i hne
    exact find?_erase_ne hne

/-! ## Where paths lead -/

/-- The working directory is the same, and no directory is gone. -/
structure KeepsDirectories (before after : Disk) : Prop where
  here : after.here = before.here
  directory : ∀ location, before.find? location = some .directory →
    after.find? location = some .directory

theorem KeepsDirectories.trans {before middle after : Disk} (first : KeepsDirectories before middle)
    (second : KeepsDirectories middle after) : KeepsDirectories before after :=
  ⟨second.here.trans first.here, fun location h =>
    second.directory location (first.directory location h)⟩

theorem KeepsDirectories.start (h : KeepsDirectories before after) (path : Path) :
    after.start path = before.start path := by
  rw [Disk.start, Disk.start, h.here]

theorem resolveFrom_mono (h : KeepsDirectories before after) :
    ∀ {start : Location} {parts : List String}, before.resolveFrom start parts = .ok location →
      after.resolveFrom start parts = .ok location
  | _, [], hpath => hpath
  | start, part :: rest, hpath => by
    unfold resolveFrom at hpath ⊢
    split at hpath
    · rename_i hdirectory
      rw [h.directory start hdirectory]
      exact resolveFrom_mono h hpath
    · cases hpath
    · cases hpath

/-- A path is followed to the end of its beginning, and on from there through a directory. -/
theorem resolveFrom_append {start : Location} {parts more : List String} :
    disk.resolveFrom start (parts ++ more) = .ok location ↔
      ∃ middle, disk.resolveFrom start parts = .ok middle ∧
        disk.resolveFrom middle more = .ok location := by
  induction parts generalizing start with
  | nil => simp [resolveFrom]
  | cons part parts ih =>
    simp only [List.cons_append, resolveFrom]
    split
    · exact ih
    · simp
    · simp

/-- A path leads to the same place as long as no directory goes. -/
theorem resolve_mono (h : KeepsDirectories before after)
    (hpath : before.resolve path = .ok location) : after.resolve path = .ok location := by
  rw [resolve, h.start]
  exact resolveFrom_mono h hpath

/-- The paths lead to the same place. -/
def SamePlace (disk : Disk) (first second : Path) : Prop :=
  ∃ location, disk.resolve first = .ok location ∧ disk.resolve second = .ok location

theorem read?_eq_some_iff {bytes : ByteArray} :
    disk.read? path = some bytes ↔
      ∃ location, disk.resolve path = .ok location ∧
        disk.find? location = some (.file bytes) := by
  unfold read? entry?
  cases disk.resolve path with
  | error fault => simp
  | ok location =>
    simp only [Except.ok.injEq, exists_eq_left']
    cases disk.find? location with
    | none => simp
    | some entry => cases entry <;> simp

theorem SamePlace.read?_eq {first second : Path} (h : disk.SamePlace first second) :
    disk.read? first = disk.read? second := by
  obtain ⟨location, hfirst, hsecond⟩ := h
  rw [read?, read?, entry?, entry?, hfirst, hsecond]

theorem isFile_iff : disk.isFile path = true ↔ ∃ bytes, disk.read? path = some bytes := by
  unfold isFile read?
  cases disk.entry? path with
  | none => simp
  | some entry => cases entry <;> simp

theorem read?_eq_none_iff : disk.read? path = none ↔ disk.isFile path = false := by
  rw [← Bool.not_eq_true, isFile_iff, Option.eq_none_iff_forall_ne_some, not_exists]

/-! ## Adding to a disk -/

/-- What stood on the first disk stands on the second. -/
structure Extends (before after : Disk) : Prop where
  here : after.here = before.here
  entry : ∀ location entry, before.find? location = some entry → after.find? location = some entry

namespace Extends

theorem refl (disk : Disk) : Extends disk disk :=
  ⟨rfl, fun _ _ h => h⟩

theorem trans (first : Extends before middle) (second : Extends middle after) :
    Extends before after :=
  ⟨second.here.trans first.here,
    fun location entry h => second.entry location entry (first.entry location entry h)⟩

theorem keeps (h : Extends before after) : KeepsDirectories before after :=
  ⟨h.here, fun location => h.entry location .directory⟩

theorem resolve (h : Extends before after) (hpath : before.resolve path = .ok location) :
    after.resolve path = .ok location :=
  resolve_mono h.keeps hpath

theorem read? {bytes : ByteArray} (h : Extends before after)
    (hread : before.read? path = some bytes) : after.read? path = some bytes := by
  obtain ⟨location, hpath, hfile⟩ := read?_eq_some_iff.mp hread
  exact read?_eq_some_iff.mpr ⟨location, h.resolve hpath, h.entry location _ hfile⟩

end Extends

theorem extends_makeDirectory (path : Path) (disk : Disk) :
    Extends disk (finalState (makeDirectory path disk)) := by
  unfold makeDirectory
  split
  · exact .refl disk
  · rename_i place hplace
    split
    · rename_i hnone
      refine ⟨rfl, fun location entry hentry => ?_⟩
      have hne : location ≠ place := by
        rintro rfl
        rw [hnone] at hentry
        cases hentry
      rw [finalState, find?_insert_ne hne, hentry]
    · exact .refl disk
    · exact .refl disk

theorem extends_makeWithin : ∀ (parts : Nat) (path : Path) (disk : Disk),
    Extends disk (finalState (makeWithin parts path disk))
  | 0, path, disk => extends_makeDirectory path disk
  | parts + 1, path, disk => by
    have hfirst := extends_makeDirectory path disk
    unfold makeWithin
    split
    · rename_i missing hmissing
      rw [hmissing] at hfirst
      have haround := extends_makeWithin parts path.parent missing
      split
      · rename_i around hok
        rw [hok] at haround
        exact (hfirst.trans haround).trans (extends_makeDirectory path around)
      · rename_i failure around herror
        rw [herror] at haround
        exact hfirst.trans haround
    · exact hfirst

/-- Making directories takes nothing away. -/
theorem extends_makeDirectories (path : Path) (disk : Disk) :
    Extends disk (finalState (makeDirectories path disk)) :=
  extends_makeWithin path.parts.length path disk

/-! ## Files that come, go or change -/

/-- All directories stay, and files change at the places of the paths only. -/
structure Touches (paths : List Path) (before after : Disk) : Prop where
  here : after.here = before.here
  directories : ∀ location, after.find? location = some .directory ↔
    before.find? location = some .directory
  elsewhere : ∀ location, (∀ path ∈ paths, before.resolve path ≠ .ok location) →
    after.find? location = before.find? location

namespace Touches

variable {paths more : List Path}

theorem refl (paths : List Path) (disk : Disk) : Touches paths disk disk :=
  ⟨rfl, fun _ => Iff.rfl, fun _ _ => rfl⟩

theorem resolve_iff (h : Touches paths before after) :
    after.resolve path = .ok location ↔ before.resolve path = .ok location :=
  ⟨resolve_mono ⟨h.here.symm, fun location => (h.directories location).mp⟩,
    resolve_mono ⟨h.here, fun location => (h.directories location).mpr⟩⟩

theorem mono (h : Touches paths before after) (hpaths : paths ⊆ more) : Touches more before after :=
  ⟨h.here, h.directories, fun location hmore => h.elsewhere location fun path hpath =>
    hmore path (hpaths hpath)⟩

theorem trans (first : Touches paths before middle) (second : Touches more middle after) :
    Touches (paths ++ more) before after where
  here := second.here.trans first.here
  directories location := (second.directories location).trans (first.directories location)
  elsewhere location h := by
    have hfirst : ∀ path ∈ paths, before.resolve path ≠ .ok location :=
      fun path hpath => h path (List.mem_append_left more hpath)
    have hsecond : ∀ path ∈ more, middle.resolve path ≠ .ok location := by
      intro path hpath hplace
      exact h path (List.mem_append_right paths hpath) (first.resolve_iff.mp hplace)
    rw [second.elsewhere location hsecond, first.elsewhere location hfirst]

theorem trans_self (first : Touches paths before middle) (second : Touches paths middle after) :
    Touches paths before after :=
  (first.trans second).mono (List.append_subset.mpr ⟨fun _ h => h, fun _ h => h⟩)

/-- A file stays when none of the paths leads to it. -/
theorem read?_eq (h : Touches paths before after)
    (hapart : ∀ touched ∈ paths, ¬ before.SamePlace path touched) :
    after.read? path = before.read? path := by
  apply Option.ext
  intro bytes
  rw [read?_eq_some_iff, read?_eq_some_iff]
  refine exists_congr fun location => ?_
  rw [h.resolve_iff]
  refine and_congr_right fun hplace => ?_
  rw [h.elsewhere location fun touched htouched htouch =>
    hapart touched htouched ⟨location, hplace, htouch⟩]

theorem samePlace_iff {other : Path} (h : Touches paths before after) :
    after.SamePlace path other ↔ before.SamePlace path other :=
  exists_congr fun _ => and_congr h.resolve_iff h.resolve_iff

end Touches

/-! ### Writing a file -/

theorem write?_eq_some_iff {bytes : ByteArray} :
    disk.write? path bytes = some after ↔
      ∃ location, disk.resolve path = .ok location ∧ disk.find? location ≠ some .directory ∧
        after = disk.insert location (.file bytes) := by
  unfold write?
  cases disk.resolve path with
  | error fault => simp
  | ok location =>
    simp only [Except.ok.injEq, exists_eq_left']
    cases hentry : disk.find? location with
    | none => simp [eq_comm]
    | some entry => cases entry <;> simp [eq_comm]

/-- **A file that is written changes nothing else.** -/
theorem touches_write {bytes : ByteArray} (h : disk.write? path bytes = some after) :
    Touches [path] disk after := by
  obtain ⟨place, hplace, hfree, rfl⟩ := write?_eq_some_iff.mp h
  have hthere := isAlwaysThere_eq_false hfree
  refine ⟨rfl, fun location => ?_, fun location haway => ?_⟩
  · rw [find?_insert hthere]
    split
    · rename_i heq
      subst heq
      simp [hfree]
    · exact Iff.rfl
  · refine find?_insert_ne ?_
    rintro rfl
    exact haway path List.mem_cons_self hplace

theorem read?_write {bytes : ByteArray} (h : disk.write? path bytes = some after) :
    after.read? path = some bytes := by
  have htouches := touches_write h
  obtain ⟨place, hplace, hfree, rfl⟩ := write?_eq_some_iff.mp h
  rw [read?_eq_some_iff]
  exact ⟨place, htouches.resolve_iff.mpr hplace, find?_insert_self (isAlwaysThere_eq_false hfree)⟩

/-! ### Removing files -/

/-- A removal does nothing, or erases the file at the place of the path. -/
theorem remove_cases (disk : Disk) (path : Path) :
    (disk.remove path = disk ∧ disk.isFile path = false) ∨
    ∃ place bytes, disk.resolve path = .ok place ∧ disk.find? place = some (.file bytes) ∧
      disk.remove path = disk.erase place := by
  unfold remove isFile entry?
  cases hplace : disk.resolve path with
  | error fault => exact .inl ⟨rfl, rfl⟩
  | ok place =>
    cases hentry : disk.find? place with
    | none => exact .inl (by simp [hentry])
    | some entry =>
      cases entry with
      | directory => exact .inl (by simp [hentry])
      | file bytes => exact .inr ⟨place, bytes, rfl, hentry, by simp [hentry]⟩

/-- What is left after a removal was there before. -/
theorem find?_of_find?_remove {entry : Entry}
    (h : (disk.remove path).find? location = some entry) : disk.find? location = some entry := by
  rcases remove_cases disk path with ⟨hsame, -⟩ | ⟨place, bytes, -, hfile, herase⟩
  · rwa [hsame] at h
  · have hthere := isAlwaysThere_of_file hfile
    rw [herase, find?_erase hthere] at h
    split at h
    · cases h
    · exact h

/-- **A file that is removed takes nothing else away.** -/
theorem touches_remove (disk : Disk) (path : Path) : Touches [path] disk (disk.remove path) := by
  rcases remove_cases disk path with ⟨hsame, -⟩ | ⟨place, bytes, hplace, hfile, herase⟩
  · rw [hsame]
    exact .refl _ disk
  · rw [herase]
    have hthere := isAlwaysThere_of_file hfile
    refine ⟨rfl, fun location => ?_, fun location haway => ?_⟩
    · rw [find?_erase hthere]
      split
      · rename_i heq
        subst heq
        simp [hfile]
      · exact Iff.rfl
    · refine find?_erase_ne ?_
      rintro rfl
      exact haway path List.mem_cons_self hplace

theorem isFile_remove (disk : Disk) (path : Path) : (disk.remove path).isFile path = false := by
  rcases remove_cases disk path with ⟨hsame, hfree⟩ | ⟨place, bytes, hplace, hfile, herase⟩
  · rw [hsame, hfree]
  · have hresolve := (touches_remove disk path).resolve_iff.mpr hplace
    have hthere := isAlwaysThere_of_file hfile
    rw [isFile, entry?, hresolve, herase]
    simp [find?_erase hthere]

theorem isFile_of_isFile_remove {other : Path} (h : (disk.remove path).isFile other = true) :
    disk.isFile other = true := by
  obtain ⟨bytes, hread⟩ := isFile_iff.mp h
  obtain ⟨location, hplace, hfile⟩ := read?_eq_some_iff.mp hread
  refine isFile_iff.mpr ⟨bytes, read?_eq_some_iff.mpr ⟨location, ?_, find?_of_find?_remove hfile⟩⟩
  exact (touches_remove disk path).resolve_iff.mp hplace

theorem isFile_of_isFile_foldl_remove {paths : List Path} {other : Path}
    (h : (paths.foldl remove disk).isFile other = true) : disk.isFile other = true := by
  induction paths generalizing disk with
  | nil => exact h
  | cons path paths ih => exact isFile_of_isFile_remove (ih h)

/-- Files that are removed are gone, in whatever order. -/
theorem isFile_foldl_remove {paths : List Path} (h : path ∈ paths) (disk : Disk) :
    (paths.foldl remove disk).isFile path = false := by
  induction paths generalizing disk with
  | nil => cases h
  | cons first paths ih =>
    rcases List.mem_cons.mp h with rfl | h
    · have hgone := isFile_remove disk path
      rw [← Bool.not_eq_true] at hgone ⊢
      exact fun hfile => hgone (isFile_of_isFile_foldl_remove hfile)
    · exact ih h (disk.remove first)

end Disk

end JackSyntax
