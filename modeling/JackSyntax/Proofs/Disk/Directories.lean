import JackSyntax.Proofs.Disk.Touching

/-!
# Disks with the same directories

Where a path leads, and whether a file can be written there, is told by the directories of a disk.
Files do not matter, so two disks that differ in their files only treat every path alike.

## The model

* `Disk.SameDirectories`: directories stand at the same locations of both disks, and both are seen
  from the same one.

## Results

* `SameDirectories.resolve_iff`: a path leads to the same location on both disks.
* `SameDirectories.write?_isSome`: a file can be written on both disks or on neither.
* **`SameDirectories.makeDirectories`**: a directory that is made on both disks, with those around
  it, leaves them with the same directories.
-/

namespace JackSyntax.Disk

/-- The working directory is the same, and directories stand at the same locations. -/
structure SameDirectories (first second : Disk) : Prop where
  here : second.here = first.here
  directory : ∀ location,
    second.find? location = some .directory ↔ first.find? location = some .directory

theorem Touches.sameDirectories {paths : List Path} {before after : Disk}
    (h : Touches paths before after) : SameDirectories before after :=
  ⟨h.here, h.directories⟩

section OneDisk

variable {disk after : Disk} {path : Path}

theorem isDirectory_iff : disk.isDirectory path = true ↔
    ∃ location, disk.resolve path = .ok location ∧ disk.find? location = some .directory := by
  unfold isDirectory entry?
  cases disk.resolve path with
  | error fault => simp
  | ok location =>
    cases hentry : disk.find? location with
    | none => simp [hentry]
    | some entry => cases entry <;> simp [hentry]

/-- Where a file is read there is no directory. -/
theorem isDirectory_ne_of_read? {bytes : ByteArray} (h : disk.read? path = some bytes) :
    ¬ disk.isDirectory path = true := by
  unfold read? at h
  unfold isDirectory
  split at h
  · rename_i hentry
    rw [hentry]
    exact Bool.false_ne_true
  · cases h

theorem isSome_write?_iff {bytes : ByteArray} : (disk.write? path bytes).isSome = true ↔
    ∃ location, disk.resolve path = .ok location ∧ disk.find? location ≠ some .directory := by
  simp only [Option.isSome_iff_exists, write?_eq_some_iff]
  exact ⟨fun ⟨_, location, hplace, hfree, _⟩ => ⟨location, hplace, hfree⟩,
    fun ⟨location, hplace, hfree⟩ => ⟨_, location, hplace, hfree, rfl⟩⟩

/-- Where only files are, no directories stand but those that are always there. -/
theorem find?_eq_directory_iff (h : ∀ entry ∈ disk.entries, entry.2 ≠ .directory)
    {location : Location} :
    disk.find? location = some .directory ↔ disk.isAlwaysThere location = true := by
  unfold find?
  split
  · rename_i hthere
    simp [hthere]
  · rename_i hthere
    refine ⟨fun hlookup => ?_, fun hlocation => absurd hlocation hthere⟩
    obtain ⟨front, back, hentries, -⟩ := List.lookup_eq_some_iff.mp hlookup
    exact absurd rfl (h (location, .directory) (hentries ▸ List.mem_append_cons_self))

theorem find?_insert_directory_iff {changed location : Location}
    (h : disk.find? changed ≠ some .directory) :
    (disk.insert changed .directory).find? location = some .directory ↔
      location = changed ∨ disk.find? location = some .directory := by
  rw [find?_insert (isAlwaysThere_eq_false h)]
  split <;> simp [*]

/-- Making a directory finds it there, or puts it where nothing was. -/
theorem makeDirectory_eq_ok
    (h : makeDirectory path disk = .ok () after) :
    ∃ location, disk.resolve path = .ok location ∧
      (disk.find? location = some .directory ∧ after = disk ∨
        disk.find? location = none ∧ after = disk.insert location .directory) := by
  unfold makeDirectory at h
  cases hplace : disk.resolve path with
  | error fault =>
    rw [hplace] at h
    cases h
  | ok location =>
    refine ⟨location, rfl, ?_⟩
    simp only [hplace] at h
    split at h
    · rename_i hnone
      cases h
      exact .inr ⟨hnone, rfl⟩
    · rename_i hdirectory
      cases h
      exact .inl ⟨hdirectory, rfl⟩
    · cases h

/-- A directory is made at once, or once those around it are made because something on the way is
missing. -/
theorem makeWithin_succ_eq_ok {parts : Nat}
    (h : makeWithin (parts + 1) path disk = .ok () after) :
    makeDirectory path disk = .ok () after ∨
    disk.resolve path = .error .missing ∧
      ∃ around, makeWithin parts path.parent disk = .ok () around ∧
        makeDirectory path around = .ok () after := by
  unfold makeWithin at h
  split at h
  · rename_i place missing hmissing
    refine .inr ?_
    have hunchanged : disk.resolve path = .error .missing ∧ missing = disk := by
      unfold makeDirectory at hmissing
      split at hmissing
      · rename_i fault hfault
        cases hmissing
        exact ⟨hfault, rfl⟩
      · split at hmissing <;> cases hmissing
    obtain ⟨hplace, rfl⟩ := hunchanged
    split at h
    · rename_i around haround
      exact ⟨hplace, around, haround, h⟩
    · cases h
  · exact .inl h

end OneDisk

namespace SameDirectories

variable {first second third : Disk} {path : Path} {location : Location}

theorem symm (h : SameDirectories first second) : SameDirectories second first :=
  ⟨h.here.symm, fun location => (h.directory location).symm⟩

theorem trans (h : SameDirectories first second) (hnext : SameDirectories second third) :
    SameDirectories first third :=
  ⟨hnext.here.trans h.here, fun location => (hnext.directory location).trans (h.directory location)⟩

theorem of_files (hhere : second.here = first.here)
    (hfirst : ∀ entry ∈ first.entries, entry.2 ≠ .directory)
    (hsecond : ∀ entry ∈ second.entries, entry.2 ≠ .directory) : SameDirectories first second := by
  refine ⟨hhere, fun location => ?_⟩
  rw [find?_eq_directory_iff hsecond, find?_eq_directory_iff hfirst, isAlwaysThere, isAlwaysThere,
    hhere]

theorem keeps (h : SameDirectories first second) : KeepsDirectories first second :=
  ⟨h.here, fun location => (h.directory location).mpr⟩

theorem resolve_iff (h : SameDirectories first second) :
    second.resolve path = .ok location ↔ first.resolve path = .ok location :=
  ⟨resolve_mono h.symm.keeps, resolve_mono h.keeps⟩

theorem samePlace_iff {other : Path} (h : SameDirectories first second) :
    second.SamePlace path other ↔ first.SamePlace path other :=
  exists_congr fun _ => and_congr h.resolve_iff h.resolve_iff

theorem isDirectory_eq (h : SameDirectories first second) (path : Path) :
    second.isDirectory path = first.isDirectory path := by
  rw [Bool.eq_iff_iff, isDirectory_iff, isDirectory_iff]
  exact exists_congr fun location => and_congr h.resolve_iff (h.directory location)

/-- Where a path leads, the same stands on both disks when the same is read there. -/
theorem find?_eq_of_read?_eq (h : SameDirectories first second)
    (hplace : first.resolve path = .ok location) (hread : second.read? path = first.read? path) :
    second.find? location = first.find? location := by
  have hfile : ∀ bytes, second.find? location = some (.file bytes) ↔
      first.find? location = some (.file bytes) := by
    intro bytes
    have hbytes : second.read? path = some bytes ↔ first.read? path = some bytes := by rw [hread]
    simpa only [read?_eq_some_iff, h.resolve_iff, hplace, Except.ok.injEq, exists_eq_left']
      using hbytes
  apply Option.ext
  intro entry
  cases entry with
  | file bytes => exact hfile bytes
  | directory => exact h.directory location

/-- **A file can be written on both disks or on neither.** -/
theorem write?_isSome (h : SameDirectories first second) (path : Path) (bytes : ByteArray) :
    (second.write? path bytes).isSome = (first.write? path bytes).isSome := by
  rw [Bool.eq_iff_iff, isSome_write?_iff, isSome_write?_iff]
  exact exists_congr fun location => and_congr h.resolve_iff (not_congr (h.directory location))

theorem write? {bytes : ByteArray} {written written' : Disk} (h : SameDirectories first second)
    (hfirst : first.write? path bytes = some written)
    (hsecond : second.write? path bytes = some written') : SameDirectories written written' :=
  (touches_write hfirst).sameDirectories.symm.trans
    (h.trans (touches_write hsecond).sameDirectories)

theorem makeDirectory {made made' : Disk} (h : SameDirectories first second)
    (hfirst : Disk.makeDirectory path first = .ok () made)
    (hsecond : Disk.makeDirectory path second = .ok () made') : SameDirectories made made' := by
  obtain ⟨place, hplace, hmade⟩ := makeDirectory_eq_ok hfirst
  obtain ⟨other, hother, hmade'⟩ := makeDirectory_eq_ok hsecond
  obtain rfl : place = other := Except.ok.inj ((h.resolve_iff.mpr hplace).symm.trans hother)
  rcases hmade with ⟨hthere, rfl⟩ | ⟨hnone, rfl⟩ <;>
    rcases hmade' with ⟨hthere', rfl⟩ | ⟨hnone', rfl⟩
  · exact h
  · exact absurd ((h.directory place).mpr hthere) (by simp [hnone'])
  · exact absurd ((h.directory place).mp hthere') (by simp [hnone])
  · refine ⟨h.here, fun location => ?_⟩
    rw [find?_insert_directory_iff (by simp [hnone']), find?_insert_directory_iff (by simp [hnone]),
      h.directory location]

/-- A path that leads somewhere on one disk misses nothing on the other. -/
theorem resolve_ne_missing (h : SameDirectories first second)
    (hplace : first.resolve path = .ok location) : second.resolve path ≠ .error .missing := by
  rw [h.resolve_iff.mpr hplace]
  exact nofun

theorem makeWithin : ∀ {parts : Nat} {path : Path} {first second made made' : Disk},
      SameDirectories first second → Disk.makeWithin parts path first = .ok () made →
      Disk.makeWithin parts path second = .ok () made' → SameDirectories made made'
  | 0, _, _, _, _, _, h, hfirst, hsecond => h.makeDirectory hfirst hsecond
  | parts + 1, path, first, second, made, made', h, hfirst, hsecond => by
    rcases makeWithin_succ_eq_ok hfirst with hfirst | ⟨hmissing, around, haround, hfirst⟩ <;>
      rcases makeWithin_succ_eq_ok hsecond with hsecond | ⟨hmissing', around', haround', hsecond⟩
    · exact h.makeDirectory hfirst hsecond
    · obtain ⟨location, hplace, -⟩ := makeDirectory_eq_ok hfirst
      exact absurd hmissing' (h.resolve_ne_missing hplace)
    · obtain ⟨location, hplace, -⟩ := makeDirectory_eq_ok hsecond
      exact absurd hmissing (h.symm.resolve_ne_missing hplace)
    · exact (makeWithin h haround haround').makeDirectory hfirst hsecond

/-- **A directory that is made on both disks**, with those around it, leaves them with the same
directories. -/
theorem makeDirectories {made made' : Disk} (h : SameDirectories first second)
    (hfirst : Disk.makeDirectories path first = .ok () made)
    (hsecond : Disk.makeDirectories path second = .ok () made') : SameDirectories made made' :=
  h.makeWithin hfirst hsecond

end SameDirectories

end JackSyntax.Disk
