import JackSyntax.Proofs.Disk.Directories

/-!
# Making a directory and those around it

A directory is made together with the directories that are missing on the way to it. Nothing else
changes, a directory that is there is not made again, and only a file can be in the way.

## The model

* `Path.IsAround outer path`: the first path is a beginning of the second, or all of it.
* `Disk.Makes path before after`: what is new on the second disk are directories, each at a path
  around the given one.
* `Disk.Blocked disk path`: a file stands on the way to the path, or where it leads.

## Results

* **`makes_makeDirectories`**, `isDirectory_of_makeDirectories`: what making a directory has done.
* `makeDirectories_of_isDirectory`: a directory that is there is left as it is.
* **`makeDirectories_eq_error`**: why a directory cannot be made; `not_blocked_of_makeDirectories`
  is the converse.
-/

namespace JackSyntax

/-- The path leads to a directory on the way of the other, or is the other. -/
def Path.IsAround (outer path : Path) : Prop :=
  outer.root = path.root ∧ outer.parts <+: path.parts

theorem Path.IsAround.refl (path : Path) : path.IsAround path :=
  ⟨rfl, List.prefix_rfl⟩

theorem Path.IsAround.of_parent {outer path : Path} (h : outer.IsAround path.parent) :
    outer.IsAround path :=
  ⟨h.1, h.2.trans (List.dropLast_prefix path.parts)⟩

namespace Disk

variable {disk before middle after : Disk} {path outer : Path} {start location : Location}
  {parts : List String} {fault : DiskFault}

/-! ## What is made -/

/-- What is new on the second disk are directories, each at a path around the given one. -/
structure Makes (path : Path) (before after : Disk) : Prop where
  here : after.here = before.here
  location : ∀ location, after.find? location = before.find? location ∨
    before.find? location = none ∧ after.find? location = some .directory ∧
      ∃ outer, outer.IsAround path ∧ after.resolve outer = .ok location

namespace Makes

theorem refl (path : Path) (disk : Disk) : Makes path disk disk :=
  ⟨rfl, fun _ => .inl rfl⟩

theorem toExtends (h : Makes path before after) : Extends before after := by
  refine ⟨h.here, fun location entry hentry => ?_⟩
  rcases h.location location with hsame | ⟨hnone, -⟩
  · rw [hsame, hentry]
  · rw [hnone] at hentry
    cases hentry

/-- Files are never new. -/
theorem file {bytes : ByteArray} (h : Makes path before after)
    (hfile : after.find? location = some (.file bytes)) :
    before.find? location = some (.file bytes) := by
  rcases h.location location with hsame | ⟨-, hmade, -⟩
  · rwa [← hsame]
  · rw [hmade] at hfile
    cases hfile

/-- What is read at a path that could be followed before stays as it was. -/
theorem read?_eq {other : Path} (h : Makes path before after)
    (hplace : before.resolve other = .ok location) : after.read? other = before.read? other := by
  apply Option.ext
  intro bytes
  refine ⟨fun hread => ?_, h.toExtends.read?⟩
  obtain ⟨place, hfound, hfile⟩ := read?_eq_some_iff.mp hread
  obtain rfl : place = location := Except.ok.inj (hfound.symm.trans (h.toExtends.resolve hplace))
  exact read?_eq_some_iff.mpr ⟨place, hplace, h.file hfile⟩

theorem of_parent (h : Makes path.parent before after) : Makes path before after := by
  refine ⟨h.here, fun location => ?_⟩
  rcases h.location location with hsame | ⟨hnone, hmade, outer, haround, hplace⟩
  · exact .inl hsame
  · exact .inr ⟨hnone, hmade, outer, haround.of_parent, hplace⟩

theorem trans (first : Makes path before middle) (second : Makes path middle after) :
    Makes path before after := by
  refine ⟨second.here.trans first.here, fun location => ?_⟩
  rcases second.location location with hsame | ⟨hnone, hmade, hplace⟩
  · rcases first.location location with hsame' | ⟨hnone, hmade, outer, haround, hplace⟩
    · exact .inl (hsame.trans hsame')
    · exact .inr ⟨hnone, hsame.trans hmade, outer, haround, second.toExtends.resolve hplace⟩
  · rcases first.location location with hsame | ⟨-, hmade', -⟩
    · exact .inr ⟨hsame.symm.trans hnone, hmade, hplace⟩
    · rw [hmade'] at hnone
      cases hnone

end Makes

theorem makes_makeDirectory (h : makeDirectory path disk = .ok () after) :
    Makes path disk after := by
  have hextends := extends_makeDirectory path disk
  rw [h] at hextends
  obtain ⟨place, hplace, ⟨-, rfl⟩ | ⟨hnone, rfl⟩⟩ := makeDirectory_eq_ok h
  · exact .refl path after
  · refine ⟨rfl, fun location => ?_⟩
    have hfree : disk.find? place ≠ some .directory := by simp [hnone]
    rw [find?_insert (isAlwaysThere_eq_false hfree)]
    split
    · rename_i heq
      rw [heq]
      exact .inr ⟨hnone, rfl, path, .refl path, hextends.resolve hplace⟩
    · exact .inl rfl

theorem isDirectory_of_makeDirectory (h : makeDirectory path disk = .ok () after) :
    after.isDirectory path = true := by
  have hextends := extends_makeDirectory path disk
  rw [h] at hextends
  obtain ⟨place, hplace, ⟨hthere, rfl⟩ | ⟨hnone, rfl⟩⟩ := makeDirectory_eq_ok h
  · exact isDirectory_iff.mpr ⟨place, hplace, hthere⟩
  · have hfree : disk.find? place ≠ some .directory := by simp [hnone]
    exact isDirectory_iff.mpr
      ⟨place, hextends.resolve hplace, find?_insert_self (isAlwaysThere_eq_false hfree)⟩

theorem makes_makeWithin : ∀ {parts : Nat} {path : Path} {disk after : Disk},
    makeWithin parts path disk = .ok () after → Makes path disk after
  | 0, _, _, _, h => makes_makeDirectory h
  | parts + 1, path, disk, after, h => by
    rcases makeWithin_succ_eq_ok h with h | ⟨-, around, haround, h⟩
    · exact makes_makeDirectory h
    · exact (makes_makeWithin haround).of_parent.trans (makes_makeDirectory h)

/-- **What is new are directories on the way** of the one that is made. -/
theorem makes_makeDirectories (h : makeDirectories path disk = .ok () after) :
    Makes path disk after :=
  makes_makeWithin h

theorem isDirectory_of_makeWithin {parts : Nat} (h : makeWithin parts path disk = .ok () after) :
    after.isDirectory path = true := by
  cases parts with
  | zero => exact isDirectory_of_makeDirectory h
  | succ parts =>
    rcases makeWithin_succ_eq_ok h with h | ⟨-, around, -, h⟩
    · exact isDirectory_of_makeDirectory h
    · exact isDirectory_of_makeDirectory h

/-- A directory is there once it is made. -/
theorem isDirectory_of_makeDirectories (h : makeDirectories path disk = .ok () after) :
    after.isDirectory path = true :=
  isDirectory_of_makeWithin h

/-- A directory that is there is left as it is. -/
theorem makeDirectories_of_isDirectory (h : disk.isDirectory path = true) :
    makeDirectories path disk = .ok () disk := by
  obtain ⟨place, hplace, hthere⟩ := isDirectory_iff.mp h
  have hmake : makeDirectory path disk = .ok () disk := by
    simp only [makeDirectory, hplace, hthere]
  unfold makeDirectories
  cases path.parts.length with
  | zero => exact hmake
  | succ parts => simp only [makeWithin, hmake]

/-! ## What is in the way -/

/-- A file stands on the way to the path, or where it leads. -/
def Blocked (disk : Disk) (path : Path) : Prop :=
  ∃ outer bytes, outer.IsAround path ∧ disk.find? (disk.locate outer) = some (.file bytes)

/-- Where a path would lead is told by the working directory alone. -/
theorem locate_congr (h : after.here = before.here) : after.locate path = before.locate path := by
  rw [locate, locate, start, start, h]

theorem Blocked.of_parent (h : Blocked disk path.parent) : Blocked disk path := by
  obtain ⟨outer, bytes, haround, hfile⟩ := h
  exact ⟨outer, bytes, haround.of_parent, hfile⟩

theorem eq_foldl_of_resolveFrom (h : disk.resolveFrom start parts = .ok location) :
    location = parts.foldl follow start := by
  induction parts generalizing start with
  | nil => exact (Except.ok.inj h).symm
  | cons part parts ih =>
    simp only [resolveFrom] at h
    split at h
    · exact ih h
    · cases h
    · cases h

/-- A path that can be followed leads where it leads when nothing is missing. -/
theorem eq_locate_of_resolve (h : disk.resolve path = .ok location) :
    location = disk.locate path :=
  eq_foldl_of_resolveFrom h

/-- A path that cannot be followed although nothing is missing has a file on the way. -/
theorem exists_file_of_resolveFrom (h : disk.resolveFrom start parts = .error fault)
    (hmissing : fault ≠ .missing) :
    fault = .notDirectory ∧ ∃ front bytes, front <+: parts ∧
      disk.find? (front.foldl follow start) = some (.file bytes) := by
  induction parts generalizing start with
  | nil => cases h
  | cons part parts ih =>
    simp only [resolveFrom] at h
    split at h
    · obtain ⟨hfault, front, bytes, hfront, hfile⟩ := ih h
      exact ⟨hfault, part :: front, bytes, List.cons_prefix_cons.mpr ⟨rfl, hfront⟩, hfile⟩
    · rename_i bytes hfile
      cases h
      exact ⟨rfl, [], bytes, List.nil_prefix, hfile⟩
    · cases h
      exact absurd rfl hmissing

theorem blocked_of_resolve (h : disk.resolve path = .error fault) (hmissing : fault ≠ .missing) :
    fault = .notDirectory ∧ Blocked disk path := by
  obtain ⟨hfault, front, bytes, hfront, hfile⟩ := exists_file_of_resolveFrom h hmissing
  exact ⟨hfault, ⟨path.root, front⟩, bytes, ⟨rfl, hfront⟩, hfile⟩

/-- One directory cannot be made where its path leads nowhere, or to a file. -/
theorem makeDirectory_eq_error {told : Path}
    (h : makeDirectory path disk = .error (fault, told) after) :
    after = disk ∧ (disk.resolve path = .error fault ∨
      fault = .exists ∧ ∃ bytes, disk.find? (disk.locate path) = some (.file bytes)) := by
  unfold makeDirectory at h
  split at h
  · rename_i found hfound
    cases h
    exact ⟨rfl, .inl hfound⟩
  · rename_i place hplace
    split at h
    · cases h
    · cases h
    · rename_i bytes hfile
      cases h
      rw [eq_locate_of_resolve hplace] at hfile
      exact ⟨rfl, .inr ⟨rfl, bytes, hfile⟩⟩

theorem blocked_of_makeDirectory {told : Path}
    (h : makeDirectory path disk = .error (fault, told) after) (hmissing : fault ≠ .missing) :
    (fault = .exists ∨ fault = .notDirectory) ∧ Blocked disk path := by
  rcases (makeDirectory_eq_error h).2 with hplace | ⟨hfault, bytes, hfile⟩
  · obtain ⟨hfault, hblocked⟩ := blocked_of_resolve hplace hmissing
    exact ⟨.inr hfault, hblocked⟩
  · exact ⟨.inl hfault, path, bytes, .refl path, hfile⟩

/-- A path without parts leads to a directory that is always there. -/
theorem isDirectory_of_parts_nil (h : path.parts = []) : disk.isDirectory path = true := by
  refine isDirectory_iff.mpr ⟨disk.start path, by rw [resolve, h]; rfl, ?_⟩
  rw [find?, if_pos]
  unfold isAlwaysThere start
  split
  · exact List.isPrefixOf_iff_prefix.mpr List.prefix_rfl
  · rfl

/-- Inside a directory nothing is missing on the way. -/
theorem resolve_ne_error_of_isDirectory_parent (h : disk.isDirectory path.parent = true) :
    disk.resolve path ≠ .error fault := by
  obtain ⟨around, haround, hthere⟩ := isDirectory_iff.mp h
  have hplace : ∃ location, disk.resolve path = .ok location := by
    rcases List.eq_nil_or_concat path.parts with hnil | ⟨front, last, hconcat⟩
    · exact ⟨_, by rw [resolve, hnil, resolveFrom]⟩
    · have hparts : path.parts = path.parent.parts ++ [last] := by simp [Path.parent, hconcat]
      refine ⟨follow around last, ?_⟩
      rw [resolve, hparts]
      refine resolveFrom_append.mpr ⟨around, haround, ?_⟩
      simp only [resolveFrom, hthere]
  obtain ⟨location, hplace⟩ := hplace
  intro herror
  cases hplace.symm.trans herror

theorem makeWithin_eq_error : ∀ {parts : Nat} {path told : Path} {disk after : Disk},
    path.parts.length = parts → makeWithin parts path disk = .error (fault, told) after →
    (fault = .exists ∨ fault = .notDirectory) ∧ Blocked disk path
  | 0, path, told, disk, after, hlength, h => by
    have hthere : disk.isDirectory path = true :=
      isDirectory_of_parts_nil (List.length_eq_zero_iff.mp hlength)
    have hmade := makeDirectories_of_isDirectory hthere
    rw [makeDirectories, hlength, h] at hmade
    cases hmade
  | parts + 1, path, told, disk, after, hlength, h => by
    unfold makeWithin at h
    split at h
    · rename_i place missing hmissing
      obtain rfl := (makeDirectory_eq_error hmissing).1
      split at h
      · rename_i around hmade
        -- the directory around is there now, so that only a file can be in the way
        have hparent := isDirectory_of_makeWithin hmade
        rcases (makeDirectory_eq_error h).2 with hplace | ⟨hfault, bytes, hfile⟩
        · exact absurd hplace (resolve_ne_error_of_isDirectory_parent hparent)
        · have hmakes := makes_makeWithin hmade
          rw [locate_congr hmakes.here] at hfile
          exact ⟨.inl hfault, path, bytes, .refl path, hmakes.file hfile⟩
      · rename_i failure around herror
        cases h
        have hparent : path.parent.parts.length = parts := by
          rw [Path.parent, List.length_dropLast, hlength, Nat.add_sub_cancel]
        obtain ⟨hfault, hblocked⟩ := makeWithin_eq_error hparent herror
        exact ⟨hfault, hblocked.of_parent⟩
    · rename_i hother
      refine blocked_of_makeDirectory h ?_
      rintro rfl
      exact hother _ _ h

/-- **Only a file is in the way** of a directory that is made together with those around it. -/
theorem makeDirectories_eq_error {told : Path}
    (h : makeDirectories path disk = .error (fault, told) after) :
    (fault = .exists ∨ fault = .notDirectory) ∧ Blocked disk path :=
  makeWithin_eq_error rfl h

/-- Nothing was in the way of a directory that is made. -/
theorem not_blocked_of_makeDirectories (h : makeDirectories path disk = .ok () after) :
    ¬ Blocked disk path := by
  rintro ⟨outer, bytes, ⟨hroot, more, hparts⟩, hfile⟩
  obtain ⟨location, hplace, hthere⟩ := isDirectory_iff.mp (isDirectory_of_makeDirectories h)
  rw [resolve, ← hparts] at hplace
  obtain ⟨around, haround, hmore⟩ := resolveFrom_append.mp hplace
  have hdirectory : after.find? around = some .directory := by
    cases more with
    | nil =>
      obtain rfl := Except.ok.inj hmore
      exact hthere
    | cons part more =>
      simp only [resolveFrom] at hmore
      split at hmore
      · assumption
      · cases hmore
      · cases hmore
  have hextends := (makes_makeDirectories h).toExtends
  have hsame : around = disk.locate outer := by
    rw [eq_foldl_of_resolveFrom haround, locate, start, start, hroot, hextends.here]
  rw [hsame, hextends.entry _ _ hfile] at hdirectory
  cases hdirectory

end Disk

end JackSyntax
