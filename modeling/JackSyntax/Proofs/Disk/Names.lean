import Mathlib.Data.List.Nodup
import JackSyntax.Proofs.Disk.Touching

/-!
# Names in a directory

A path that ends in a plain name leads into the directory of the path before it, to the place of
that name. So different names never lead to one place, whatever directories they are in.

## The model

* `Disk.WellNamed`: no name on the disk has a slash in it.

## Results

* `Path.join_eq_child`: a text without a slash is one more part of a path.
* `resolve_child_iff`: where a path leads that ends in a name.
* **`not_samePlace_child`**: different names lead to different places.
* `resolve_absolute`, `resolve_around`: the working directory under its absolute path, and as seen
  from the directory around it.
* **`names_ordered`**: the names in a directory are listed in order, each once.
-/

namespace JackSyntax

namespace Path

/-! ## Parts of a path -/

theorem split_eq_singleton {text : List Char} (h : '/' ∉ text) : split text = [text] := by
  induction text with
  | nil => rfl
  | cons c text ih =>
    have hc : c ≠ '/' := (List.ne_of_not_mem_cons h).symm
    rw [split, if_neg hc, ih (List.not_mem_of_not_mem_cons h)]

theorem slash_not_mem_of_mem_split {text piece : List Char} (h : piece ∈ split text) :
    '/' ∉ piece := by
  induction text generalizing piece with
  | nil =>
    rw [List.mem_singleton.mp h]
    exact List.not_mem_nil
  | cons c text ih =>
    unfold split at h
    split at h
    · rcases List.mem_cons.mp h with rfl | h
      · exact List.not_mem_nil
      · exact ih h
    · rename_i hc
      split at h
      · rw [List.mem_singleton.mp h]
        exact List.not_mem_cons_of_ne_of_not_mem (Ne.symm hc) List.not_mem_nil
      · rename_i first pieces hsplit
        rw [hsplit] at ih
        rcases List.mem_cons.mp h with rfl | h
        · exact List.not_mem_cons_of_ne_of_not_mem (Ne.symm hc) (ih List.mem_cons_self)
        · exact ih (List.mem_cons_of_mem first h)

/-- No part of a path that was read has a slash in it. -/
theorem slash_not_mem_name (text : String) : '/' ∉ (ofString text).name.toList := by
  unfold name
  cases hlast : (ofString text).parts.getLast? with
  | none => exact List.not_mem_nil
  | some part =>
    have hpart := List.mem_of_getLast? hlast
    obtain ⟨piece, hpiece, rfl⟩ := List.mem_map.mp (List.mem_filter.mp hpart).1
    rw [Option.getD_some, String.toList_ofList]
    exact slash_not_mem_of_mem_split hpiece

/-- A text without a slash is one more part of a path. -/
theorem join_eq_child {path : Path} {text : String} (hslash : '/' ∉ text.toList) (hsome : text ≠ "")
    (hdot : text ≠ ".") : path.join text = path.child text := by
  have hroot : rootOf text.toList = 0 := by
    rw [rootOf]
    cases htext : text.toList with
    | nil => rfl
    | cons c rest =>
      have hc : c ≠ '/' := by
        rintro rfl
        exact hslash (htext ▸ List.mem_cons_self)
      simp [hc]
  simp [join, ofString, child, hroot, split_eq_singleton hslash, hsome, hdot]

theorem parent_child_name {path : Path} (h : path.name ≠ "") :
    path.parent.child path.name = path := by
  obtain ⟨root, parts⟩ := path
  unfold name at h
  cases hlast : parts.getLast? with
  | none =>
    rw [hlast] at h
    exact absurd rfl h
  | some last =>
    simp only [child, parent, name, hlast, Option.getD_some,
      List.dropLast_append_getLast? last hlast]

@[simp] theorem name_child (path : Path) (name : String) : (path.child name).name = name := by
  simp [Path.name, child]

@[simp] theorem parent_child (path : Path) (name : String) : (path.child name).parent = path := by
  simp [parent, child]

/-! ## NULs in paths -/

section Nul

variable {path : Path} {text : String}

theorem hasNul_eq_false_iff :
    path.hasNul = false ↔ ∀ part ∈ path.parts, Char.ofNat 0 ∉ part.toList := by
  simp [hasNul]

theorem mem_of_mem_split {c : Char} {text piece : List Char} (hpiece : piece ∈ split text)
    (h : c ∈ piece) : c ∈ text := by
  induction text generalizing piece with
  | nil =>
    rw [List.mem_singleton.mp hpiece] at h
    exact h
  | cons first text ih =>
    unfold split at hpiece
    split at hpiece
    · rcases List.mem_cons.mp hpiece with rfl | hpiece
      · exact absurd h List.not_mem_nil
      · exact List.mem_cons_of_mem first (ih hpiece h)
    · split at hpiece
      · rw [List.mem_singleton.mp hpiece] at h
        exact List.mem_cons.mpr (.inl (List.mem_singleton.mp h))
      · rename_i front pieces hsplit
        rw [hsplit] at ih
        rcases List.mem_cons.mp hpiece with rfl | hpiece
        · rcases List.mem_cons.mp h with rfl | h
          · exact List.mem_cons_self
          · exact List.mem_cons_of_mem first (ih List.mem_cons_self h)
        · exact List.mem_cons_of_mem first (ih (List.mem_cons_of_mem front hpiece) h)

/-- A path that is read from a text without a NUL has none. -/
theorem hasNul_ofString (h : Char.ofNat 0 ∉ text.toList) : (ofString text).hasNul = false := by
  refine hasNul_eq_false_iff.mpr fun part hpart hmem => h ?_
  obtain ⟨piece, hpiece, rfl⟩ := List.mem_map.mp (List.mem_filter.mp hpart).1
  rw [String.toList_ofList] at hmem
  exact mem_of_mem_split hpiece hmem

theorem hasNul_join (hpath : path.hasNul = false) (h : Char.ofNat 0 ∉ text.toList) :
    (path.join text).hasNul = false := by
  have hother := hasNul_eq_false_iff.mp (hasNul_ofString h)
  unfold join
  simp only
  split
  · refine hasNul_eq_false_iff.mpr (List.forall_mem_append.mpr ?_)
    exact ⟨hasNul_eq_false_iff.mp hpath, hother⟩
  · exact hasNul_eq_false_iff.mpr hother

theorem hasNul_parent (h : path.hasNul = false) : path.parent.hasNul = false :=
  hasNul_eq_false_iff.mpr fun part hpart =>
    hasNul_eq_false_iff.mp h part (List.dropLast_subset path.parts hpart)

theorem nul_not_mem_name (h : path.hasNul = false) : Char.ofNat 0 ∉ path.name.toList := by
  unfold name
  cases hlast : path.parts.getLast? with
  | none => exact List.not_mem_nil
  | some part => exact hasNul_eq_false_iff.mp h part (List.mem_of_getLast? hlast)

end Nul

theorem mem_name_of_mem_stem {path : Path} {c : Char} (h : c ∈ path.stem.toList) :
    c ∈ path.name.toList := by
  rw [← path.stem_append_suffix, String.toList_append]
  exact List.mem_append_left _ h

end Path

namespace Disk

variable {disk : Disk} {path : Path} {name : String} {location : Location}

/-! ## Where names lead -/

theorem resolveFrom_append_singleton {start : Location} {parts : List String} {part : String} :
    disk.resolveFrom start (parts ++ [part]) = .ok location ↔
      ∃ around, disk.resolveFrom start parts = .ok around ∧
        disk.find? around = some .directory ∧ location = follow around part := by
  rw [resolveFrom_append]
  refine exists_congr fun around => and_congr_right fun _ => ?_
  simp only [resolveFrom]
  cases disk.find? around with
  | none => simp
  | some entry => cases entry <;> simp [eq_comm]

theorem follow_of_ne (hname : name ≠ "..") : follow location name = location ++ [name] := by
  rw [follow, if_neg (mt beq_iff_eq.mp hname)]

/-- A path that ends in a name leads into the directory of the path before it. -/
theorem resolve_child_iff (hname : name ≠ "..") :
    disk.resolve (path.child name) = .ok location ↔
      ∃ around, disk.resolve path = .ok around ∧ disk.find? around = some .directory ∧
        location = around ++ [name] := by
  have hstart : disk.start (path.child name) = disk.start path := rfl
  rw [resolve, hstart, Path.child, resolveFrom_append_singleton]
  simp only [follow_of_ne hname, resolve]

/-- **Different names lead to different places**, whatever directories they are in. -/
theorem not_samePlace_child {first second : Path} {name other : String} (hname : name ≠ "..")
    (hother : other ≠ "..") (h : name ≠ other) :
    ¬ disk.SamePlace (first.child name) (second.child other) := by
  rintro ⟨location, hfirst, hsecond⟩
  obtain ⟨around, -, -, rfl⟩ := (resolve_child_iff hname).mp hfirst
  obtain ⟨beside, -, -, hplace⟩ := (resolve_child_iff hother).mp hsecond
  exact h (List.append_inj_right' hplace rfl |> List.singleton_inj.mp)

/-! ## The working directory under other names -/

theorem find?_of_prefix (h : location <+: disk.here) : disk.find? location = some .directory := by
  rw [find?, isAlwaysThere, List.isPrefixOf_iff_prefix.mpr h, if_pos rfl]

/-- The names on the way to the working directory are followed one after the other. -/
theorem resolveFrom_of_prefix {front parts : List String} (hplain : ".." ∉ front)
    (h : location ++ front <+: disk.here) :
    disk.resolveFrom location (front ++ parts) = disk.resolveFrom (location ++ front) parts := by
  induction front generalizing location with
  | nil => rw [List.nil_append, List.append_nil]
  | cons first rest ih =>
    have hthere : disk.find? location = some .directory :=
      find?_of_prefix ((List.prefix_append _ _).trans h)
    have hfollow : follow location first = location ++ [first] :=
      follow_of_ne (List.ne_of_not_mem_cons hplain).symm
    have hrest : location ++ [first] ++ rest = location ++ first :: rest := List.append_assoc _ _ _
    rw [List.cons_append, resolveFrom, hthere]
    simp only [hfollow]
    rw [ih (List.not_mem_of_not_mem_cons hplain) (hrest ▸ h), hrest]

/-- **The absolute path of the working directory** leads where it is itself. -/
theorem resolve_absolute {root : Nat} {parts : List String} (hroot : root ≠ 0)
    (hplain : ".." ∉ disk.here) :
    disk.resolve ⟨root, disk.here ++ parts⟩ = disk.resolve ⟨0, parts⟩ := by
  rw [resolve, resolve, start, start, if_neg hroot, if_pos rfl]
  exact resolveFrom_of_prefix hplain (List.prefix_refl _)

/-- **Leaving the working directory and coming back** leads nowhere else. -/
theorem resolve_around {around : Location} {parts : List String}
    (hhere : disk.here = around ++ [name]) (hname : name ≠ "..") :
    disk.resolve ⟨0, ".." :: name :: parts⟩ = disk.resolve ⟨0, parts⟩ := by
  have haround : around <+: disk.here := hhere ▸ List.prefix_append around [name]
  have hleave : follow disk.here ".." = around := by
    rw [follow, if_pos (beq_self_eq_true _), hhere, List.dropLast_concat]
  have hreturn : follow around name = disk.here := by rw [follow_of_ne hname, hhere]
  have hstart : ∀ parts, disk.start ⟨0, parts⟩ = disk.here := fun _ => rfl
  rw [resolve, resolve, hstart, hstart, resolveFrom, find?_of_prefix (List.prefix_refl _)]
  simp only [hleave]
  rw [resolveFrom, find?_of_prefix haround]
  simp only [hreturn]

/-- Three paths to one place. -/
example : ({ here := ["w"] } : Disk).SamePlace ⟨0, ["a"]⟩ ⟨0, ["..", "w", "a"]⟩ ∧
    ({ here := ["w"] } : Disk).SamePlace ⟨0, ["a"]⟩ ⟨1, ["w", "a"]⟩ :=
  ⟨⟨["w", "a"], rfl, rfl⟩, ["w", "a"], rfl, rfl⟩

/-! ## The names in a directory -/

/-- No name on the disk has a slash in it: a slash only ever stands between two names. -/
def WellNamed (disk : Disk) : Prop :=
  ∀ entry ∈ disk.entries, ∀ name, entry.1.getLast? = some name → '/' ∉ name.toList

instance decidableWellNamed (disk : Disk) : Decidable disk.WellNamed :=
  inferInstanceAs (Decidable
    (∀ entry ∈ disk.entries, ∀ name ∈ entry.1.getLast?, '/' ∉ name.toList))

/-- The name at a location, when it is directly inside a directory. -/
def nameIn? (location entry : Location) : Option String :=
  match entry.getLast? with
  | some name => if entry.dropLast == location then some name else none
  | none => none

theorem nameIn?_eq_some_iff {entry : Location} :
    nameIn? location entry = some name ↔ entry = location ++ [name] := by
  unfold nameIn?
  cases hlast : entry.getLast? with
  | none => simp [List.getLast?_eq_none_iff.mp hlast]
  | some last =>
    obtain ⟨around, rfl⟩ := List.getLast?_eq_some_iff.mp hlast
    simp [List.append_singleton_inj]

theorem names_perm (disk : Disk) (location : Location) :
    (disk.names location).Perm ((disk.entries.map (·.1)).filterMap (nameIn? location)) := by
  rw [List.filterMap_map]
  exact List.mergeSort_perm _ _

theorem mem_names_iff :
    name ∈ disk.names location ↔ location ++ [name] ∈ disk.entries.map (·.1) := by
  rw [(names_perm disk location).mem_iff, List.mem_filterMap]
  simp only [nameIn?_eq_some_iff, exists_eq_right]

/-- The file at a name in a directory. -/
theorem read?_child_iff {bytes : ByteArray} (hname : name ≠ "..")
    (hplace : disk.resolve path = .ok location) (hthere : disk.find? location = some .directory) :
    disk.read? (path.child name) = some bytes ↔
      disk.find? (location ++ [name]) = some (.file bytes) := by
  rw [read?_eq_some_iff]
  constructor
  · rintro ⟨place, hchild, hbytes⟩
    obtain ⟨around, haround, -, rfl⟩ := (resolve_child_iff hname).mp hchild
    rwa [Except.ok.inj (hplace.symm.trans haround)]
  · exact fun hbytes =>
      ⟨_, (resolve_child_iff hname).mpr ⟨location, hplace, hthere, rfl⟩, hbytes⟩

/-- A file in a directory is listed there. -/
theorem mem_names_of_find? {bytes : ByteArray}
    (h : disk.find? (location ++ [name]) = some (.file bytes)) : name ∈ disk.names location := by
  have hthere := isAlwaysThere_of_file h
  rw [find?, if_neg (by simp [hthere])] at h
  obtain ⟨front, back, hentries, -⟩ := List.lookup_eq_some_iff.mp h
  rw [mem_names_iff, hentries]
  simp

theorem names_nodup (disk : Disk) (location : Location) : (disk.names location).Nodup := by
  rw [(names_perm disk location).nodup_iff]
  refine List.Nodup.filterMap (fun first second name hfirst hsecond => ?_) disk.distinct
  rw [nameIn?_eq_some_iff.mp hfirst, nameIn?_eq_some_iff.mp hsecond]

/-- **The names in a directory are listed in order**, each once. -/
theorem names_ordered (disk : Disk) (location : Location) :
    (disk.names location).Pairwise (· < ·) := by
  have hsorted : (disk.names location).Pairwise
      fun first second => (!decide (second < first)) = true := by
    refine List.pairwise_mergeSort (fun first second third hfirst hsecond => ?_)
      (fun first second => ?_) _
    · rw [Bool.not_eq_true', decide_eq_false_iff_not, String.not_lt] at hfirst hsecond ⊢
      exact String.le_trans hfirst hsecond
    · rw [Bool.or_eq_true, Bool.not_eq_true', Bool.not_eq_true', decide_eq_false_iff_not,
        decide_eq_false_iff_not, String.not_lt, String.not_lt]
      exact String.le_total first second
  refine (hsorted.and (names_nodup disk location)).imp fun {first second} ⟨hle, hne⟩ => ?_
  rw [Bool.not_eq_true', decide_eq_false_iff_not, String.not_lt] at hle
  exact String.not_le.mp fun hge => hne (String.le_antisymm hle hge)

/-- Names that stand in order already are listed as they stand. -/
theorem names_eq_of_ordered {listed : List String}
    (h : (disk.entries.map (·.1)).filterMap (nameIn? location) = listed)
    (hordered : listed.Pairwise (· < ·)) : disk.names location = listed := by
  refine List.Perm.eq_of_pairwise (fun first second _ _ hlt hgt => ?_)
    (disk.names_ordered location) hordered (h ▸ disk.names_perm location)
  exact absurd hgt (String.lt_asymm hlt)

end Disk

end JackSyntax
