import JackSyntax.Batch
import JackSyntax.CommandLine
import JackSyntax.Proofs.Disk.Directories
import JackSyntax.Proofs.Disk.Names

/-!
# The sources of a batch and the names of their documents

The sources of a batch stand in one directory, in the order of their names, and their documents in
one directory too. So what one source can do to another is told by the names alone.

## The model

* `Collected settings disk sources`: the sources are files with the ending of sources, directly
  inside one directory, in the order of their names.

## Results

* **`collected_of_collectSources`**: what is collected from a path.
* `output_eq_child`: a document is named for its source, in the directory of the documents.
* `not_samePlace_output`, `not_samePlace_source`: documents of different names never meet, and no
  document stands in the place of a source.
* **`mem_collectSources_iff`**: which files are the sources of a directory;
  **`collectSources_of_read?_eq`**: the same sources are collected again.
* **`stem_ne_of_lt`**: the listing of a source is not named like the tree of an earlier one.
-/

namespace JackSyntax.Batch

/-! ## The sources -/

/-- The sources are files with the ending of sources, directly inside one directory, in the order of
their names. -/
structure Collected (settings : Settings) (disk : Disk) (sources : List Path) : Prop where
  file : ∀ source ∈ sources, disk.isFile source = true
  ending : ∀ source ∈ sources, source.suffix = settings.sourceSuffix
  plain : ∀ source ∈ sources, '/' ∉ source.name.toList
  beside : ∀ source ∈ sources, ∀ other ∈ sources, source.parent = other.parent
  ordered : sources.Pairwise fun first second => first.name < second.name

theorem slash_not_mem_of_mem_names {disk : Disk} (h : disk.WellNamed) {location : Location}
    {name : String} (hname : name ∈ disk.names location) : '/' ∉ name.toList := by
  obtain ⟨entry, hentry, hlocation⟩ := List.mem_map.mp (Disk.mem_names_iff.mp hname)
  refine h entry hentry name ?_
  rw [hlocation, List.getLast?_concat]

/-- The sources of a path are collected in the order of their names. -/
theorem ordered_of_collectSources {settings : Settings} {disk : Disk} {path : Path}
    {sources : List Path} (h : collectSources settings disk path = .ok sources) :
    sources.Pairwise fun first second => first.name < second.name := by
  unfold collectSources at h
  split at h
  · obtain rfl := Except.ok.inj h
    unfold Disk.list
    split
    · exact .nil
    · rename_i location _
      refine .filter _ (List.pairwise_map.mpr ?_)
      simp only [Path.name_child]
      exact disk.names_ordered location
  · split at h
    · split at h
      · obtain rfl := Except.ok.inj h
        exact List.pairwise_singleton _ _
      · cases h
    · cases h

/-- Whatever is collected is a source. -/
theorem isSource_of_mem_collectSources {settings : Settings} {disk : Disk} {path source : Path}
    {sources : List Path} (h : collectSources settings disk path = .ok sources)
    (hsource : source ∈ sources) : isSource settings disk source = true := by
  unfold collectSources at h
  split at h
  · obtain rfl := Except.ok.inj h
    exact (List.mem_filter.mp hsource).2
  · split at h
    · rename_i hfile
      split at h
      · rename_i hending
        obtain rfl := Except.ok.inj h
        rw [List.mem_singleton.mp hsource, isSource, hfile, hending]
        rfl
      · cases h
    · cases h

/-- **What is collected from a path.** -/
theorem collected_of_collectSources {settings : Settings} {disk : Disk} {text : String}
    {sources : List Path} (hnames : disk.WellNamed)
    (h : collectSources settings disk (.ofString text) = .ok sources) :
    Collected settings disk sources := by
  have hgood := fun source => @isSource_of_mem_collectSources settings disk _ source sources h
  have hplaced : ∀ source ∈ sources,
      '/' ∉ source.name.toList ∧
        (source = .ofString text ∧ sources = [source] ∨ source.parent = .ofString text) := by
    unfold collectSources at h
    split at h
    · obtain rfl := Except.ok.inj h
      intro source hsource
      obtain ⟨hlisted, -⟩ := List.mem_filter.mp hsource
      unfold Disk.list at hlisted
      split at hlisted
      · cases hlisted
      · obtain ⟨name, hname, rfl⟩ := List.mem_map.mp hlisted
        rw [Path.name_child, Path.parent_child]
        exact ⟨slash_not_mem_of_mem_names hnames hname, .inr rfl⟩
    · split at h
      · split at h
        · obtain rfl := Except.ok.inj h
          intro source hsource
          obtain rfl := List.mem_singleton.mp hsource
          exact ⟨Path.slash_not_mem_name text, .inl ⟨rfl, rfl⟩⟩
        · cases h
      · cases h
  refine ⟨fun source hsource => ?_, fun source hsource => ?_, fun source hsource => ?_,
    fun source hsource other hother => ?_, ordered_of_collectSources h⟩
  · exact (Bool.and_eq_true_iff.mp (hgood source hsource)).1
  · exact beq_iff_eq.mp (Bool.and_eq_true_iff.mp (hgood source hsource)).2
  · exact (hplaced source hsource).1
  · rcases (hplaced source hsource).2 with ⟨-, hsingle⟩ | hparent
    · rw [hsingle] at hother
      rw [List.mem_singleton.mp hother]
    · rcases (hplaced other hother).2 with ⟨-, hsingle⟩ | hparent'
      · rw [hsingle] at hsource
        rw [List.mem_singleton.mp hsource]
      · rw [hparent, hparent']

/-! ## The names of documents -/

/-- The name of the document of a source with an ending. -/
def documentName (target : Target) (source : Path) (ending : String) : String :=
  source.stem ++ ending ++ target.extension

section Names

variable {settings : Settings} {target : Target} {source other : Path} {ending : String}

theorem slash_not_mem_stem (h : '/' ∉ source.name.toList) : '/' ∉ source.stem.toList :=
  fun hmem => h (Path.mem_name_of_mem_stem hmem)

/-- A document has a NUL in its path only where its source or its directory has one. -/
theorem hasNul_output (hsource : source.hasNul = false)
    (hdirectory : ∀ directory, settings.outputDir = some directory → directory.hasNul = false)
    (hending : Char.ofNat 0 ∉ ending.toList) :
    (settings.output target source ending).hasNul = false := by
  have haround : (settings.outputDir.getD source.parent).hasNul = false := by
    cases houtput : settings.outputDir with
    | none => exact Path.hasNul_parent hsource
    | some directory => exact hdirectory directory houtput
  have hstem : Char.ofNat 0 ∉ source.stem.toList :=
    fun hmem => Path.nul_not_mem_name hsource (Path.mem_name_of_mem_stem hmem)
  have hextension : Char.ofNat 0 ∉ target.extension.toList := by cases target <;> decide
  refine Path.hasNul_join haround ?_
  simp only [String.toList_append, List.mem_append, not_or]
  exact ⟨⟨hstem, hending⟩, hextension⟩

theorem documentName_ne {text : String} (h : text.length ≤ 3) :
    documentName target source ending ≠ text := by
  rintro rfl
  have hextension : target.extension.length = 4 ∨ target.extension.length = 5 := by
    cases target <;> decide
  simp only [documentName, String.length_append] at h
  omega

/-- **A document is named for its source**, in the directory of the documents. -/
theorem output_eq_child (hname : '/' ∉ source.name.toList) (hending : '/' ∉ ending.toList) :
    settings.output target source ending =
      (settings.outputDir.getD source.parent).child (documentName target source ending) := by
  have hextension : '/' ∉ target.extension.toList := by cases target <;> decide
  refine Path.join_eq_child ?_ (documentName_ne (by decide)) (documentName_ne (by decide))
  simp only [String.toList_append, List.mem_append, not_or]
  exact ⟨⟨slash_not_mem_stem hname, hending⟩, hextension⟩

/-- Documents of different names never meet. -/
theorem not_samePlace_output {disk : Disk} {more : String} (hsource : '/' ∉ source.name.toList)
    (hother : '/' ∉ other.name.toList) (hending : '/' ∉ ending.toList) (hmore : '/' ∉ more.toList)
    (h : source.stem ++ ending ≠ other.stem ++ more) :
    ¬ disk.SamePlace (settings.output target source ending)
      (settings.output target other more) := by
  rw [output_eq_child hsource hending, output_eq_child hother hmore]
  refine Disk.not_samePlace_child (documentName_ne (by decide)) (documentName_ne (by decide)) ?_
  exact fun hname => h (String.append_left_inj target.extension |>.mp hname)

theorem name_eq_of_suffix (h : source.suffix = ".jack") : source.name = source.stem ++ ".jack" := by
  rw [← source.stem_append_suffix, h]

/-- The name of a source is longer than its ending. -/
theorem name_ne_of_suffix {text : String} (h : source.suffix = ".jack") (hshort : text.length < 5) :
    source.name ≠ text := by
  rintro rfl
  rw [name_eq_of_suffix h, String.length_append] at hshort
  exact absurd hshort (Nat.not_lt.mpr (Nat.le_add_left 5 _))

/-- No document stands in the place of a source. -/
theorem not_samePlace_source {disk : Disk} (hsource : source.suffix = ".jack")
    (hother : '/' ∉ other.name.toList) (hending : '/' ∉ ending.toList) :
    ¬ disk.SamePlace source (settings.output target other ending) := by
  have hname := name_eq_of_suffix hsource
  have hsome : source.name ≠ "" := name_ne_of_suffix hsource (by decide)
  have hplain : source.name ≠ ".." := name_ne_of_suffix hsource (by decide)
  rw [output_eq_child hother hending, ← Path.parent_child_name hsome]
  refine Disk.not_samePlace_child hplain (documentName_ne (by decide)) fun heq => ?_
  have hlast := congrArg (fun text : String => text.toList.getLast?) heq
  rw [hname] at hlast
  cases target <;> simp [documentName, Target.extension, Target.name] at hlast

/-- **The listing of a source is not named like the tree of an earlier one.** -/
theorem stem_ne_of_lt (hsource : source.suffix = ".jack") (hother : other.suffix = ".jack")
    (h : source.name < other.name) : source.stem ≠ other.stem ++ "T" := by
  intro hstem
  rw [name_eq_of_suffix hsource, name_eq_of_suffix hother, hstem, String.append_assoc] at h
  have hbefore : other.stem ++ ".jack" < other.stem ++ ("T" ++ ".jack") := by
    change (other.stem ++ ".jack").toList < (other.stem ++ ("T" ++ ".jack")).toList
    rw [String.toList_append, String.toList_append]
    exact List.append_left_lt (by decide)
  exact String.lt_asymm h hbefore

theorem stem_ne_of_name_ne (hsource : source.suffix = ".jack") (hother : other.suffix = ".jack")
    (h : source.name ≠ other.name) : source.stem ≠ other.stem := by
  intro hstem
  exact h (by rw [name_eq_of_suffix hsource, name_eq_of_suffix hother, hstem])

end Names

/-! ## Sources directly inside a directory -/

theorem collectSources_of_directory {settings : Settings} {disk : Disk} {path : Path}
    {location : Location} (hplace : disk.resolve path = .ok location)
    (hthere : disk.find? location = some .directory) :
    collectSources settings disk path =
      .ok (((disk.names location).map path.child).filter (isSource settings disk)) := by
  rw [collectSources, if_pos (Disk.isDirectory_iff.mpr ⟨location, hplace, hthere⟩), Disk.list,
    hplace]

/-- **The sources of a directory** are the files directly inside it with the ending of sources. -/
theorem mem_collectSources_iff {settings : Settings} {disk : Disk} {path source : Path}
    {location : Location} {sources : List Path} (hending : settings.sourceSuffix = ".jack")
    (hplace : disk.resolve path = .ok location) (hthere : disk.find? location = some .directory)
    (h : collectSources settings disk path = .ok sources) :
    source ∈ sources ↔ ∃ name bytes, source = path.child name ∧
      disk.find? (location ++ [name]) = some (.file bytes) ∧
      source.suffix = settings.sourceSuffix := by
  rw [collectSources_of_directory hplace hthere, Except.ok.injEq] at h
  subst h
  have hread : ∀ name bytes, (path.child name).suffix = settings.sourceSuffix →
      (disk.read? (path.child name) = some bytes ↔
        disk.find? (location ++ [name]) = some (.file bytes)) := fun name bytes hsuffix =>
    Disk.read?_child_iff (path.name_child name ▸ name_ne_of_suffix (hending ▸ hsuffix) (by decide))
      hplace hthere
  simp only [List.mem_filter, List.mem_map, isSource, Bool.and_eq_true, beq_iff_eq, Disk.isFile_iff]
  constructor
  · rintro ⟨⟨name, -, rfl⟩, ⟨bytes, hbytes⟩, hsuffix⟩
    exact ⟨name, bytes, rfl, (hread name bytes hsuffix).mp hbytes, hsuffix⟩
  · rintro ⟨name, bytes, rfl, hbytes, hsuffix⟩
    exact ⟨⟨name, Disk.mem_names_of_find? hbytes, rfl⟩,
      ⟨bytes, (hread name bytes hsuffix).mpr hbytes⟩, hsuffix⟩

/-- Sources that are listed in the order of their names are told by which they are. -/
theorem sources_ext {sources others : List Path}
    (hsources : sources.Pairwise fun first second => first.name < second.name)
    (hothers : others.Pairwise fun first second => first.name < second.name)
    (h : ∀ source, source ∈ sources ↔ source ∈ others) : sources = others := by
  have hnodup : ∀ listed : List Path,
      (listed.Pairwise fun first second => first.name < second.name) → listed.Nodup := by
    intro listed hlisted
    refine hlisted.imp fun {first second} hlt => ?_
    rintro rfl
    exact String.lt_irrefl _ hlt
  refine List.Perm.eq_of_pairwise (fun first second _ _ hlt hgt => ?_) hsources hothers
    ((List.perm_ext_iff_of_nodup (hnodup _ hsources) (hnodup _ hothers)).mpr h)
  exact absurd hgt (String.lt_asymm hlt)

/-- **The same sources are collected again** on a disk where no directory is gone and what could be
a source is read alike. -/
theorem collectSources_of_read?_eq {settings : Settings} {disk again : Disk} {path : Path}
    {sources : List Path} (hending : settings.sourceSuffix = ".jack")
    (hkept : Disk.KeepsDirectories disk again)
    (hread : ∀ source location, source.suffix = settings.sourceSuffix →
      disk.resolve source = .ok location → again.read? source = disk.read? source)
    (h : collectSources settings disk path = .ok sources) :
    collectSources settings again path = .ok sources := by
  by_cases hdirectory : disk.isDirectory path = true
  · obtain ⟨location, hplace, hlocation⟩ := Disk.isDirectory_iff.mp hdirectory
    have hplace' := Disk.resolve_mono hkept hplace
    have hlocation' := hkept.directory location hlocation
    have hgathered := @collectSources_of_directory settings again path location hplace' hlocation'
    rw [hgathered, Except.ok.injEq]
    refine sources_ext (ordered_of_collectSources hgathered) (ordered_of_collectSources h)
      fun source => ?_
    rw [mem_collectSources_iff hending hplace' hlocation' hgathered,
      mem_collectSources_iff hending hplace hlocation h]
    refine exists_congr fun name => exists_congr fun bytes => and_congr_right fun hsource => ?_
    rw [and_comm, and_comm (b := source.suffix = _)]
    refine and_congr_right fun hsuffix => ?_
    have hplain : name ≠ ".." := by
      rw [← path.name_child name, ← hsource]
      exact name_ne_of_suffix (hending ▸ hsuffix) (by decide)
    rw [← Disk.read?_child_iff hplain hplace' hlocation',
      ← Disk.read?_child_iff hplain hplace hlocation, ← hsource,
      hread source (location ++ [name]) hsuffix]
    rw [hsource]
    exact (Disk.resolve_child_iff hplain).mpr ⟨location, hplace, hlocation, rfl⟩
  · unfold collectSources at h
    rw [if_neg hdirectory] at h
    split at h
    · rename_i hfile
      split at h
      · rename_i hsuffix
        cases h
        obtain ⟨bytes, hbytes⟩ := Disk.isFile_iff.mp hfile
        obtain ⟨location, hplace, -⟩ := Disk.read?_eq_some_iff.mp hbytes
        have hagain : again.read? path = some bytes := by
          rw [hread path location (beq_iff_eq.mp hsuffix) hplace, hbytes]
        rw [collectSources, if_neg (Disk.isDirectory_ne_of_read? hagain),
          if_pos (Disk.isFile_iff.mpr ⟨bytes, hagain⟩), if_pos hsuffix]
      · cases h
    · cases h

end JackSyntax.Batch
