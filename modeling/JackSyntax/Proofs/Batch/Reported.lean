import JackSyntax.Proofs.Batch.AllOrNothing
import JackSyntax.Proofs.Batch.Sources
import JackSyntax.Proofs.Batch.Treating

/-!
# What is left of a batch

The sources of a batch are treated in turn, and each may touch the places of its own documents only.
So what stands on the disk in the end is told by the names of the sources: a tree stays once it is
written, and a listing stays unless another source of the batch has a tree of that name.

## Results

* `source_apart`, `tree_apart`, `listing_apart`: what one source can do to another, told by names.
* `Treats.documents`, `Treats.no_tree`: what is left of a source, by its verdict.
* **`reported_success_on_disk`**: the documents of a source that is reported as analysed.
* `listing_is_lost`: a listing may be gone although its source is reported as analysed.
* **`listing_gives_way`**: that is so whenever another source has a tree of its name.
-/

namespace JackSyntax.Batch

/-! ## Sources and documents apart -/

section Apart

variable {options : CommandLine.Options} {target : Target} {disk : Disk}
  {sources others : List Path} {source touched : Path}

theorem tokenOutput_eq (options : CommandLine.Options) (target : Target) (source : Path) :
    options.settings.tokenOutput target source = options.settings.output target source "T" := rfl

theorem treeOutput_eq (options : CommandLine.Options) (target : Target) (source : Path) :
    options.settings.treeOutput target source = options.settings.output target source "" := rfl

theorem mem_places_iff :
    touched ∈ places options.settings target sources ↔
      ∃ source ∈ sources, touched = options.settings.output target source "T" ∨
        touched = options.settings.output target source "" := by
  simp only [places, List.mem_flatMap, mem_outputPaths_iff, tokenOutput_eq, treeOutput_eq]

/-- No document stands in the place of a file with the ending of sources. -/
theorem apart_of_suffix (hsources : Collected options.settings disk sources)
    (hothers : others ⊆ sources) (hsource : source.suffix = options.settings.sourceSuffix)
    (now : Disk) :
    ∀ touched ∈ places options.settings target others, ¬ now.SamePlace source touched := by
  intro touched htouched
  obtain ⟨other, hother, hplace⟩ := mem_places_iff.mp htouched
  have hplain := hsources.plain other (hothers hother)
  rcases hplace with hplace | hplace
  · rw [hplace]
    exact not_samePlace_source hsource hplain (by decide)
  · rw [hplace]
    exact not_samePlace_source hsource hplain (by decide)

/-- No document stands in the place of a source. -/
theorem source_apart (hsources : Collected options.settings disk sources)
    (hsource : source ∈ sources) (hothers : others ⊆ sources) (now : Disk) :
    ∀ touched ∈ places options.settings target others, ¬ now.SamePlace source touched :=
  apart_of_suffix hsources hothers (hsources.ending source hsource) now

/-- A document stays when no other source has a document of its name. -/
theorem output_apart {ending : String} (hsources : Collected options.settings disk sources)
    (hsource : source ∈ sources) (hothers : others ⊆ sources) (hending : '/' ∉ ending.toList)
    (hlisting : ∀ other ∈ others, source.stem ++ ending ≠ other.stem ++ "T")
    (htree : ∀ other ∈ others, source.stem ++ ending ≠ other.stem) (now : Disk) :
    ∀ touched ∈ places options.settings target others,
      ¬ now.SamePlace (options.settings.output target source ending) touched := by
  intro touched htouched
  obtain ⟨other, hother, hplace⟩ := mem_places_iff.mp htouched
  have hplain := hsources.plain source hsource
  have hbeside := hsources.plain other (hothers hother)
  rcases hplace with hplace | hplace
  · rw [hplace]
    exact not_samePlace_output hplain hbeside hending (by decide) (hlisting other hother)
  · rw [hplace]
    refine not_samePlace_output hplain hbeside hending (by decide) ?_
    rw [String.append_empty]
    exact htree other hother

section Later

variable {front rest : List Path}
  (hsources : Collected options.settings disk (front ++ source :: rest)) (now : Disk)

include hsources

/-- Later sources have greater names. -/
theorem name_lt_of_mem_rest {other : Path} (h : other ∈ rest) : source.name < other.name :=
  (List.pairwise_cons.mp (List.pairwise_append.mp hsources.ordered).2.1).1 other h

/-- **The tree of a source stays** when later sources are treated. -/
theorem tree_apart :
    ∀ touched ∈ places options.settings target rest,
      ¬ now.SamePlace (options.settings.treeOutput target source) touched := by
  have hsource : source ∈ front ++ source :: rest := List.mem_append_right _ List.mem_cons_self
  have hrest : rest ⊆ front ++ source :: rest :=
    fun _ h => List.mem_append_right _ (List.mem_cons_of_mem _ h)
  have hending := hsources.ending source hsource
  rw [treeOutput_eq]
  refine output_apart hsources hsource hrest (by decide) (fun other hother => ?_)
    (fun other hother => ?_) now
  · rw [String.append_empty]
    exact stem_ne_of_lt hending (hsources.ending other (hrest hother))
      (name_lt_of_mem_rest hsources hother)
  · rw [String.append_empty]
    exact stem_ne_of_name_ne hending (hsources.ending other (hrest hother))
      (String.ne_of_lt (name_lt_of_mem_rest hsources hother))

/-- The listing of a source stays when no later source has a tree of its name. -/
theorem listing_apart (hfree : ∀ other ∈ rest, other.stem ≠ source.stem ++ "T") :
    ∀ touched ∈ places options.settings target rest,
      ¬ now.SamePlace (options.settings.tokenOutput target source) touched := by
  have hsource : source ∈ front ++ source :: rest := List.mem_append_right _ List.mem_cons_self
  have hrest : rest ⊆ front ++ source :: rest :=
    fun _ h => List.mem_append_right _ (List.mem_cons_of_mem _ h)
  rw [tokenOutput_eq]
  refine output_apart hsources hsource hrest (by decide) (fun other hother => ?_)
    (fun other hother => (hfree other hother).symm) now
  intro hstem
  have hname := stem_ne_of_name_ne (hsources.ending source hsource)
    (hsources.ending other (hrest hother)) (String.ne_of_lt (name_lt_of_mem_rest hsources hother))
  exact hname (String.append_left_inj "T" |>.mp hstem)

/-- The listing of a source is not written over by its own tree. -/
theorem listing_apart_tree :
    ¬ now.SamePlace (options.settings.tokenOutput target source)
      (options.settings.treeOutput target source) := by
  have hplain := hsources.plain source (List.mem_append_right _ List.mem_cons_self)
  rw [tokenOutput_eq, treeOutput_eq]
  refine not_samePlace_output hplain hplain (by decide) (by decide) fun hstem => ?_
  have hlength := congrArg String.length hstem
  rw [String.length_append, String.length_append] at hlength
  exact absurd (Nat.add_left_cancel hlength) (by decide)

end Later

end Apart

/-! ## Reported sources -/

/-- With the settings of a command line documents are encoded in UTF-8. -/
theorem codec_settings (options : CommandLine.Options) : options.settings.codec? = some .utf8 :=
  codec?_of_utf8 rfl rfl

section Documents

variable {options : CommandLine.Options} {sources : List Path} {source : Path}
  {report : BatchReport} {disk : Disk}

/-- The documents of a source without a defect stand on the disk once the batch is treated. -/
theorem Treats.documents {prepared after : Disk}
    (hsources : Collected options.settings disk sources)
    (h : Treats options.settings sources report prepared after)
    (hsource : report.Tells source none) :
    source ∈ sources ∧ ∃ target artifacts, options.settings.format? = some target ∧
      artifacts? options.settings target prepared source = some artifacts ∧
      after.Holds .utf8 (options.settings.treeOutput target source) artifacts.tree ∧
      (options.settings.writeTokens = true → (∀ other ∈ sources, other.stem ≠ source.stem ++ "T") →
        after.Holds .utf8 (options.settings.tokenOutput target source) artifacts.listing) := by
  obtain ⟨target, front, rest, middle, found, htarget, rfl, hfront, ⟨paths, hanalysed⟩, hlater⟩ :=
    h.of_tells hsource
  have hmem : source ∈ front ++ source :: rest := List.mem_append_right _ List.mem_cons_self
  obtain ⟨artifacts, hartifacts, -, -, htree, hlisting⟩ :=
    analyzeFile_eq_ok htarget (codec_settings options) hanalysed
  refine ⟨hmem, target, artifacts, htarget, ?_, ?_, fun htokens hfree => ?_⟩
  · rw [← hartifacts]
    have hread := hfront.read?_eq
      (source_apart hsources hmem (List.subset_append_left _ _) prepared)
    exact (artifacts?_congr hread).symm
  · exact htree.of_touches hlater (tree_apart hsources found.disk)
  · refine (hlisting htokens (listing_apart_tree hsources middle.disk)).of_touches hlater ?_
    refine listing_apart hsources found.disk fun other hother => hfree other ?_
    exact List.mem_append_right _ (List.mem_cons_of_mem _ hother)

/-- No tree of a source with a defect is left once the batch is treated. -/
theorem Treats.no_tree {prepared after : Disk} {defect : Defect}
    (hsources : Collected options.settings disk sources)
    (h : Treats options.settings sources report prepared after)
    (hsource : report.Tells source (some defect)) :
    ∃ target, options.settings.format? = some target ∧
      after.isFile (options.settings.treeOutput target source) = false := by
  obtain ⟨target, front, rest, middle, found, htarget, rfl, -, hdefect, hlater⟩ :=
    h.of_tells hsource
  refine ⟨target, htarget, ?_⟩
  have hgone := analyzeFile_eq_defect htarget hdefect _ (mem_outputPaths_iff.mpr (.inr rfl))
  rw [← Bool.not_eq_true, Disk.isFile_iff] at hgone ⊢
  rwa [hlater.read?_eq (tree_apart hsources found.disk)]

/-- A source is read as it was before the directory of the documents was made. -/
theorem Collected.artifacts?_eq {settings : Settings} {target : Target} {prepared : Disk}
    (hsources : Collected settings disk sources) (hsource : source ∈ sources)
    (hextends : Disk.Extends disk prepared) :
    artifacts? settings target prepared source = artifacts? settings target disk source := by
  obtain ⟨bytes, hbytes⟩ := Disk.isFile_iff.mp (hsources.file source hsource)
  exact artifacts?_congr (by rw [hbytes, hextends.read? hbytes])

/-- The listing of a source is named like the tree of another. -/
theorem tokenOutput_eq_treeOutput {target : Target} {other : Path}
    (hsources : Collected options.settings disk sources) (hsource : source ∈ sources)
    (hother : other ∈ sources) (hstem : other.stem = source.stem ++ "T") :
    options.settings.tokenOutput target source = options.settings.treeOutput target other := by
  rw [tokenOutput_eq, treeOutput_eq, output_eq_child (hsources.plain source hsource) (by decide),
    output_eq_child (hsources.plain other hother) (by decide), documentName, documentName, hstem,
    hsources.beside source hsource other hother, String.append_empty]

end Documents

/-- Without a directory for the documents, analysing a path is analysing its sources. -/
theorem analyzePath_beside {settings : Settings} {path : Path} {before : Workspace}
    {sources : List Path} (hcollect : collectSources settings before.disk path = .ok sources)
    (hsome : sources.isEmpty = false) (hbeside : settings.outputDir = none) :
    analyzePath settings path before = analyzeEach settings sources {} before := by
  simp only [analyzePath, bind, EStateM.bind, hcollect, hsome, prepareOutput_of_none hbeside,
    Bool.false_eq_true, reduceIte]
  rfl

/-- **What is reported as analysed is on the disk**: the tree of the source, and its listing unless
another source of the batch has a tree of that name. -/
theorem reported_success_on_disk {options : CommandLine.Options} {path : String}
    {report : BatchReport} {before after : Workspace} (hnames : before.disk.WellNamed)
    (h : analyzePath options.settings (.ofString path) before = .ok report after) :
    ∃ sources, collectSources options.settings before.disk (.ofString path) = .ok sources ∧
      ∀ source ∈ report.succeeded, source ∈ sources ∧
        ∃ target artifacts, options.settings.format? = some target ∧
          artifacts? options.settings target before.disk source = some artifacts ∧
          after.disk.Holds .utf8 (options.settings.treeOutput target source) artifacts.tree ∧
          (options.settings.writeTokens = true →
            (∀ other ∈ sources, other.stem ≠ source.stem ++ "T") →
            after.disk.Holds .utf8 (options.settings.tokenOutput target source)
              artifacts.listing) := by
  obtain ⟨sources, prepared, hcollect, hextends, htreats⟩ := analyzePath_eq_ok h
  have hsources := collected_of_collectSources hnames hcollect
  refine ⟨sources, hcollect, fun source hsource => ?_⟩
  obtain ⟨hmem, target, artifacts, htarget, hartifacts, hdocuments⟩ :=
    htreats.documents hsources hsource
  rw [hsources.artifacts?_eq hmem hextends] at hartifacts
  exact ⟨hmem, target, artifacts, htarget, hartifacts, hdocuments⟩

/-- A class without members is reported as analysed, and both of its documents stand on the disk. -/
theorem reported_emptyClass :
    let options : CommandLine.Options := { path := "." }
    let disk : Disk := { here := ["w"]
                         entries := [(["w", "Main.jack"], .file emptyClass.toUTF8)]
                         distinct := by decide }
    disk.WellNamed ∧
    ∃ report after,
      analyzePath options.settings (.ofString options.path) { disk } = .ok report after ∧
      report.succeeded = [⟨0, ["Main.jack"]⟩] ∧
      after.disk.Holds .utf8 ⟨0, ["MainT.xml"]⟩ emptyClassArtifacts.listing ∧
      after.disk.Holds .utf8 ⟨0, ["Main.xml"]⟩ emptyClassArtifacts.tree := by
  intro options disk
  have hnames : disk.WellNamed := by decide +kernel
  have htarget : options.settings.format? = some .xml := by decide
  have htoken : options.settings.tokenOutput .xml ⟨0, ["Main.jack"]⟩ = ⟨0, ["MainT.xml"]⟩ := by
    decide +kernel
  have htree : options.settings.treeOutput .xml ⟨0, ["Main.jack"]⟩ = ⟨0, ["Main.xml"]⟩ := by
    decide +kernel
  have hcollect : collectSources options.settings disk (.ofString options.path) =
      .ok [⟨0, ["Main.jack"]⟩] := by decide +kernel
  obtain ⟨found, hanalysed, -⟩ := analyzeFile_of_emptyClass { disk } htarget
    (codec_settings options) rfl rfl htoken htree rfl rfl rfl
  have hreport : ∃ after, analyzePath options.settings (.ofString options.path) { disk } =
      .ok { succeeded := [⟨0, ["Main.jack"]⟩] } after := by
    rw [@analyzePath_beside _ _ { disk } _ hcollect rfl rfl]
    simp only [analyzeEach, hanalysed]
    exact ⟨_, rfl⟩
  obtain ⟨after, hreport⟩ := hreport
  obtain ⟨sources, hsources, hall⟩ := reported_success_on_disk hnames hreport
  obtain rfl := Except.ok.inj (hcollect.symm.trans hsources)
  obtain ⟨-, target, artifacts, hformat, hartifacts, hplaced, hlisted⟩ :=
    hall ⟨0, ["Main.jack"]⟩ List.mem_cons_self
  obtain rfl := Option.some.inj (htarget.symm.trans hformat)
  obtain rfl := Option.some.inj
    ((artifacts?_emptyClass rfl rfl (codec_settings options) rfl).symm.trans hartifacts)
  rw [htree] at hplaced
  rw [htoken] at hlisted
  refine ⟨hnames, _, after, hreport, rfl, hlisted rfl fun other hother => ?_, hplaced⟩
  rw [List.mem_singleton.mp hother]
  decide

theorem scan_hash : Token.scan "#" = .error ⟨.unexpected '#', ⟨1, 1⟩⟩ :=
  Token.scan_of_outcomeIn (show (Reader.ofString "#").outcomeIn 1 = some _ by decide +kernel)

/-- A class without members is analysed, the source behind it has a defect, and no document of that
one is left. -/
theorem analyzeEach_emptyClass_hash {settings : Settings} {token tree : Path} {disk : Disk}
    (source other : Path) (before : Workspace) (htarget : settings.format? = some .xml)
    (hcodec : settings.codec? = some .utf8) (hindent : settings.indentFor? .xml = some none)
    (htokens : settings.writeTokens = true) (htoken : settings.tokenOutput .xml source = token)
    (htree : settings.treeOutput .xml source = tree) (hnul : source.hasNul = false)
    (hread : before.disk.read? source = some emptyClass.toUTF8)
    (hwritten : written? .utf8 [(token, emptyClassArtifacts.listing),
      (tree, emptyClassArtifacts.tree)] before.disk = some disk)
    (hothernul : other.hasNul = false) (hother : disk.read? other = some "#".toUTF8)
    (hnuls : ∀ path ∈ outputPaths settings .xml other, path.hasNul = false) :
    ∃ after, analyzeEach settings [source, other] {} before =
        .ok ⟨[source], [(other, .lexical ⟨.unexpected '#', ⟨1, 1⟩⟩)]⟩ after ∧
      ∀ path ∈ outputPaths settings .xml other, after.disk.isFile path = false := by
  obtain ⟨found, hanalysed, rfl⟩ := analyzeFile_of_emptyClass before htarget hcodec hindent
    htokens htoken htree hnul hread hwritten
  have htext : sourceText? settings found.disk other = some "#" :=
    sourceText?_of_read? hothernul hother hcodec (by decide +kernel)
  have hdefect : ∀ level part text, ∃ last, analyzeFile settings other
      (found.tell level part text) = .error (.defect (.lexical ⟨.unexpected '#', ⟨1, 1⟩⟩)) last ∧
      ∀ path ∈ outputPaths settings .xml other, last.disk.isFile path = false := by
    intro level part text
    obtain ⟨last, hlast⟩ := analyzeFile_of_scan_error (found.tell level part text) htarget htext
      scan_hash rfl hnuls
    exact ⟨last, hlast, analyzeFile_eq_defect htarget hlast⟩
  choose last hlast hgone using hdefect
  simp only [analyzeEach, hanalysed, hlast]
  exact ⟨_, rfl, hgone _ _ _⟩

/-- A listing is lost although its source is reported as analysed: the defect of another source
takes it away. -/
theorem listing_is_lost :
    let options : CommandLine.Options := { path := "." }
    let disk : Disk := { here := ["w"]
                         entries := [(["w", "Main.jack"], .file emptyClass.toUTF8),
                                     (["w", "MainT.jack"], .file "#".toUTF8)]
                         distinct := by decide }
    options.settings.format? = some .xml ∧ options.settings.writeTokens = true ∧
    artifacts? options.settings .xml disk ⟨0, ["Main.jack"]⟩ = some emptyClassArtifacts ∧
    ∃ report after,
      analyzePath options.settings (.ofString options.path) { disk } = .ok report after ∧
      ⟨0, ["Main.jack"]⟩ ∈ report.succeeded ∧
      ¬ after.disk.Holds .utf8 (options.settings.tokenOutput .xml ⟨0, ["Main.jack"]⟩)
        emptyClassArtifacts.listing := by
  intro options disk
  have htarget : options.settings.format? = some .xml := by decide
  have htoken : options.settings.tokenOutput .xml ⟨0, ["Main.jack"]⟩ = ⟨0, ["MainT.xml"]⟩ := by
    decide +kernel
  have htree : options.settings.treeOutput .xml ⟨0, ["Main.jack"]⟩ = ⟨0, ["Main.xml"]⟩ := by
    decide +kernel
  have hother : options.settings.treeOutput .xml ⟨0, ["MainT.jack"]⟩ = ⟨0, ["MainT.xml"]⟩ := by
    decide +kernel
  have hlisted : disk.names ["w"] = ["Main.jack", "MainT.jack"] :=
    Disk.names_eq_of_ordered rfl (by decide)
  have hcollect : collectSources options.settings disk (.ofString options.path) =
      .ok [⟨0, ["Main.jack"]⟩, ⟨0, ["MainT.jack"]⟩] := by
    rw [@collectSources_of_directory _ disk _ ["w"] (by decide +kernel) rfl, hlisted]
    decide +kernel
  obtain ⟨after, heach, hgone⟩ := analyzeEach_emptyClass_hash ⟨0, ["Main.jack"]⟩
    ⟨0, ["MainT.jack"]⟩ { disk } htarget (codec_settings options) rfl rfl htoken htree rfl rfl rfl
    rfl rfl (by decide +kernel)
  refine ⟨htarget, rfl, artifacts?_emptyClass rfl rfl (codec_settings options) rfl, ?_⟩
  rw [@analyzePath_beside _ _ { disk } _ hcollect rfl rfl]
  refine ⟨_, after, heach, List.mem_cons_self, ?_⟩
  rintro ⟨bytes, -, hread⟩
  have hplace := hgone ⟨0, ["MainT.xml"]⟩ (mem_outputPaths_iff.mpr (.inr hother.symm))
  rw [htoken] at hread
  exact Bool.false_ne_true (hplace.symm.trans (Disk.isFile_iff.mpr ⟨bytes, hread⟩))

/-- **A listing gives way to a tree of its name.** When another source of the batch has one, that
tree stands in its place, or nothing when the other source has a defect. -/
theorem listing_gives_way {options : CommandLine.Options} {target : Target} {path : String}
    {report : BatchReport} {before after : Workspace} {sources : List Path}
    (hnames : before.disk.WellNamed) (htarget : options.settings.format? = some target)
    (h : analyzePath options.settings (.ofString path) before = .ok report after)
    (hcollect : collectSources options.settings before.disk (.ofString path) = .ok sources)
    {source other : Path} (hsource : source ∈ sources) (hother : other ∈ sources)
    (hstem : other.stem = source.stem ++ "T") :
    (∃ artifacts, artifacts? options.settings target before.disk other = some artifacts ∧
      after.disk.Holds .utf8 (options.settings.tokenOutput target source) artifacts.tree) ∨
    after.disk.isFile (options.settings.tokenOutput target source) = false := by
  obtain ⟨found, prepared, hfound, hextends, htreats⟩ := analyzePath_eq_ok h
  obtain rfl : sources = found := Except.ok.inj (hcollect.symm.trans hfound)
  have hsources := collected_of_collectSources hnames hcollect
  rw [tokenOutput_eq_treeOutput hsources hsource hother hstem]
  obtain ⟨verdict, hverdict⟩ := htreats.exists_verdict hother
  cases verdict with
  | none =>
    obtain ⟨-, format, artifacts, hformat, hartifacts, htree, -⟩ :=
      htreats.documents hsources hverdict
    obtain rfl : target = format := Option.some.inj (htarget.symm.trans hformat)
    rw [hsources.artifacts?_eq hother hextends] at hartifacts
    exact .inl ⟨artifacts, hartifacts, htree⟩
  | some defect =>
    obtain ⟨format, hformat, hgone⟩ := htreats.no_tree hsources hverdict
    obtain rfl : target = format := Option.some.inj (htarget.symm.trans hformat)
    exact .inr hgone

end JackSyntax.Batch
