import JackSyntax.Proofs.Batch.Independence
import JackSyntax.Proofs.Disk.Making

/-!
# Batches run again

A batch that has reported can be run again on the disk that it left: it treats the same sources,
gives each the same verdict, and leaves the disk as it is. Whatever stood at the places of the
documents before, and whichever documents share a place, the last source that touches a place
settles what stands there.

## The model

* `Disk.SettleAlike before after again last`: of two changes, wherever they do not leave the same,
  both have left what was there.

## Results

* `SettleAlike.trans`, `settleAlike_of_touches`: changes one after the other, and changes at the
  same places.
* `Ends.repeated`, `Ends.settleAlike`: a source that is analysed on another disk with the same
  directories and the same bytes for it.
* **`Treats.repeated`**: sources treated in turn on such a disk.
* `Treats.collectSources_repeated`: the same sources are collected afterwards.
* **`batch_repeats`**: what a batch leaves untouched, and what it does when it is run again.
-/

namespace JackSyntax

/-! ## Two changes that settle alike -/

namespace Disk

variable {before middle after again between last : Disk}

/-- Of two changes, from `before` to `after` and from `again` to `last`: wherever they do not leave
the same, both have left what was there. -/
def SettleAlike (before after again last : Disk) : Prop :=
  ∀ location, last.find? location = after.find? location ∨
    after.find? location = before.find? location ∧ last.find? location = again.find? location

namespace SettleAlike

theorem refl (before again : Disk) : SettleAlike before before again again :=
  fun _ => .inr ⟨rfl, rfl⟩

theorem trans (first : SettleAlike before middle again between)
    (second : SettleAlike middle after between last) : SettleAlike before after again last := by
  intro location
  rcases second location with hsettled | ⟨hafter, hlast⟩
  · exact .inl hsettled
  · rcases first location with hsettled | ⟨hmiddle, hbetween⟩
    · exact .inl (by rw [hafter, hlast, hsettled])
    · exact .inr ⟨hafter.trans hmiddle, hlast.trans hbetween⟩

/-- A change that is made again changes nothing. -/
theorem fixed (h : SettleAlike before after after last) (location : Location) :
    last.find? location = after.find? location := by
  rcases h location with hsettled | ⟨-, hleft⟩
  · exact hsettled
  · exact hleft

end SettleAlike

/-- Changes at the same places settle alike when they leave the same there. -/
theorem settleAlike_of_touches {paths : List Path} (hsame : SameDirectories before again)
    (first : Touches paths before after) (second : Touches paths again last)
    (hread : ∀ path ∈ paths, last.read? path = after.read? path) :
    SettleAlike before after again last := by
  have hleft : SameDirectories after last :=
    first.sameDirectories.symm.trans (hsame.trans second.sameDirectories)
  intro location
  by_cases htouched : ∃ path ∈ paths, before.resolve path = .ok location
  · obtain ⟨path, hpath, hplace⟩ := htouched
    exact .inl (hleft.find?_eq_of_read?_eq (first.resolve_iff.mpr hplace) (hread path hpath))
  · have haway : ∀ path ∈ paths, before.resolve path ≠ .ok location :=
      fun path hpath hplace => htouched ⟨path, hpath, hplace⟩
    exact .inr ⟨first.elsewhere location haway, second.elsewhere location fun path hpath hplace =>
      haway path hpath (hsame.resolve_iff.mp hplace)⟩

end Disk

namespace Batch

/-! ## One source again -/

section Again

variable {options : CommandLine.Options} {source : Path} {verdict : Option Defect}
  {before after again last : Workspace}

/-- The analysis of a source ends with the same verdict on another disk with the same directories
and the same bytes for it. -/
theorem Ends.repeated (h : Ends options.settings source before verdict after)
    (hsame : Disk.SameDirectories before.disk again.disk)
    (hread : again.disk.read? source = before.disk.read? source) :
    ∃ last, Ends options.settings source again verdict last := by
  have houtcome : outcome (analyzeFile options.settings source again) =
      outcome (analyzeFile options.settings source before) := outcome_analyzeFile_congr hsame hread
  cases verdict with
  | none =>
    obtain ⟨paths, h⟩ := h
    rw [h] at houtcome
    cases hagain : analyzeFile options.settings source again with
    | ok found last => exact ⟨last, found, hagain⟩
    | error fault last =>
      rw [hagain] at houtcome
      cases houtcome
  | some defect =>
    rw [Ends] at h
    rw [h] at houtcome
    cases hagain : analyzeFile options.settings source again with
    | ok found last =>
      rw [hagain] at houtcome
      cases houtcome
    | error fault last =>
      rw [hagain] at houtcome
      obtain rfl : fault = .defect defect := Except.error.inj houtcome
      exact ⟨last, hagain⟩

/-- The documents of a source that is analysed twice are the same, also where the tree stands in the
place of the listing. -/
theorem read?_eq_of_analyzeFile_eq_ok {target : Target} {paths paths' : List Path}
    (htarget : options.settings.format? = some target)
    (h : analyzeFile options.settings source before = .ok paths after)
    (h' : analyzeFile options.settings source again = .ok paths' last)
    (hsame : Disk.SameDirectories before.disk again.disk)
    (hread : again.disk.read? source = before.disk.read? source) :
    Disk.Touches paths before.disk after.disk ∧ Disk.Touches paths again.disk last.disk ∧
      ∀ path ∈ paths, last.disk.read? path = after.disk.read? path := by
  obtain ⟨artifacts, hartifacts, rfl, htouches, htree, hlisting⟩ :=
    analyzeFile_eq_ok htarget (codec_settings options) h
  obtain ⟨artifacts', hartifacts', rfl, htouches', htree', hlisting'⟩ :=
    analyzeFile_eq_ok htarget (codec_settings options) h'
  obtain rfl : artifacts = artifacts' := by
    rw [artifacts?_congr hread, hartifacts] at hartifacts'
    exact Option.some.inj hartifacts'
  have htreeRead := htree.read?_eq htree'
  refine ⟨htouches, htouches', fun path hpath => ?_⟩
  rw [map_fst_outputs] at hpath
  split at hpath
  · rename_i htokens
    rcases mem_outputPaths_iff.mp hpath with hpath | hpath <;> rw [hpath]
    · by_cases hplace : before.disk.SamePlace (options.settings.tokenOutput target source)
        (options.settings.treeOutput target source)
      · rw [(htouches.samePlace_iff.mpr hplace).read?_eq,
          (htouches'.samePlace_iff.mpr (hsame.samePlace_iff.mpr hplace)).read?_eq, htreeRead]
      · exact (hlisting htokens hplace).read?_eq
          (hlisting' htokens fun hplace' => hplace (hsame.samePlace_iff.mp hplace'))
    · exact htreeRead
  · rw [List.mem_singleton.mp hpath]
    exact htreeRead

/-- **Analysed twice, a source leaves the same** wherever it leaves anything. -/
theorem Ends.settleAlike (h : Ends options.settings source before verdict after)
    (h' : Ends options.settings source again verdict last)
    (hsame : Disk.SameDirectories before.disk again.disk)
    (hread : again.disk.read? source = before.disk.read? source) :
    Disk.SettleAlike before.disk after.disk again.disk last.disk := by
  obtain ⟨target, htarget⟩ := h.exists_format?
  cases verdict with
  | none =>
    obtain ⟨paths, h⟩ := h
    obtain ⟨paths', h'⟩ := h'
    obtain ⟨htouches, htouches', hdocuments⟩ :=
      read?_eq_of_analyzeFile_eq_ok htarget h h' hsame hread
    exact Disk.settleAlike_of_touches hsame htouches htouches' hdocuments
  | some defect =>
    -- no file is left at either place
    refine Disk.settleAlike_of_touches hsame (h.touches htarget) (h'.touches htarget)
      fun path hpath => ?_
    rw [Disk.read?_eq_none_iff.mpr (analyzeFile_eq_defect htarget h path hpath),
      Disk.read?_eq_none_iff.mpr (analyzeFile_eq_defect htarget h' path hpath)]

end Again

/-! ## Sources in turn again -/

section Again

variable {options : CommandLine.Options} {target : Target} {sources whole : List Path} {path : Path}
  {report : BatchReport} {disk prepared after : Disk}

/-- The analysis of a source leaves the sources of its batch as they are. -/
theorem Ends.read?_eq {source other : Path} {verdict : Option Defect} {before after : Workspace}
    (hsources : Collected options.settings disk whole) (hsource : source ∈ whole)
    (hother : other ∈ whole) (h : Ends options.settings source before verdict after) :
    after.disk.read? other = before.disk.read? other := by
  obtain ⟨target, htarget⟩ := h.exists_format?
  have hapart : ∀ touched ∈ places options.settings target [source],
      ¬ before.disk.SamePlace other touched :=
    source_apart hsources hother (List.cons_subset.mpr ⟨hsource, List.nil_subset whole⟩) before.disk
  rw [places, List.flatMap_singleton] at hapart
  exact (h.touches htarget).read?_eq hapart

/-- **Sources treated in turn on another disk** with the same directories and the same sources get
the same verdicts, and leave the same wherever they leave anything. -/
theorem Treats.repeated (hsources : Collected options.settings disk whole)
    (h : Treats options.settings sources report prepared after) (hwhole : sources ⊆ whole)
    (start : BatchReport) {second : Workspace} (hsame : Disk.SameDirectories prepared second.disk)
    (hread : ∀ source ∈ sources, second.disk.read? source = prepared.read? source) :
    ∃ last, analyzeEach options.settings sources start second =
        .ok ⟨start.succeeded ++ report.succeeded, start.failed ++ report.failed⟩ last ∧
      Disk.SettleAlike prepared after second.disk last.disk := by
  induction h generalizing start second with
  | @done disk =>
    refine ⟨second, ?_, .refl disk second.disk⟩
    rw [List.append_nil, List.append_nil]
    rfl
  | @next source rest report verdict disk after log found hsource hothers ih =>
    obtain ⟨target, htarget⟩ := hsource.exists_format?
    have hsourceRead := hread source List.mem_cons_self
    obtain ⟨next, hnext⟩ := hsource.repeated hsame hsourceRead
    have hsettled := hsource.settleAlike hnext hsame hsourceRead
    have hleft : Disk.SameDirectories found.disk next.disk :=
      (hsource.touches htarget).sameDirectories.symm.trans
        (hsame.trans (hnext.touches htarget).sameDirectories)
    have hrest : ∀ other ∈ rest, next.disk.read? other = found.disk.read? other := by
      intro other hother
      have hfirst := hwhole List.mem_cons_self
      have hmem := List.mem_cons_of_mem source hother
      rw [hnext.read?_eq hsources hfirst (hwhole hmem),
        hsource.read?_eq hsources hfirst (hwhole hmem), hread other hmem]
    have hsub : rest ⊆ whole := fun _ hother => hwhole (List.mem_cons_of_mem source hother)
    have hlater : ∀ (start : BatchReport) (log : Array LogRecord), ∃ last,
        analyzeEach options.settings rest start ⟨next.disk, log⟩ =
          .ok ⟨start.succeeded ++ report.succeeded, start.failed ++ report.failed⟩ last ∧
        Disk.SettleAlike disk after second.disk last.disk := by
      intro start log
      obtain ⟨last, heach, hlast⟩ : ∃ last,
          analyzeEach options.settings rest start ⟨next.disk, log⟩ =
            .ok ⟨start.succeeded ++ report.succeeded, start.failed ++ report.failed⟩ last ∧
          Disk.SettleAlike found.disk after next.disk last.disk := ih hsub start hleft hrest
      exact ⟨last, heach, hsettled.trans hlast⟩
    cases verdict with
    | none =>
      obtain ⟨paths, hnext⟩ := hnext
      simp only [analyzeEach, hnext, BatchReport.record]
      rw [List.append_cons _ source report.succeeded]
      exact hlater ⟨start.succeeded ++ [source], start.failed⟩ _
    | some defect =>
      rw [Ends] at hnext
      simp only [analyzeEach, hnext, BatchReport.record]
      rw [List.append_cons _ (source, defect) report.failed]
      exact hlater ⟨start.succeeded, start.failed ++ [(source, defect)]⟩ _

end Again

/-! ## The whole batch again -/

/-- The directory of the documents is there afterwards, and is not made again. -/
theorem prepareOutput_repeated {settings : Settings} {before prepared : Workspace} {after : Disk}
    (h : prepareOutput settings before = .ok () prepared)
    (hsame : Disk.SameDirectories prepared.disk after) (log : Array LogRecord) :
    prepareOutput settings ⟨after, log⟩ = .ok () ⟨after, log⟩ := by
  rcases (prepareOutput_cases h).2 with ⟨hnone, -⟩ | ⟨directory, hsome, hnul, hmade⟩
  · rw [prepareOutput_of_none hnone]
    rfl
  · have hthere : after.isDirectory directory = true := by
      rw [hsame.isDirectory_eq, Disk.isDirectory_of_makeDirectories hmade]
    rw [prepareOutput_of_some hsome, checkPath_bind hnul, makeOutput_eq_ok_iff]
    exact ⟨Disk.makeDirectories_of_isDirectory hthere, rfl⟩

section Whole

variable {options : CommandLine.Options} {sources : List Path} {path : Path} {report : BatchReport}
  {before prepared : Workspace} {after : Disk}

/-- A batch touches the places of its documents; without a known format it has no sources. -/
theorem Treats.exists_touches {settings : Settings} {disk : Disk}
    (h : Treats settings sources report disk after) :
    ∃ touched, Disk.Touches touched disk after ∧ ∀ path ∈ touched,
      ∃ target, settings.format? = some target ∧ path ∈ places settings target sources := by
  cases htarget : settings.format? with
  | some target =>
    exact ⟨places settings target sources, h.touches htarget,
      fun path hpath => ⟨target, rfl, hpath⟩⟩
  | none =>
    cases h with
    | done => exact ⟨[], .refl [] _, fun path hpath => absurd hpath List.not_mem_nil⟩
    | next hsource _ =>
      obtain ⟨target, hformat⟩ := hsource.exists_format?
      rw [htarget] at hformat
      cases hformat

/-- A file with the ending of sources is neither changed nor made by a batch. -/
theorem read?_of_suffix {source : Path} {location : Location}
    (hsources : Collected options.settings before.disk sources)
    (hprepared : prepareOutput options.settings before = .ok () prepared)
    (h : Treats options.settings sources report prepared.disk after)
    (hsuffix : source.suffix = options.settings.sourceSuffix)
    (hplace : before.disk.resolve source = .ok location) :
    after.read? source = before.disk.read? source := by
  obtain ⟨touched, htouches, hmem⟩ := h.exists_touches
  have hapart : ∀ path ∈ touched, ¬ prepared.disk.SamePlace source path := by
    intro path hpath
    obtain ⟨target, -, hpath⟩ := hmem path hpath
    exact apart_of_suffix hsources (List.Subset.refl sources) hsuffix prepared.disk path hpath
  rw [htouches.read?_eq hapart]
  rcases (prepareOutput_cases hprepared).2 with ⟨-, hdisk⟩ | ⟨directory, -, -, hmade⟩
  · rw [hdisk]
  · exact (Disk.makes_makeDirectories hmade).read?_eq hplace

/-- The same sources are collected afterwards. -/
theorem Treats.collectSources_repeated (hsources : Collected options.settings before.disk sources)
    (hcollect : collectSources options.settings before.disk path = .ok sources)
    (hprepared : prepareOutput options.settings before = .ok () prepared)
    (h : Treats options.settings sources report prepared.disk after) :
    collectSources options.settings after path = .ok sources := by
  obtain ⟨touched, htouches, -⟩ := h.exists_touches
  have hkept : Disk.KeepsDirectories before.disk after :=
    (extends_prepareOutput hprepared).keeps.trans htouches.sameDirectories.keeps
  exact collectSources_of_read?_eq rfl hkept
    (fun source location => read?_of_suffix hsources hprepared h) hcollect

/-- A batch that is run again gives the same report and leaves the disk as it is. -/
theorem Treats.analyzePath_repeated (hsources : Collected options.settings before.disk sources)
    (hcollect : collectSources options.settings before.disk path = .ok sources)
    (hprepared : prepareOutput options.settings before = .ok () prepared)
    (h : Treats options.settings sources report prepared.disk after) (log : Array LogRecord) :
    ∃ last, analyzePath options.settings path ⟨after, log⟩ = .ok report last ∧
      ∀ location, last.disk.find? location = after.find? location := by
  have hcollect' : collectSources options.settings after path = .ok sources :=
    h.collectSources_repeated hsources hcollect hprepared
  obtain ⟨touched, htouches, hmem⟩ := h.exists_touches
  have hread : ∀ source ∈ sources, after.read? source = prepared.disk.read? source := by
    intro source hsource
    refine htouches.read?_eq fun path hpath => ?_
    obtain ⟨target, -, hpath⟩ := hmem path hpath
    exact source_apart hsources hsource (List.Subset.refl sources) prepared.disk path hpath
  obtain ⟨found, hanalyze⟩ := @analyzePath_of_collectSources _ _ ⟨after, log⟩ _ hcollect'
  obtain ⟨last, heach, hsettled⟩ : ∃ last,
      analyzeEach options.settings sources {} ⟨after, found⟩ = .ok report last ∧
      Disk.SettleAlike prepared.disk after after last.disk :=
    h.repeated hsources (List.Subset.refl sources) {} htouches.sameDirectories hread
  refine ⟨last, ?_, hsettled.fixed⟩
  rw [hanalyze]
  exact bind_eq_ok_iff.mpr
    ⟨(), _, prepareOutput_repeated hprepared htouches.sameDirectories found, heach⟩

/-- Away from the documents, only directories around that of the documents are new. -/
theorem Treats.find?_away (hprepared : prepareOutput options.settings before = .ok () prepared)
    (h : Treats options.settings sources report prepared.disk after) {location : Location}
    (haway : ∀ target, options.settings.format? = some target →
      ∀ path ∈ places options.settings target sources, after.resolve path ≠ .ok location) :
    after.find? location = before.disk.find? location ∨
      ∃ directory outer, options.settings.outputDir = some directory ∧ outer.IsAround directory ∧
        after.resolve outer = .ok location ∧ before.disk.find? location = none ∧
        after.find? location = some .directory := by
  obtain ⟨touched, htouches, hmem⟩ := h.exists_touches
  have hsame : after.find? location = prepared.disk.find? location := by
    refine htouches.elsewhere location fun path hpath hplace => ?_
    obtain ⟨target, htarget, hpath⟩ := hmem path hpath
    exact haway target htarget path hpath (htouches.resolve_iff.mpr hplace)
  rw [hsame]
  rcases (prepareOutput_cases hprepared).2 with ⟨-, hdisk⟩ | ⟨directory, hdirectory, -, hmade⟩
  · exact .inl (by rw [hdisk])
  · rcases (Disk.makes_makeDirectories hmade).location location with
      hleft | ⟨hnone, hnew, outer, haround, hplace⟩
    · exact .inl hleft
    · exact .inr ⟨directory, outer, hdirectory, haround, htouches.resolve_iff.mpr hplace, hnone,
        hnew⟩

end Whole

/-- **A batch touches its documents only, and can be run again.** Every source stays as it was. Away
from the places of the documents everything stays as it was, except that the directories are new
that were missing around that of the documents. Run again on the disk that it left, the batch gives
the same report and leaves the disk as it is. -/
theorem batch_repeats {options : CommandLine.Options} {path : String} {report : BatchReport}
    {before after : Workspace} (hnames : before.disk.WellNamed)
    (h : analyzePath options.settings (.ofString path) before = .ok report after) :
    ∃ sources, collectSources options.settings before.disk (.ofString path) = .ok sources ∧
      (∀ source ∈ sources, after.disk.read? source = before.disk.read? source) ∧
      (∀ location,
        (∀ target, options.settings.format? = some target → ∀ source ∈ sources,
          after.disk.resolve (options.settings.tokenOutput target source) ≠ .ok location ∧
          after.disk.resolve (options.settings.treeOutput target source) ≠ .ok location) →
        after.disk.find? location = before.disk.find? location ∨
          ∃ directory outer, options.settings.outputDir = some directory ∧
            outer.IsAround directory ∧ after.disk.resolve outer = .ok location ∧
            before.disk.find? location = none ∧ after.disk.find? location = some .directory) ∧
      ∀ log, ∃ last,
        analyzePath options.settings (.ofString path) ⟨after.disk, log⟩ = .ok report last ∧
        ∀ location, last.disk.find? location = after.disk.find? location := by
  obtain ⟨sources, prepared, hcollect, hprepared, htreats⟩ := analyzePath_steps h
  have hsources := collected_of_collectSources hnames hcollect
  refine ⟨sources, hcollect, fun source hsource => ?_, fun location haway => ?_,
    htreats.analyzePath_repeated hsources hcollect hprepared⟩
  · obtain ⟨bytes, hbytes⟩ := Disk.isFile_iff.mp (hsources.file source hsource)
    obtain ⟨location, hplace, -⟩ := Disk.read?_eq_some_iff.mp hbytes
    exact read?_of_suffix hsources hprepared htreats (hsources.ending source hsource) hplace
  · refine htreats.find?_away hprepared fun target htarget touched htouched => ?_
    obtain ⟨source, hsource, hplace⟩ := List.mem_flatMap.mp htouched
    obtain ⟨htoken, htree⟩ := haway target htarget source hsource
    rcases mem_outputPaths_iff.mp hplace with hplace | hplace <;> rw [hplace]
    · exact htoken
    · exact htree

/-- A batch with a class and a broken source, whose documents go to a directory that is made for
them, is run again. -/
theorem emptyClass_repeats :
    let options : CommandLine.Options := { path := ".", outDir := some (.value "out") }
    let disk : Disk := { here := ["w"]
                         entries := [(["w", "Main.jack"], .file emptyClass.toUTF8),
                                     (["w", "Other.jack"], .file "#".toUTF8)]
                         distinct := by decide }
    disk.WellNamed ∧
    ∃ report after,
      analyzePath options.settings (.ofString options.path) { disk } = .ok report after ∧
      report = ⟨[⟨0, ["Main.jack"]⟩],
        [(⟨0, ["Other.jack"]⟩, .lexical ⟨.unexpected '#', ⟨1, 1⟩⟩)]⟩ ∧
      ∃ last, analyzePath options.settings (.ofString options.path) { disk := after.disk } =
          .ok report last ∧
        ∀ location, last.disk.find? location = after.disk.find? location := by
  intro options disk
  have hnames : disk.WellNamed := by decide +kernel
  have htarget : options.settings.format? = some .xml := by decide
  have htoken : options.settings.tokenOutput .xml ⟨0, ["Main.jack"]⟩ =
      ⟨0, ["out", "MainT.xml"]⟩ := by decide +kernel
  have htree : options.settings.treeOutput .xml ⟨0, ["Main.jack"]⟩ =
      ⟨0, ["out", "Main.xml"]⟩ := by decide +kernel
  have hlisted : disk.names ["w"] = ["Main.jack", "Other.jack"] :=
    Disk.names_eq_of_ordered rfl (by decide)
  have hcollect : collectSources options.settings disk (.ofString options.path) =
      .ok [⟨0, ["Main.jack"]⟩, ⟨0, ["Other.jack"]⟩] := by
    rw [@collectSources_of_directory _ disk _ ["w"] (by decide +kernel) rfl, hlisted]
    decide +kernel
  obtain ⟨log, hanalyze⟩ := @analyzePath_of_collectSources _ _ { disk } _ hcollect
  have hprepared : prepareOutput options.settings ⟨disk, log⟩ =
      .ok () ⟨disk.insert ["w", "out"] .directory, log⟩ := rfl
  obtain ⟨after, heach, -⟩ := analyzeEach_emptyClass_hash ⟨0, ["Main.jack"]⟩
    ⟨0, ["Other.jack"]⟩ ⟨disk.insert ["w", "out"] .directory, log⟩ htarget
    (codec_settings options) rfl rfl htoken htree rfl rfl rfl rfl rfl (by decide +kernel)
  have hreport := hanalyze.trans (bind_eq_ok_iff.mpr ⟨(), _, hprepared, heach⟩)
  obtain ⟨-, -, -, -, hagain⟩ := batch_repeats hnames hreport
  exact ⟨hnames, _, after, hreport, rfl, hagain #[]⟩

end Batch

end JackSyntax
