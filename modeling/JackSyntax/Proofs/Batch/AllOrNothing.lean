import JackSyntax.Proofs.Batch.OneSource
import JackSyntax.Proofs.Lexing.Splitting

/-!
# One source: all documents or none

The analysis of one source leaves all of its documents or, when the source has a defect, none of
them.

## Results

* **`analyzeFile_all_or_nothing`**: the analysis of one source, seen through the disk.
* `listing_is_overwritten`: two paths that differ may still lead to one place.
-/

namespace JackSyntax.Batch

/-! ## One source and its documents -/

/-- A class without members. -/
def emptyClass : String :=
  "class Main \x7b\x7d"

/-- The documents of that class. -/
def emptyClassArtifacts : Artifacts where
  listing := "<tokens>\n<keyword> class </keyword>\n<identifier> Main </identifier>\n" ++
    "<symbol> \x7b </symbol>\n<symbol> \x7d </symbol>\n</tokens>\n"
  tree := "<class>\n<keyword> class </keyword>\n<identifier> Main </identifier>\n" ++
    "<symbol> \x7b </symbol>\n<symbol> \x7d </symbol>\n</class>\n"

theorem scan_emptyClass : Token.scan emptyClass =
    .ok [⟨.keyword, "class", ⟨1, 1⟩⟩, ⟨.identifier, "Main", ⟨1, 7⟩⟩, ⟨.symbol, "\x7b", ⟨1, 12⟩⟩,
      ⟨.symbol, "\x7d", ⟨1, 13⟩⟩] :=
  Token.scan_of_outcomeIn (show (Reader.ofString emptyClass).outcomeIn 5 = some _ by decide +kernel)

theorem ofSource_emptyClass :
    Artifacts.ofSource .xml none emptyClass = .ok emptyClassArtifacts := by
  rw [Artifacts.ofSource, scan_emptyClass]
  decide +kernel

theorem decode_toUTF8 (text : String) : Text.Encoding.utf8.decode text.toUTF8 = some text := by
  rw [Text.Encoding.decode, String.toUTF8_eq_toByteArray, String.fromUTF8?,
    dif_pos text.isValidUTF8]
  rfl

theorem codec?_of_ofName? {settings : Settings} {encoding : Text.Encoding}
    (hname : Text.Encoding.ofName? settings.encoding = some encoding)
    (hcodecs : settings.codecs = Text.Codec.ofName?) : settings.codec? = some encoding.codec := by
  rw [Settings.codec?, hcodecs, Text.Codec.ofName?, hname]
  rfl

/-- The built-in codecs hold UTF-8 under its usual name. -/
theorem codec?_of_utf8 {settings : Settings} (hname : settings.encoding = "utf-8")
    (hcodecs : settings.codecs = Text.Codec.ofName?) : settings.codec? = some .utf8 := by
  have hfound : Text.Encoding.ofName? "utf-8" = some .utf8 := by decide +kernel
  exact codec?_of_ofName? (hname ▸ hfound) hcodecs

theorem sourceText?_of_read? {settings : Settings} {disk : Disk} {source : Path} {text : String}
    (hnul : source.hasNul = false) (hread : disk.read? source = some text.toUTF8)
    (hcodec : settings.codec? = some .utf8)
    (hplain : Text.normalizeNewlines text.toList = text.toList) :
    sourceText? settings disk source = some text := by
  refine sourceText?_eq_some_iff.mpr ⟨hnul, _, _, text, hread, hcodec, decode_toUTF8 text, ?_⟩
  rw [hplain, String.ofList_toList]

/-- The documents of a file that holds that class. -/
theorem artifacts?_emptyClass {settings : Settings} {disk : Disk} {source : Path}
    (hnul : source.hasNul = false) (hread : disk.read? source = some emptyClass.toUTF8)
    (hcodec : settings.codec? = some .utf8) (hindent : settings.indentFor? .xml = some none) :
    artifacts? settings .xml disk source = some emptyClassArtifacts := by
  have htext := sourceText?_of_read? hnul hread hcodec (by decide +kernel)
  simp only [artifacts?, htext, hindent, ofSource_emptyClass, Option.bind_some, Except.toOption]

theorem analyzeFile_of_emptyClass {settings : Settings} {source token tree : Path} {disk : Disk}
    (before : Workspace) (htarget : settings.format? = some .xml)
    (hcodec : settings.codec? = some .utf8)
    (hindent : settings.indentFor? .xml = some none) (htokens : settings.writeTokens = true)
    (htoken : settings.tokenOutput .xml source = token)
    (htree : settings.treeOutput .xml source = tree) (hnul : source.hasNul = false)
    (hread : before.disk.read? source = some emptyClass.toUTF8)
    (hwritten : written? .utf8 [(token, emptyClassArtifacts.listing),
      (tree, emptyClassArtifacts.tree)] before.disk = some disk) :
    ∃ after, analyzeFile settings source before = .ok [token, tree] after ∧ after.disk = disk := by
  have houtputs : outputs settings .xml source emptyClassArtifacts =
      [(token, emptyClassArtifacts.listing), (tree, emptyClassArtifacts.tree)] := by
    rw [outputs, if_pos htokens, htoken, htree]
  have hreturns := analyzeFile_of_written? htarget hcodec
    (artifacts?_emptyClass hnul hread hcodec hindent) (houtputs ▸ hwritten)
  rwa [houtputs] at hreturns

/-! ## All or nothing -/

/-- **All or nothing.** When the analysis of a source returns, it returns the paths of its documents
in order: the tree stands at its path, and the listing at its own when one was asked for and the two
paths do not lead to one place. When it finds a defect, there is a file at neither path. Either way
nothing stands differently at any other place. The format and the encoding may be any that are
known: `codec` is whatever the table of the settings holds. -/
theorem analyzeFile_all_or_nothing {settings : Settings} {target : Target} {codec : Text.Codec}
    (source : Path) (before : Workspace) (htarget : settings.format? = some target)
    (hcodec : settings.codec? = some codec) :
    (∀ paths after, analyzeFile settings source before = .ok paths after →
      paths = (if settings.writeTokens then
          [settings.tokenOutput target source, settings.treeOutput target source]
        else [settings.treeOutput target source]) ∧
      (∃ artifacts, artifacts? settings target before.disk source = some artifacts ∧
        after.disk.Holds codec (settings.treeOutput target source) artifacts.tree ∧
        (settings.writeTokens = true →
          ¬ before.disk.SamePlace (settings.tokenOutput target source)
            (settings.treeOutput target source) →
          after.disk.Holds codec (settings.tokenOutput target source) artifacts.listing)) ∧
      ∀ location, (∀ path ∈ paths, before.disk.resolve path ≠ .ok location) →
        after.disk.find? location = before.disk.find? location) ∧
    ∀ defect after, analyzeFile settings source before = .error (.defect defect) after →
      after.disk.isFile (settings.tokenOutput target source) = false ∧
      after.disk.isFile (settings.treeOutput target source) = false ∧
      ∀ location, before.disk.resolve (settings.tokenOutput target source) ≠ .ok location →
        before.disk.resolve (settings.treeOutput target source) ≠ .ok location →
        after.disk.find? location = before.disk.find? location := by
  refine ⟨fun paths after h => ?_, fun defect after h => ?_⟩
  · obtain ⟨artifacts, hartifacts, hpaths, htouches, htree, hlisting⟩ :=
      analyzeFile_eq_ok htarget hcodec h
    refine ⟨?_, ⟨artifacts, hartifacts, htree, hlisting⟩, htouches.elsewhere⟩
    rw [hpaths, map_fst_outputs, outputPaths]
  · have hgone := analyzeFile_eq_defect htarget h
    have htouches := (touchesOnly_analyzeFile htarget).of_eq_error h
    refine ⟨hgone _ (mem_outputPaths_iff.mpr (.inl rfl)),
      hgone _ (mem_outputPaths_iff.mpr (.inr rfl)), fun location htoken htree => ?_⟩
    refine htouches.elsewhere location fun path hpath => ?_
    rcases mem_outputPaths_iff.mp hpath with hplace | hplace
    · rw [hplace]
      exact htoken
    · rw [hplace]
      exact htree

/-- A class without members is analysed, and both of its documents stand on the disk. -/
theorem analyzeFile_emptyClass :
    let disk : Disk := { here := ["w"]
                         entries := [(["w", "Main.jack"], .file emptyClass.toUTF8)]
                         distinct := by decide }
    ({} : Settings).format? = some .xml ∧ ({} : Settings).codec? = some .utf8 ∧
    ∃ after, analyzeFile {} ⟨0, ["Main.jack"]⟩ { disk } =
        .ok [⟨0, ["MainT.xml"]⟩, ⟨0, ["Main.xml"]⟩] after ∧
      after.disk.Holds .utf8 ⟨0, ["MainT.xml"]⟩ emptyClassArtifacts.listing ∧
      after.disk.Holds .utf8 ⟨0, ["Main.xml"]⟩ emptyClassArtifacts.tree := by
  intro disk
  have htarget : ({} : Settings).format? = some .xml := by decide
  have hcodec : ({} : Settings).codec? = some .utf8 := codec?_of_utf8 rfl rfl
  have htoken : ({} : Settings).tokenOutput .xml ⟨0, ["Main.jack"]⟩ = ⟨0, ["MainT.xml"]⟩ := by
    decide +kernel
  have htree : ({} : Settings).treeOutput .xml ⟨0, ["Main.jack"]⟩ = ⟨0, ["Main.xml"]⟩ := by
    decide +kernel
  obtain ⟨after, hreturns, -⟩ := analyzeFile_of_emptyClass { disk } htarget hcodec
    rfl rfl htoken htree rfl rfl rfl
  have hall := analyzeFile_all_or_nothing ⟨0, ["Main.jack"]⟩ { disk } htarget hcodec
  obtain ⟨-, ⟨artifacts, hmade, htreeHolds, hlistingHolds⟩, -⟩ := hall.1 _ after hreturns
  rw [artifacts?_emptyClass rfl rfl hcodec rfl] at hmade
  cases hmade
  rw [htree] at htreeHolds hlistingHolds
  rw [htoken] at hlistingHolds
  refine ⟨htarget, hcodec, after, hreturns, hlistingHolds rfl ?_, htreeHolds⟩
  rintro ⟨location, hlisting, hplace⟩
  have hfirst : disk.resolve ⟨0, ["MainT.xml"]⟩ = .ok ["w", "MainT.xml"] := rfl
  have hsecond : disk.resolve ⟨0, ["Main.xml"]⟩ = .ok ["w", "Main.xml"] := rfl
  rw [hfirst] at hlisting
  rw [hsecond] at hplace
  exact absurd (hlisting.trans hplace.symm) (by decide)

/-- Two paths that differ may still lead to one place: the tree is written over the listing. -/
theorem listing_is_overwritten :
    let settings : Settings := { treeSuffix := "/../MainT" }
    let disk : Disk := { here := ["w"]
                         entries := [(["w", "Main.jack"], .file emptyClass.toUTF8),
                                     (["w", "Main"], .directory)]
                         distinct := by decide }
    settings.format? = some .xml ∧ settings.codec? = some .utf8 ∧
    settings.tokenOutput .xml ⟨0, ["Main.jack"]⟩ ≠ settings.treeOutput .xml ⟨0, ["Main.jack"]⟩ ∧
    artifacts? settings .xml disk ⟨0, ["Main.jack"]⟩ = some emptyClassArtifacts ∧
    ∃ after, analyzeFile settings ⟨0, ["Main.jack"]⟩ { disk } =
        .ok [⟨0, ["MainT.xml"]⟩, ⟨0, ["Main", "..", "MainT.xml"]⟩] after ∧
      ¬ after.disk.Holds .utf8 (settings.tokenOutput .xml ⟨0, ["Main.jack"]⟩)
        emptyClassArtifacts.listing := by
  intro settings disk
  have htarget : settings.format? = some .xml := by decide
  have hcodec : settings.codec? = some .utf8 := codec?_of_utf8 rfl rfl
  have htoken : settings.tokenOutput .xml ⟨0, ["Main.jack"]⟩ = ⟨0, ["MainT.xml"]⟩ := by
    decide +kernel
  have htree : settings.treeOutput .xml ⟨0, ["Main.jack"]⟩ = ⟨0, ["Main", "..", "MainT.xml"]⟩ := by
    decide +kernel
  obtain ⟨after, hreturns, hdisk⟩ := analyzeFile_of_emptyClass { disk } htarget hcodec
    rfl rfl htoken htree rfl rfl rfl
  refine ⟨htarget, hcodec, ?_, artifacts?_emptyClass rfl rfl hcodec rfl, after, hreturns, ?_⟩
  · rw [htoken, htree]
    decide
  · rw [htoken, hdisk]
    rintro ⟨bytes, hlisting, hread⟩
    have hbytes : bytes = emptyClassArtifacts.tree.toUTF8 := Option.some.inj (hread.symm.trans rfl)
    have hsame := decode_toUTF8 emptyClassArtifacts.listing
    have hencode : Text.Codec.utf8.encode emptyClassArtifacts.listing =
        some emptyClassArtifacts.listing.toUTF8 := rfl
    rw [Option.some.inj (hencode.symm.trans hlisting), hbytes, decode_toUTF8] at hsame
    exact absurd hsame (by decide)

end JackSyntax.Batch
