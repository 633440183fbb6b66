import JackSyntax.Proofs.Batch.Reported
import JackSyntax.Proofs.Disk.Making
import JackSyntax.Proofs.Documents.Agreement
import JackSyntax.Proofs.Lexing.Failure
import JackSyntax.Proofs.Parsing.FirstError

/-!
# What stops a batch

A defect of a source does not stop a batch. With the settings of a command line few other faults can
arise: most of what could go wrong with an encoding, a token list or a tree never does, because
documents are encoded in UTF-8, the tokens were scanned and the tree was parsed.

## The model

* `Reported options disk fault`: a fault that the program reports itself. The path leads nowhere, or
  to a file that is no source; the path of the directory of the documents, or that of a source, has
  a NUL; or a source has a run of digits that is not converted.
* `Stray options disk fault`: a fault that breaks the program off. A file stands in the way of the
  directory of the documents; no format, or no indentation, was given where one belongs; or a margin
  of the indentation that was given is too wide.
* `Stops`, `Upsets`: either kind; either kind, or a defect of a source.
* `FailsOnly P run`: whatever the workspace, the run has only faults with the property.

## Results

* `failsOnly_bind`: the faults of two steps.
* `Artifacts.ofTokens_eq_error`, `readText_eq_error`, `document_eq_error`: how each step fails.
* **`failsOnly_analyzeFile`**: the faults of one source.
* **`stops_of_analyzePath`**: the faults of a batch.
* **`noDirectory_of_blocked`**, `unencodable_of_hasNul`: a file in the way of the directory of the
  documents, or a NUL in its path, always does stop it.
* **`tooWide_of_not_isIndex`**: an indentation that is no index stops the analysis of every source
  with a token.
* `stops_at_first_source`: what stops the analysis of the first source stops the batch.
-/

namespace JackSyntax

/-! ## Faults of a source text -/

/-- A token list is rejected; its cursor is never misused. -/
theorem Tree.rejected_of_ofTokens {tokens : List Token} {failure : Failure}
    (h : Tree.ofTokens tokens = .error failure) : ∃ error, failure = .rejected error := by
  obtain ⟨after, h⟩ := Tree.ofTokens_eq_error_iff.mp h
  obtain ⟨passed, cause, chain, -, rfl, -⟩ := Session.reads_of_parse_error h
  exact ⟨_, rfl⟩

/-- Scanned tokens have documents unless they are rejected, or a margin is too wide. -/
theorem Artifacts.ofTokens_eq_error {source : String} {tokens : List Token} {target : Target}
    {indent : Option Int} {fault : SourceFault} (hscan : Token.scan source = .ok tokens)
    (h : Artifacts.ofTokens target indent tokens = .error fault) :
    (∃ error, fault = .unmatched (.rejected error)) ∨
    fault = .unwritten (.refused .tooWide) ∧ ∃ width, indent = some width ∧
      Document.isIndex (width * Vocabulary.deepestNesting) = false := by
  cases hfirst : Document.fits target indent (Document.listingTree tokens) with
  | false =>
    rw [ofTokens_of_not_fits hfirst, Except.error.injEq] at h
    have hdepth := Document.depth_listingTree_le tokens
    exact .inr ⟨h.symm, Document.exists_of_not_fits hfirst (by decide)
      (Nat.le_trans hdepth (by decide))⟩
  | true =>
    have hmargins : Document.checkMargins target indent (Document.listingTree tokens) = .ok () :=
      Document.checkMargins_eq_ok_iff.mpr hfirst
    obtain ⟨listing, hlisting⟩ :=
      Document.exists_ofTree (areProper_map_ofToken tokens) target indent
    cases htree : Tree.ofTokens tokens with
    | error failure =>
      obtain ⟨error, rfl⟩ := Tree.rejected_of_ofTokens htree
      rw [ofTokens, hmargins, Document.listing, Document.listingTree, hlisting, htree] at h
      exact .inl ⟨error, (Except.error.inj h).symm⟩
    | ok tree =>
      cases hsecond : Document.fits target indent tree with
      | false =>
        rw [ofTokens, hmargins, Document.listing, Document.listingTree, hlisting, htree] at h
        simp only [bind, Except.bind, Except.mapError,
          Document.checkMargins_of_not_fits hsecond] at h
        exact .inr ⟨(Except.error.inj h).symm, Document.exists_of_not_fits hsecond (by decide)
          (Tree.depth_le_of_ofTokens htree)⟩
      | true =>
        obtain ⟨artifacts, hartifacts⟩ := Artifacts.exists_of_fits hscan htree hfirst hsecond
        rw [Artifacts.ofSource, hscan] at hartifacts
        cases h.symm.trans hartifacts

namespace Batch

/-! ## Faults that stop a batch -/

/-- The program reports the fault itself. -/
inductive Reported (options : CommandLine.Options) (disk : Disk) : Fault → Prop
  | notFound (hdirectory : disk.isDirectory (.ofString options.path) = false)
    (hfile : disk.isFile (.ofString options.path) = false) :
    Reported options disk (.defect (.access .notFound (.ofString options.path)))
  | notSource (hfile : disk.isFile (.ofString options.path) = true)
    (hending : (Path.ofString options.path).suffix ≠ options.settings.sourceSuffix) :
    Reported options disk (.notSource options.settings.sourceSuffix)
  | nul {path : Path} (hpath : options.settings.outputDir = some path ∨ disk.isFile path = true)
    (hnul : path.hasNul = true) : Reported options disk (.unencodable (.path path))
  | digits {count : Nat} {place : Place} (hmany : 4300 < count) :
    Reported options disk (.unread ⟨.tooManyDigits count, place⟩)

/-- The fault breaks the program off. -/
inductive Stray (options : CommandLine.Options) (disk : Disk) : Fault → Prop
  | blocked {directory told : Path} {fault : DiskFault}
    (hdirectory : options.settings.outputDir = some directory) (hnul : directory.hasNul = false)
    (hblocked : disk.Blocked directory) (hfault : fault = .exists ∨ fault = .notDirectory) :
    Stray options disk (.noDirectory fault told)
  | noFormat (htarget : options.target = .nothing) :
    Stray options disk (.unknownFormat options.settings)
  | noIndent (htarget : options.target = .value .xml) (hindent : options.indent = some .nothing) :
    Stray options disk .noIndent
  | tooWide {target : Target} {width : Int} (hindent : options.indent = some (.value width))
    (hwide : Document.isIndex (width * Vocabulary.deepestNesting) = false) :
    Stray options disk (.unwritten target (.refused .tooWide))

/-- The fault stops a batch. -/
def Stops (options : CommandLine.Options) (disk : Disk) (fault : Fault) : Prop :=
  Reported options disk fault ∨ Stray options disk fault

/-! ## Faults of a run -/

/-- Whatever the workspace, the run has only faults with the property. -/
def FailsOnly {α : Type} (P : Fault → Prop) (run : Run α) : Prop :=
  ∀ before fault after, run before = .error fault after → P fault

section FailsOnly

variable {α β : Type} {P : Fault → Prop}

theorem failsOnly_bind {run : Run α} {next : α → Run β} (h : FailsOnly P run)
    (hnext : ∀ value, FailsOnly P (next value)) : FailsOnly P (run >>= next) := by
  intro before fault after hbind
  rcases bind_eq_error hbind with hrun | ⟨value, middle, -, hrun⟩
  · exact h before fault after hrun
  · exact hnext value middle fault after hrun

theorem failsOnly_pure {value : α} : FailsOnly P (pure value : Run α) :=
  fun _ _ _ h => by cases h

end FailsOnly

/-! ## How the steps of an analysis fail -/

section Steps

variable {settings : Settings} {target : Target} {source : Path} {before after : Workspace}
  {fault : Fault}

theorem produce_of_hasNul (h : source.hasNul = true) :
    produce settings target source before = .error (.unencodable (.path source)) before := by
  simp only [produce, readSource, bind, EStateM.bind, checkPath_of_hasNul h]

theorem readText_eq_error (h : readText settings source before = .error fault after) :
    fault = .defect (.access .unreadable source) ∨
    settings.codec? = none ∧ fault = .unknownEncoding settings.encoding := by
  unfold readText at h
  split at h
  · cases h
    exact .inl rfl
  · split at h
    · rename_i hcodec
      cases h
      exact .inr ⟨hcodec, rfl⟩
    · split at h
      · cases h
        exact .inl rfl
      · cases h

/-- A text is not scanned, has no documents, or there is no indentation for them. -/
theorem document_eq_error {text : String}
    (h : document settings target text before = .error fault after) :
    (∃ error, Token.scan text = .error error ∧ fault = .ofLexError error) ∨
    (settings.indentFor? target = none ∧ fault = .noIndent) ∨
    ∃ tokens indent found, Token.scan text = .ok tokens ∧
      settings.indentFor? target = some indent ∧
      Artifacts.ofTokens target indent tokens = .error found ∧
      fault = .ofSourceFault target found := by
  unfold document at h
  cases hscan : Token.scan text with
  | error error =>
    rw [hscan] at h
    cases h
    exact .inl ⟨error, rfl, rfl⟩
  | ok tokens =>
    simp only [hscan, tell_bind] at h
    cases hindent : settings.indentFor? target with
    | none =>
      simp only [hindent] at h
      cases h
      exact .inr (.inl ⟨rfl, rfl⟩)
    | some indent =>
      simp only [hindent] at h
      cases hartifacts : Artifacts.ofTokens target indent tokens with
      | error found =>
        simp only [hartifacts] at h
        cases h
        exact .inr (.inr ⟨tokens, indent, found, rfl, rfl, hartifacts, rfl⟩)
      | ok artifacts =>
        simp only [hartifacts] at h
        cases h

/-- **An indentation that is no index stops the analysis of a source**, unless it has no tokens. -/
theorem tooWide_of_not_isIndex {text : String} {tokens : List Token} {width : Int}
    (htarget : settings.format? = some target)
    (hindent : settings.indentFor? target = some (some width))
    (hwide : Document.isIndex width = false)
    (htext : sourceText? settings before.disk source = some text)
    (hscan : Token.scan text = .ok tokens) (hsome : tokens ≠ []) :
    ∃ after, analyzeFile settings source before =
      .error (.unwritten target (.refused .tooWide)) after := by
  have hdocument : ∃ after, document settings target text before =
      .error (.unwritten target (.refused .tooWide)) after := by
    unfold document
    simp only [hscan, tell_bind, hindent, Artifacts.ofTokens_of_not_isIndex hwide hsome]
    exact ⟨_, rfl⟩
  obtain ⟨after, hdocument⟩ := hdocument
  have hproduce : produce settings target source before =
      .error (.unwritten target (.refused .tooWide)) after := by
    simp only [produce, bind, EStateM.bind, readSource_of_sourceText? htext, hdocument]
  simp only [analyzeFile, htarget, hproduce]
  exact ⟨after, rfl⟩

end Steps

/-! ## Faults of one source -/

/-- The fault is a defect of a source, or stops the batch. -/
def Upsets (options : CommandLine.Options) (disk : Disk) (fault : Fault) : Prop :=
  (∃ defect, fault = .defect defect) ∨ Stops options disk fault

section OneSource

variable {options : CommandLine.Options} {disk : Disk} {target : Target} {source : Path}

/-- The format of a command line is known, if one was given. -/
theorem format?_settings (options : CommandLine.Options) :
    options.settings.format? = options.target.value? := by
  change (options.target.map Target.name).value?.bind Target.ofName? = options.target.value?
  cases options.target with
  | nothing => rfl
  | value target => cases target <;> decide

theorem target_eq_of_format? (h : options.settings.format? = some target) :
    options.target = .value target := by
  rw [format?_settings] at h
  cases htarget : options.target with
  | nothing =>
    rw [htarget] at h
    cases h
  | value found =>
    rw [htarget] at h
    exact congrArg Given.value (Option.some.inj h)

/-- Only markup that nothing was given for as its indentation has none. -/
theorem indentFor?_eq_none (h : options.settings.indentFor? target = none) :
    target = .xml ∧ options.indent = some .nothing := by
  unfold Settings.indentFor? at h
  split at h
  · cases h
  · cases h
  · cases h
  · rename_i hindent
    exact ⟨rfl, hindent⟩

/-- A command line gives an indentation, or JSON goes on one line. -/
theorem indent_of_indentFor? {width : Int}
    (h : options.settings.indentFor? target = some (some width)) :
    options.indent = some (.value width) ∨ width = 0 := by
  unfold Settings.indentFor? at h
  split at h
  · cases h
  · rename_i hindent
    cases h
    exact .inl hindent
  · cases h
    exact .inr rfl
  · cases h

/-- A text that is not scanned is a defect, or has a run of digits that is not converted. -/
theorem upsets_ofLexError {text : String} {error : LexError} (h : Token.scan text = .error error) :
    Upsets options disk (.ofLexError error) := by
  obtain ⟨before, rest, tokens, -, -, hmalformed, -⟩ := malformed_of_scan h
  obtain ⟨cause, place⟩ := error
  cases hmalformed with
  | comment | string | integer | character => exact .inl ⟨_, rfl⟩
  | digits _ hmany => exact .inr (.inl (.digits hmany))

theorem failsOnly_checkPath {path : Path} (hnul : path.hasNul = false) :
    FailsOnly (Upsets options disk) (checkPath path) := by
  intro before fault after h
  rw [checkPath_eq_ok_iff.mpr ⟨hnul, rfl⟩] at h
  cases h

theorem failsOnly_readSource (hsource : source.hasNul = false) :
    FailsOnly (Upsets options disk) (readSource options.settings source) := by
  refine failsOnly_bind (failsOnly_checkPath hsource) fun _ before fault after h => ?_
  rcases readText_eq_error h with rfl | ⟨hnone, -⟩
  · exact .inl ⟨_, rfl⟩
  · rw [codec_settings options] at hnone
    cases hnone

theorem failsOnly_document {text : String} (htarget : options.settings.format? = some target) :
    FailsOnly (Upsets options disk) (document options.settings target text) := by
  intro before fault after h
  rcases document_eq_error h with
    ⟨error, hscan, rfl⟩ | ⟨hnone, rfl⟩ | ⟨tokens, indent, found, hscan, hindent, hartifacts, rfl⟩
  · exact upsets_ofLexError hscan
  · obtain ⟨rfl, hnothing⟩ := indentFor?_eq_none hnone
    exact .inr (.inr (.noIndent (target_eq_of_format? htarget) hnothing))
  · rcases Artifacts.ofTokens_eq_error hscan hartifacts with
      ⟨error, rfl⟩ | ⟨rfl, width, rfl, hwide⟩
    · exact .inl ⟨.grammatical error, rfl⟩
    · rcases indent_of_indentFor? hindent with hgiven | rfl
      · exact .inr (.inr (.tooWide hgiven hwide))
      · cases hwide

theorem failsOnly_writeDocument {path : Path} {text : String} (hnul : path.hasNul = false) :
    FailsOnly (Upsets options disk) (writeDocument options.settings.codec? path text) := by
  refine failsOnly_bind (failsOnly_checkPath hnul) fun _ before fault after h => ?_
  have hencode : Text.Codec.utf8.encode text = some text.toUTF8 := rfl
  simp only [writeText, codec_settings options, Option.bind_some, hencode, Option.isSome_some,
    reduceIte] at h
  split at h
  · cases h
    exact .inl ⟨_, rfl⟩
  · cases h

theorem failsOnly_writeDocuments {documents : List (Path × String)}
    (hnul : ∀ path ∈ documents.map (·.1), path.hasNul = false) :
    FailsOnly (Upsets options disk) (writeDocuments options.settings.codec? documents) := by
  induction documents with
  | nil => exact failsOnly_pure
  | cons first rest ih =>
    obtain ⟨hfirst, hrest⟩ := List.forall_mem_cons.mp hnul
    exact failsOnly_bind (failsOnly_writeDocument hfirst) fun _ => ih hrest

section Places

variable (hfile : disk.isFile source = true)
  (hdirectory : ∀ directory, options.settings.outputDir = some directory →
    directory.hasNul = false)

include hdirectory in
/-- No document of a source has a NUL in its path, unless the source has. -/
theorem hasNul_outputPaths (hsource : source.hasNul = false) :
    ∀ path ∈ outputPaths options.settings target source, path.hasNul = false := by
  intro path hpath
  rcases mem_outputPaths_iff.mp hpath with hplace | hplace
  · rw [hplace, tokenOutput_eq]
    exact hasNul_output hsource hdirectory (by decide)
  · rw [hplace, treeOutput_eq]
    exact hasNul_output hsource hdirectory (by decide)

include hfile hdirectory

theorem failsOnly_produce (htarget : options.settings.format? = some target) :
    FailsOnly (Upsets options disk) (produce options.settings target source) := by
  cases hsource : source.hasNul with
  | true =>
    intro before fault after h
    rw [produce_of_hasNul hsource] at h
    cases h
    exact .inr (.inl (.nul (.inr hfile) hsource))
  | false =>
    unfold produce
    refine failsOnly_bind (failsOnly_readSource hsource) fun text => ?_
    refine failsOnly_bind (failsOnly_document htarget) fun artifacts => ?_
    refine failsOnly_bind (failsOnly_writeDocuments fun path hpath => ?_) fun _ => failsOnly_pure
    exact hasNul_outputPaths hdirectory hsource path (outputs_subset hpath)

/-- **The faults of one source**: a defect, a run of digits that is not converted, a NUL in its
path, a margin that is too wide, or nothing given where a format or an indentation belongs. -/
theorem failsOnly_analyzeFile :
    FailsOnly (Upsets options disk) (analyzeFile options.settings source) := by
  intro before fault after h
  rcases analyzeFile_eq_error h with
    ⟨hnone, rfl⟩ | ⟨target, htarget, ⟨hrun, -⟩ | ⟨defect, middle, hrun, hgiven⟩⟩
  · rw [format?_settings] at hnone
    cases hgiven : options.target with
    | nothing => exact .inr (.inr (.noFormat hgiven))
    | value target =>
      rw [hgiven] at hnone
      cases hnone
  · exact failsOnly_produce hfile hdirectory htarget before fault after hrun
  · rcases giveUp_eq_error hgiven with ⟨rfl, -⟩ | ⟨path, hpath, hnul, -⟩
    · exact .inl ⟨defect, rfl⟩
    · cases hsource : source.hasNul with
      | true =>
        rw [produce_of_hasNul hsource] at hrun
        cases hrun
      | false =>
        rw [hasNul_outputPaths hdirectory hsource path hpath] at hnul
        cases hnul

end Places

end OneSource

/-! ## Faults of a batch -/

section Batch

variable {options : CommandLine.Options} {disk : Disk} {sources : List Path}
  {before after : Workspace} {fault : Fault}

/-- A defect does not stop sources that are treated in turn. -/
theorem failsOnly_analyzeEach (hfiles : ∀ source ∈ sources, disk.isFile source = true)
    (hdirectory : ∀ directory, options.settings.outputDir = some directory →
      directory.hasNul = false) {start : BatchReport} :
    FailsOnly (Stops options disk) (analyzeEach options.settings sources start) := by
  induction sources generalizing start with
  | nil => exact failsOnly_pure
  | cons source rest ih =>
    obtain ⟨hfile, hrest⟩ := List.forall_mem_cons.mp hfiles
    intro before fault after h
    unfold analyzeEach at h
    split at h
    · exact ih hrest _ _ _ h
    · exact ih hrest _ _ _ h
    · rename_i hother hsource
      cases h
      rcases failsOnly_analyzeFile hfile hdirectory before fault after hsource with
        ⟨defect, rfl⟩ | hstops
      · exact absurd rfl (hother defect)
      · exact hstops

theorem makeOutput_eq_error {directory : Path}
    (h : makeOutput directory before = .error fault after) :
    ∃ cause told, fault = .noDirectory cause told ∧
      (cause = .exists ∨ cause = .notDirectory) ∧ before.disk.Blocked directory := by
  unfold makeOutput at h
  split at h
  · cases h
  · rename_i cause told disk herror
    cases h
    exact ⟨cause, told, rfl, Disk.makeDirectories_eq_error herror⟩

/-- The directory of the documents is not made only where its path has a NUL or a file is in the
way. -/
theorem prepareOutput_eq_error (h : prepareOutput options.settings before = .error fault after) :
    Stops options before.disk fault := by
  cases hdirectory : options.settings.outputDir with
  | none =>
    rw [prepareOutput_of_none hdirectory] at h
    cases h
  | some directory =>
    rw [prepareOutput_of_some hdirectory] at h
    cases hnul : directory.hasNul with
    | true =>
      simp only [bind, EStateM.bind, checkPath_of_hasNul hnul] at h
      cases h
      exact .inl (.nul (.inl hdirectory) hnul)
    | false =>
      rw [checkPath_bind hnul] at h
      obtain ⟨cause, told, rfl, hcause, hblocked⟩ := makeOutput_eq_error h
      exact .inr (.blocked hdirectory hnul hblocked hcause)

theorem collectSources_eq_error
    (h : collectSources options.settings disk (.ofString options.path) = .error fault) :
    Reported options disk fault := by
  unfold collectSources at h
  split at h
  · cases h
  · rename_i hdirectory
    split at h
    · rename_i hfile
      split at h
      · cases h
      · rename_i hending
        cases h
        exact .notSource hfile fun heq => hending (beq_iff_eq.mpr heq)
    · rename_i hfile
      cases h
      exact .notFound (Bool.not_eq_true _ ▸ hdirectory) (Bool.not_eq_true _ ▸ hfile)

/-- **The faults of a batch.** -/
theorem stops_of_analyzePath
    (h : analyzePath options.settings (.ofString options.path) before = .error fault after) :
    Stops options before.disk fault := by
  cases hcollect : collectSources options.settings before.disk (.ofString options.path) with
  | error found =>
    rw [analyzePath_of_collectSources_error hcollect] at h
    cases h
    exact .inl (collectSources_eq_error hcollect)
  | ok sources =>
    obtain ⟨log, hrest⟩ := analyzePath_of_collectSources hcollect
    rcases bind_eq_error (hrest.symm.trans h) with hprepare | ⟨_, prepared, hprepare, heach⟩
    · exact (prepareOutput_eq_error hprepare :)
    · have hfiles : ∀ source ∈ sources, before.disk.isFile source = true := fun source hsource =>
        (Bool.and_eq_true_iff.mp (isSource_of_mem_collectSources hcollect hsource)).1
      have hnul := hasNul_of_prepareOutput hprepare
      exact failsOnly_analyzeEach hfiles hnul prepared fault after heach

/-- A directory that cannot be made stops the batch, whatever the sources. -/
theorem noDirectory_of_makeDirectories {path directory told : Path} {cause : DiskFault}
    {left : Disk} (hcollect : collectSources options.settings before.disk path = .ok sources)
    (hdirectory : options.settings.outputDir = some directory) (hnul : directory.hasNul = false)
    (hmake : Disk.makeDirectories directory before.disk = .error (cause, told) left) :
    ∃ after, analyzePath options.settings path before = .error (.noDirectory cause told) after := by
  obtain ⟨log, hrest⟩ := analyzePath_of_collectSources hcollect
  refine ⟨⟨left, log⟩, ?_⟩
  rw [hrest, prepareOutput_of_some hdirectory]
  simp only [bind, EStateM.bind, checkPath_eq_ok_iff.mpr ⟨hnul, rfl⟩, makeOutput, hmake]

/-- **A file in the way of the directory of the documents stops the batch**, whatever the sources.
-/
theorem noDirectory_of_blocked {path directory : Path}
    (hcollect : collectSources options.settings before.disk path = .ok sources)
    (hdirectory : options.settings.outputDir = some directory) (hnul : directory.hasNul = false)
    (hblocked : before.disk.Blocked directory) :
    ∃ cause told after,
      analyzePath options.settings path before = .error (.noDirectory cause told) after := by
  cases hmade : Disk.makeDirectories directory before.disk with
  | ok _ disk => exact absurd hblocked (Disk.not_blocked_of_makeDirectories hmade)
  | error failure left =>
    exact ⟨failure.1, failure.2, noDirectory_of_makeDirectories hcollect hdirectory hnul hmade⟩

/-- The first source stops the batch when its own analysis does, unless that finds a defect. -/
theorem stops_at_first_source {path source : Path} {rest : List Path}
    (hcollect : collectSources options.settings before.disk path = .ok (source :: rest))
    (hbeside : options.settings.outputDir = none) (hfault : ∀ defect, fault ≠ .defect defect)
    (hsource : analyzeFile options.settings source before = .error fault after) :
    analyzePath options.settings path before = .error fault after := by
  rw [analyzePath_beside hcollect rfl hbeside]
  cases fault with
  | defect defect => exact absurd rfl (hfault defect)
  | _ => simp only [analyzeEach, hsource]

/-- A NUL in the path of that directory stops it too, and nothing is done. -/
theorem unencodable_of_hasNul {path directory : Path}
    (hcollect : collectSources options.settings before.disk path = .ok sources)
    (hdirectory : options.settings.outputDir = some directory) (hnul : directory.hasNul = true) :
    ∃ after, analyzePath options.settings path before =
      .error (.unencodable (.path directory)) after ∧ after.disk = before.disk := by
  obtain ⟨log, hrest⟩ := analyzePath_of_collectSources hcollect
  refine ⟨⟨before.disk, log⟩, ?_, rfl⟩
  rw [hrest, prepareOutput_of_some hdirectory]
  simp only [bind, EStateM.bind, checkPath_of_hasNul hnul]

end Batch

end Batch

end JackSyntax
