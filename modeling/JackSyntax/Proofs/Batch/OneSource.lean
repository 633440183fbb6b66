import JackSyntax.Batch
import JackSyntax.Proofs.Disk.Touching

/-!
# The analysis of one source

What the analysis of one source does to the disk. It touches nothing but the places of the documents
of the source; these are told by the text of the source alone.

## The model

* `Disk.Holds`: the text stands at a path in an encoding.
* `sourceText?`, `artifacts?`: the text of a source on a disk and the documents of that text, told
  without running anything. Nothing is read at a path with a NUL.
* `TouchesOnly paths run`: on every workspace, the run touches the places of the paths only.
* `written?`: the disk once some documents are written.

## Results

* `touchesOnly_bind`: what two steps touch; from it, **`touchesOnly_analyzeFile`**.
* `holds_of_writeDocuments`: a document that was written stands on the disk, unless a later one went
  to the same place.
* **`analyzeFile_eq_ok`**, `analyzeFile_eq_defect`: what an analysis has done that ends well, or
  with a defect.
* `analyzeFile_of_written?`, `analyzeFile_of_scan_error`: when it ends so.
-/

namespace JackSyntax

/-! ## What stands on a disk -/

/-- The text stands at the path, in the encoding of the codec. -/
def Disk.Holds (disk : Disk) (codec : Text.Codec) (path : Path) (text : String) : Prop :=
  ∃ bytes, codec.encode text = some bytes ∧ disk.read? path = some bytes

theorem Disk.Holds.of_touches {before after : Disk} {codec : Text.Codec} {path : Path}
    {text : String} {paths : List Path} (h : before.Holds codec path text)
    (htouches : Disk.Touches paths before after)
    (hapart : ∀ touched ∈ paths, ¬ before.SamePlace path touched) :
    after.Holds codec path text := by
  obtain ⟨bytes, hbytes, hread⟩ := h
  exact ⟨bytes, hbytes, by rw [htouches.read?_eq hapart, hread]⟩

theorem Disk.Holds.read?_eq {first second : Disk} {codec : Text.Codec} {path : Path}
    {text : String} (h : first.Holds codec path text) (h' : second.Holds codec path text) :
    second.read? path = first.read? path := by
  obtain ⟨bytes, hbytes, hread⟩ := h
  obtain ⟨bytes', hbytes', hread'⟩ := h'
  rw [hread, hread', ← hbytes, hbytes']

namespace Batch

/-- The text of a source, its lines ended by newlines alone. -/
def sourceText? (settings : Settings) (disk : Disk) (source : Path) : Option String :=
  if source.hasNul then none
  else (disk.read? source).bind fun bytes => settings.codec?.bind fun codec =>
    (codec.decode bytes).map fun text => String.ofList (Text.normalizeNewlines text.toList)

theorem sourceText?_eq_some_iff {settings : Settings} {disk : Disk} {source : Path}
    {text : String} : sourceText? settings disk source = some text ↔
      source.hasNul = false ∧ ∃ bytes codec decoded, disk.read? source = some bytes ∧
        settings.codec? = some codec ∧ codec.decode bytes = some decoded ∧
        text = String.ofList (Text.normalizeNewlines decoded.toList) := by
  unfold sourceText?
  split
  · rename_i hnul
    simp [hnul]
  · rename_i hnul
    simp only [Bool.not_eq_true _ ▸ hnul, true_and, Option.bind_eq_some_iff,
      Option.map_eq_some_iff]
    constructor
    · rintro ⟨bytes, hbytes, codec, hcodec, decoded, hdecoded, rfl⟩
      exact ⟨bytes, codec, decoded, hbytes, hcodec, hdecoded, rfl⟩
    · rintro ⟨bytes, codec, decoded, hbytes, hcodec, hdecoded, rfl⟩
      exact ⟨bytes, hbytes, codec, hcodec, decoded, hdecoded, rfl⟩

/-- The documents of a source, if nothing is wrong with it. -/
def artifacts? (settings : Settings) (target : Target) (disk : Disk) (source : Path) :
    Option Artifacts :=
  (sourceText? settings disk source).bind fun text =>
    (settings.indentFor? target).bind fun indent => (Artifacts.ofSource target indent text).toOption

theorem artifacts?_congr {settings : Settings} {target : Target} {before after : Disk}
    {source : Path} (h : after.read? source = before.read? source) :
    artifacts? settings target after source = artifacts? settings target before source := by
  rw [artifacts?, artifacts?, sourceText?, sourceText?, h]

theorem tell_bind {α : Type} {level : LogLevel} {part text : String} {next : Unit → Run α}
    {workspace : Workspace} :
    (tell level part text >>= next) workspace = next () (workspace.tell level part text) := rfl

theorem checkPath_of_hasNul {path : Path} (h : path.hasNul = true) (workspace : Workspace) :
    checkPath path workspace = .error (.unencodable (.path path)) workspace := by
  rw [checkPath, if_pos h]

theorem checkPath_eq_ok_iff {path : Path} {before after : Workspace} :
    checkPath path before = .ok () after ↔ path.hasNul = false ∧ after = before := by
  unfold checkPath
  split
  · rename_i hnul
    simp [hnul]
  · rename_i hnul
    simp [Bool.not_eq_true _ ▸ hnul, eq_comm]

/-- A path without a NUL is let through. -/
theorem checkPath_bind {α : Type} {path : Path} {next : Unit → Run α} {workspace : Workspace}
    (h : path.hasNul = false) : (checkPath path >>= next) workspace = next () workspace := by
  simp only [bind, EStateM.bind, checkPath_eq_ok_iff.mpr ⟨h, rfl⟩]

/-! ## What a run touches -/

/-- Whether it fails or not, the run changes files at the places of the paths only. -/
def TouchesOnly {α : Type} (paths : List Path) (run : Run α) : Prop :=
  ∀ workspace, Disk.Touches paths workspace.disk (finalState (run workspace)).disk

section TouchesOnly

variable {α β : Type} {paths more : List Path} {settings : Settings} {target : Target}
  {source : Path}

theorem TouchesOnly.mono {run : Run α} (h : TouchesOnly paths run) (hpaths : paths ⊆ more) :
    TouchesOnly more run :=
  fun workspace => (h workspace).mono hpaths

theorem TouchesOnly.of_eq_ok {run : Run α} {before after : Workspace} {value : α}
    (h : TouchesOnly paths run) (hrun : run before = .ok value after) :
    Disk.Touches paths before.disk after.disk := by
  have hfinal := h before
  rwa [hrun] at hfinal

theorem TouchesOnly.of_eq_error {run : Run α} {before after : Workspace} {fault : Fault}
    (h : TouchesOnly paths run) (hrun : run before = .error fault after) :
    Disk.Touches paths before.disk after.disk := by
  have hfinal := h before
  rwa [hrun] at hfinal

theorem touchesOnly_of_disk_eq {run : Run α}
    (h : ∀ workspace, (finalState (run workspace)).disk = workspace.disk) :
    TouchesOnly paths run := by
  intro workspace
  rw [h]
  exact .refl paths workspace.disk

theorem touchesOnly_bind {run : Run α} {next : α → Run β} (h : TouchesOnly paths run)
    (hnext : ∀ value, TouchesOnly paths (next value)) : TouchesOnly paths (run >>= next) := by
  intro workspace
  have hrun := h workspace
  rcases finalState_bind run next workspace with ⟨value, middle, hok, hfinal⟩ | ⟨fault, herror⟩
  · rw [hok] at hrun
    rw [hfinal]
    exact hrun.trans_self (hnext value middle)
  · rw [herror] at hrun
    exact hrun

theorem touchesOnly_checkPath {path : Path} : TouchesOnly paths (checkPath path) := by
  refine touchesOnly_of_disk_eq fun workspace => ?_
  unfold checkPath
  split <;> rfl

theorem touchesOnly_readText : TouchesOnly paths (readText settings source) := by
  refine touchesOnly_of_disk_eq fun workspace => ?_
  unfold readText
  repeat' split
  all_goals rfl

theorem touchesOnly_readSource : TouchesOnly paths (readSource settings source) :=
  touchesOnly_bind touchesOnly_checkPath fun _ => touchesOnly_readText

theorem touchesOnly_pure {value : α} : TouchesOnly paths (pure value : Run α) :=
  touchesOnly_of_disk_eq fun _ => rfl

/-- The documents of a text are made, or a fault is raised; the disk stays as it is. -/
theorem document_cases (settings : Settings) (target : Target) (text : String)
    (workspace : Workspace) :
    (finalState (document settings target text workspace)).disk = workspace.disk ∧
    ∀ artifacts after, document settings target text workspace = .ok artifacts after →
      ∃ indent, settings.indentFor? target = some indent ∧
        Artifacts.ofSource target indent text = .ok artifacts := by
  unfold document Artifacts.ofSource
  cases Token.scan text with
  | error error => exact ⟨rfl, fun artifacts after h => by cases h⟩
  | ok tokens =>
    simp only [tell_bind]
    cases settings.indentFor? target with
    | none => exact ⟨rfl, fun artifacts after h => by cases h⟩
    | some indent =>
      simp only
      cases hartifacts : Artifacts.ofTokens target indent tokens with
      | error fault => exact ⟨rfl, fun artifacts after h => by cases h⟩
      | ok made =>
        refine ⟨rfl, fun artifacts after h => ⟨indent, rfl, ?_⟩⟩
        cases h
        exact hartifacts

theorem touchesOnly_document {text : String} :
    TouchesOnly paths (document settings target text) :=
  touchesOnly_of_disk_eq fun workspace => (document_cases settings target text workspace).1

theorem touchesOnly_writeText {codec? : Option Text.Codec} {path : Path} {text : String} :
    TouchesOnly [path] (writeText codec? path text) := by
  intro workspace
  unfold writeText
  simp only
  split
  · exact .refl _ workspace.disk
  · rename_i disk hwrite
    split <;> exact Disk.touches_write hwrite

theorem touchesOnly_writeDocument {codec? : Option Text.Codec} {path : Path} {text : String} :
    TouchesOnly [path] (writeDocument codec? path text) :=
  touchesOnly_bind touchesOnly_checkPath fun _ => touchesOnly_writeText

theorem touchesOnly_writeDocuments {codec? : Option Text.Codec} :
    ∀ documents : List (Path × String),
      TouchesOnly (documents.map (·.1)) (writeDocuments codec? documents)
  | [] => touchesOnly_pure
  | (path, text) :: rest => by
    refine touchesOnly_bind (touchesOnly_writeDocument.mono ?_) fun _ =>
      (touchesOnly_writeDocuments rest).mono ?_
    · simp
    · simp

theorem touchesOnly_removeDocuments :
    ∀ documents : List Path, TouchesOnly documents (removeDocuments documents)
  | [] => touchesOnly_pure
  | path :: rest => by
    have hremove : TouchesOnly [path] (modify (·.remove path) : Run Unit) :=
      fun workspace => Disk.touches_remove workspace.disk path
    refine touchesOnly_bind touchesOnly_checkPath fun _ => ?_
    refine touchesOnly_bind (hremove.mono (by simp)) fun _ => ?_
    exact (touchesOnly_removeDocuments rest).mono (List.subset_cons_self path rest)

theorem touchesOnly_giveUp {documents : List Path} {defect : Defect} :
    TouchesOnly documents (giveUp documents defect) :=
  touchesOnly_bind (touchesOnly_removeDocuments documents) fun _ =>
    touchesOnly_of_disk_eq fun _ => rfl

theorem mem_outputPaths_iff {path : Path} :
    path ∈ outputPaths settings target source ↔
      path = settings.tokenOutput target source ∨ path = settings.treeOutput target source := by
  simp only [outputPaths, List.mem_cons, List.not_mem_nil, or_false]

theorem map_fst_outputs {artifacts : Artifacts} :
    (outputs settings target source artifacts).map (·.1) =
      if settings.writeTokens then outputPaths settings target source
      else [settings.treeOutput target source] := by
  unfold outputs outputPaths
  split <;> simp only [List.map_cons, List.map_nil]

theorem outputs_subset {artifacts : Artifacts} :
    (outputs settings target source artifacts).map (·.1) ⊆ outputPaths settings target source := by
  rw [map_fst_outputs]
  split
  · exact fun _ h => h
  · exact fun path h => mem_outputPaths_iff.mpr (.inr (List.mem_singleton.mp h))

theorem touchesOnly_produce :
    TouchesOnly (outputPaths settings target source) (produce settings target source) := by
  unfold produce
  refine touchesOnly_bind touchesOnly_readSource fun text => ?_
  refine touchesOnly_bind touchesOnly_document fun artifacts => ?_
  refine touchesOnly_bind ?_ fun _ => touchesOnly_pure
  exact (touchesOnly_writeDocuments _).mono outputs_subset

/-- **The analysis of one source touches the places of its documents only.** -/
theorem touchesOnly_analyzeFile (htarget : settings.format? = some target) :
    TouchesOnly (outputPaths settings target source) (analyzeFile settings source) := by
  intro workspace
  have hproduce : Disk.Touches (outputPaths settings target source) workspace.disk
      (finalState (produce settings target source workspace)).disk := touchesOnly_produce workspace
  simp only [analyzeFile, htarget]
  split
  · rename_i hrun
    rwa [hrun] at hproduce
  · rename_i defect middle hrun
    rw [hrun] at hproduce
    exact hproduce.trans_self (touchesOnly_giveUp middle)
  · rename_i hrun
    rwa [hrun] at hproduce

end TouchesOnly

/-! ## What a run that succeeds has done -/

section Success

variable {settings : Settings} {target : Target} {source : Path} {before after : Workspace}

theorem readText_eq_ok {text : String} (h : readText settings source before = .ok text after) :
    (∃ bytes codec decoded, before.disk.read? source = some bytes ∧ settings.codec? = some codec ∧
      codec.decode bytes = some decoded ∧
      text = String.ofList (Text.normalizeNewlines decoded.toList)) ∧ after = before := by
  unfold readText at h
  split at h
  · cases h
  · rename_i bytes hbytes
    split at h
    · cases h
    · rename_i codec hcodec
      split at h
      · cases h
      · rename_i decoded hdecode
        cases h
        exact ⟨⟨bytes, codec, decoded, hbytes, hcodec, hdecode, rfl⟩, rfl⟩

theorem readSource_eq_ok {text : String} (h : readSource settings source before = .ok text after) :
    sourceText? settings before.disk source = some text ∧ after = before := by
  obtain ⟨_, middle, hcheck, htext⟩ := bind_eq_ok_iff.mp h
  obtain ⟨hnul, rfl⟩ := checkPath_eq_ok_iff.mp hcheck
  obtain ⟨hread, rfl⟩ := readText_eq_ok htext
  exact ⟨sourceText?_eq_some_iff.mpr ⟨hnul, hread⟩, rfl⟩

theorem writeText_eq_ok {codec? : Option Text.Codec} {path : Path} {text : String}
    (h : writeText codec? path text before = .ok () after) :
    ∃ codec, codec? = some codec ∧ after.disk.Holds codec path text := by
  unfold writeText at h
  simp only at h
  split at h
  · cases h
  · rename_i disk hwrite
    split at h
    · rename_i hsome
      cases h
      obtain ⟨bytes, hbytes⟩ := Option.isSome_iff_exists.mp hsome
      rw [hbytes, Option.getD_some] at hwrite
      obtain ⟨codec, rfl, hencode⟩ := Option.bind_eq_some_iff.mp hbytes
      exact ⟨codec, rfl, bytes, hencode, Disk.read?_write hwrite⟩
    · cases h

theorem writeDocument_eq_ok {codec? : Option Text.Codec} {path : Path} {text : String}
    (h : writeDocument codec? path text before = .ok () after) :
    ∃ codec, codec? = some codec ∧ after.disk.Holds codec path text := by
  obtain ⟨_, middle, -, h⟩ := bind_eq_ok_iff.mp h
  exact writeText_eq_ok h

/-- A document that was written stands on the disk, unless a later one went to the same place. -/
theorem holds_of_writeDocuments {codec? : Option Text.Codec} {documents : List (Path × String)}
    (h : writeDocuments codec? documents before = .ok () after) {path : Path} {text : String}
    {rest : List (Path × String)} (hsuffix : (path, text) :: rest <:+ documents)
    (hrest : ∀ later ∈ rest.map (·.1), ¬ before.disk.SamePlace path later) :
    ∃ codec, codec? = some codec ∧ after.disk.Holds codec path text := by
  induction documents generalizing before with
  | nil => exact absurd (List.suffix_nil.mp hsuffix) (List.cons_ne_nil _ _)
  | cons first others ih =>
    obtain ⟨firstPath, firstText⟩ := first
    obtain ⟨_, middle, hfirst, hothers⟩ := bind_eq_ok_iff.mp h
    have htouches : Disk.Touches [firstPath] before.disk middle.disk :=
      touchesOnly_writeDocument.of_eq_ok hfirst
    rcases List.suffix_cons_iff.mp hsuffix with heq | hsuffix
    · cases heq
      obtain ⟨codec, hcodec, hholds⟩ := writeDocument_eq_ok hfirst
      have hlater := (touchesOnly_writeDocuments rest).of_eq_ok hothers
      exact ⟨codec, hcodec, hholds.of_touches hlater fun later hmem hsame =>
        hrest later hmem (htouches.samePlace_iff.mp hsame)⟩
    · exact ih hothers hsuffix fun later hmem hsame =>
        hrest later hmem (htouches.samePlace_iff.mp hsame)

theorem produce_eq_ok {paths : List Path}
    (h : produce settings target source before = .ok paths after) :
    ∃ artifacts middle, artifacts? settings target before.disk source = some artifacts ∧
      middle.disk = before.disk ∧
      writeDocuments settings.codec? (outputs settings target source artifacts) middle =
        .ok () after ∧
      paths = (outputs settings target source artifacts).map (·.1) := by
  obtain ⟨text, read, hread, h⟩ := bind_eq_ok_iff.mp h
  obtain ⟨artifacts, made, hmade, h⟩ := bind_eq_ok_iff.mp h
  obtain ⟨_, written, hwritten, h⟩ := bind_eq_ok_iff.mp h
  cases h
  obtain ⟨htext, rfl⟩ := readSource_eq_ok hread
  obtain ⟨hdisk, hartifacts⟩ := document_cases settings target text read
  rw [hmade] at hdisk
  obtain ⟨indent, hindent, hsource⟩ := hartifacts artifacts made hmade
  refine ⟨artifacts, made, ?_, hdisk, hwritten, rfl⟩
  simp only [artifacts?, htext, hindent, hsource, Option.bind_some, Except.toOption]

theorem giveUp_ne_ok {documents paths : List Path} {defect : Defect} :
    giveUp documents defect before ≠ .ok paths after := by
  intro h
  obtain ⟨_, middle, -, h⟩ := bind_eq_ok_iff.mp h
  cases h

/-- An analysis that returns has written its documents. -/
theorem produce_of_analyzeFile {paths : List Path} (htarget : settings.format? = some target)
    (h : analyzeFile settings source before = .ok paths after) :
    produce settings target source before = .ok paths after := by
  simp only [analyzeFile, htarget] at h
  split at h
  · rename_i hrun
    rw [hrun, h]
  · exact absurd h giveUp_ne_ok
  · cases h

/-- What the analysis of a source has done when it ends well. -/
theorem analyzeFile_eq_ok {codec : Text.Codec} {paths : List Path}
    (htarget : settings.format? = some target) (hcodec : settings.codec? = some codec)
    (h : analyzeFile settings source before = .ok paths after) :
    ∃ artifacts, artifacts? settings target before.disk source = some artifacts ∧
      paths = (outputs settings target source artifacts).map (·.1) ∧
      Disk.Touches paths before.disk after.disk ∧
      after.disk.Holds codec (settings.treeOutput target source) artifacts.tree ∧
      (settings.writeTokens = true →
        ¬ before.disk.SamePlace (settings.tokenOutput target source)
          (settings.treeOutput target source) →
        after.disk.Holds codec (settings.tokenOutput target source) artifacts.listing) := by
  have hproduce := produce_of_analyzeFile htarget h
  obtain ⟨artifacts, middle, hartifacts, hdisk, hwrite, rfl⟩ := produce_eq_ok hproduce
  have htouches := (touchesOnly_writeDocuments _).of_eq_ok hwrite
  rw [hdisk] at htouches
  refine ⟨artifacts, hartifacts, rfl, htouches, ?_, fun htokens hapart => ?_⟩
  · have hsuffix : [(settings.treeOutput target source, artifacts.tree)] <:+
        outputs settings target source artifacts := by
      unfold outputs
      split
      · exact List.suffix_cons _ _
      · exact List.suffix_rfl
    obtain ⟨found, hfound, hholds⟩ := holds_of_writeDocuments hwrite hsuffix (by simp)
    rw [hcodec] at hfound
    exact Option.some.inj hfound ▸ hholds
  · have houtputs : outputs settings target source artifacts =
        [(settings.tokenOutput target source, artifacts.listing),
          (settings.treeOutput target source, artifacts.tree)] := if_pos htokens
    rw [houtputs] at hwrite
    obtain ⟨found, hfound, hholds⟩ := holds_of_writeDocuments hwrite List.suffix_rfl
      (by simpa [hdisk] using hapart)
    rw [hcodec] at hfound
    exact Option.some.inj hfound ▸ hholds

end Success

/-! ## What a run that fails has done -/

section Failure

variable {settings : Settings} {target : Target} {source : Path} {before after : Workspace}
  {documents : List Path} {fault : Fault}

theorem removeDocuments_eq_ok (h : removeDocuments documents before = .ok () after) :
    after.disk = documents.foldl Disk.remove before.disk := by
  induction documents generalizing before with
  | nil =>
    cases h
    rfl
  | cons path rest ih =>
    obtain ⟨_, middle, hcheck, hrest⟩ := bind_eq_ok_iff.mp h
    obtain ⟨-, rfl⟩ := checkPath_eq_ok_iff.mp hcheck
    obtain ⟨_, removed, hremove, hlater⟩ := bind_eq_ok_iff.mp hrest
    cases hremove
    exact ih hlater

/-- Only a path with a NUL keeps documents from being removed. -/
theorem removeDocuments_eq_error (h : removeDocuments documents before = .error fault after) :
    ∃ path ∈ documents, path.hasNul = true ∧ fault = .unencodable (.path path) := by
  induction documents generalizing before with
  | nil => cases h
  | cons path rest ih =>
    rcases bind_eq_error h with hcheck | ⟨_, middle, -, hrest⟩
    · cases hnul : path.hasNul with
      | false =>
        rw [checkPath_eq_ok_iff.mpr ⟨hnul, rfl⟩] at hcheck
        cases hcheck
      | true =>
        rw [checkPath_of_hasNul hnul] at hcheck
        cases hcheck
        exact ⟨path, List.mem_cons_self, hnul, rfl⟩
    · obtain ⟨_, removed, -, hlater⟩ := (bind_eq_error hrest).resolve_left (by rintro ⟨⟩)
      obtain ⟨found, hfound, hnul, hfault⟩ := ih hlater
      exact ⟨found, List.mem_cons_of_mem path hfound, hnul, hfault⟩

/-- A run is given up with the defect once the documents are removed, unless one has a path with a
NUL. -/
theorem giveUp_eq_error {defect : Defect}
    (h : giveUp documents defect before = .error fault after) :
    (fault = .defect defect ∧ after.disk = documents.foldl Disk.remove before.disk) ∨
    ∃ path ∈ documents, path.hasNul = true ∧ fault = .unencodable (.path path) := by
  rcases bind_eq_error h with hremove | ⟨_, middle, hremove, hthrow⟩
  · exact .inr (removeDocuments_eq_error hremove)
  · cases hthrow
    exact .inl ⟨rfl, removeDocuments_eq_ok hremove⟩

/-- Without a NUL in their paths the documents are removed, and the run ends with the defect. -/
theorem exists_giveUp (h : ∀ path ∈ documents, path.hasNul = false) (defect : Defect)
    (before : Workspace) :
    ∃ after, giveUp documents defect before = .error (.defect defect) after := by
  cases hgiven : giveUp documents defect before with
  | ok paths after => exact absurd hgiven giveUp_ne_ok
  | error fault after =>
    rcases giveUp_eq_error hgiven with ⟨rfl, -⟩ | ⟨path, hpath, hnul, -⟩
    · exact ⟨after, rfl⟩
    · rw [h path hpath] at hnul
      cases hnul

/-- How an analysis fails: for want of a format; as the writing of the documents does; or, when that
fails with a defect, while the run is given up. -/
theorem analyzeFile_eq_error (h : analyzeFile settings source before = .error fault after) :
    (settings.format? = none ∧ fault = .unknownFormat settings) ∨
    ∃ target, settings.format? = some target ∧
      ((produce settings target source before = .error fault after ∧
          ∀ defect, fault ≠ .defect defect) ∨
        ∃ defect middle, produce settings target source before = .error (.defect defect) middle ∧
          giveUp (outputPaths settings target source) defect middle = .error fault after) := by
  cases htarget : settings.format? with
  | none =>
    simp only [analyzeFile, htarget] at h
    cases h
    exact .inl ⟨rfl, rfl⟩
  | some target =>
    refine .inr ⟨target, rfl, ?_⟩
    simp only [analyzeFile, htarget] at h
    split at h
    · cases h
    · rename_i defect middle hrun
      exact .inr ⟨defect, middle, hrun, h⟩
    · rename_i hother hrun
      cases h
      exact .inl ⟨hrun, fun defect hdefect => hother defect hdefect⟩

/-- When a source has a defect, no file is left at the places of its documents. -/
theorem analyzeFile_eq_defect {defect : Defect} (htarget : settings.format? = some target)
    (h : analyzeFile settings source before = .error (.defect defect) after) :
    ∀ path ∈ outputPaths settings target source, after.disk.isFile path = false := by
  intro path hpath
  rcases analyzeFile_eq_error h with ⟨hnone, -⟩ | ⟨found, hfound, hends⟩
  · rw [htarget] at hnone
    cases hnone
  · obtain rfl : target = found := Option.some.inj (htarget.symm.trans hfound)
    rcases hends with ⟨-, hother⟩ | ⟨first, middle, -, hgiven⟩
    · exact absurd rfl (hother defect)
    · rcases giveUp_eq_error hgiven with ⟨-, hdisk⟩ | ⟨_, -, -, hfault⟩
      · rw [hdisk]
        exact Disk.isFile_foldl_remove hpath middle.disk
      · cases hfault

end Failure

/-! ## How an analysis ends -/

/-- The disk once the documents are written one after the other, if each can be. -/
def written? (codec : Text.Codec) : List (Path × String) → Disk → Option Disk
  | [], disk => some disk
  | (path, text) :: rest, disk =>
    if path.hasNul then none
    else (codec.encode text).bind fun bytes => (disk.write? path bytes).bind (written? codec rest)

theorem writeDocuments_of_written? {codec : Text.Codec} {log : Array LogRecord} {disk : Disk} :
    ∀ {documents : List (Path × String)} {start : Disk},
      written? codec documents start = some disk →
        writeDocuments (some codec) documents ⟨start, log⟩ = .ok () ⟨disk, log⟩
  | [], start, h => by
    cases h
    rfl
  | (path, text) :: rest, start, h => by
    unfold written? at h
    split at h
    · cases h
    · rename_i hnul
      obtain ⟨bytes, hbytes, h⟩ := Option.bind_eq_some_iff.mp h
      obtain ⟨next, hnext, h⟩ := Option.bind_eq_some_iff.mp h
      refine bind_eq_ok_iff.mpr ⟨(), ⟨next, log⟩, ?_, writeDocuments_of_written? h⟩
      rw [writeDocument, checkPath_bind (Bool.not_eq_true _ ▸ hnul)]
      simp only [writeText, Option.bind_some, hbytes, Option.getD_some, hnext, Option.isSome_some,
        reduceIte]

theorem readSource_of_sourceText? {settings : Settings} {source : Path} {text : String}
    {before : Workspace} (h : sourceText? settings before.disk source = some text) :
    readSource settings source before = .ok text before := by
  obtain ⟨hnul, bytes, codec, decoded, hbytes, hcodec, hdecoded, rfl⟩ :=
    sourceText?_eq_some_iff.mp h
  rw [readSource, checkPath_bind hnul]
  simp only [readText, hbytes, hcodec, hdecoded]

theorem document_of_ofSource {settings : Settings} {target : Target} {text : String}
    {artifacts : Artifacts} {indent : Option Int}
    (hindent : settings.indentFor? target = some indent)
    (h : Artifacts.ofSource target indent text = .ok artifacts) (before : Workspace) :
    ∃ after, document settings target text before = .ok artifacts after ∧
      after.disk = before.disk := by
  unfold Artifacts.ofSource at h
  unfold document
  cases hscan : Token.scan text with
  | error error =>
    rw [hscan] at h
    cases h
  | ok tokens =>
    rw [hscan] at h
    have hartifacts : Artifacts.ofTokens target indent tokens = .ok artifacts := h
    simp only [tell_bind, hindent, hartifacts]
    exact ⟨_, rfl, rfl⟩

/-- **The analysis of a source returns** when nothing is wrong with it and its documents can be
written. -/
theorem analyzeFile_of_written? {settings : Settings} {target : Target} {codec : Text.Codec}
    {source : Path} {artifacts : Artifacts} {disk : Disk} {before : Workspace}
    (htarget : settings.format? = some target) (hcodec : settings.codec? = some codec)
    (hartifacts : artifacts? settings target before.disk source = some artifacts)
    (hwritten : written? codec (outputs settings target source artifacts) before.disk =
      some disk) :
    ∃ after, analyzeFile settings source before =
      .ok ((outputs settings target source artifacts).map (·.1)) after ∧ after.disk = disk := by
  obtain ⟨text, htext, hartifacts⟩ := Option.bind_eq_some_iff.mp hartifacts
  have hread := readSource_of_sourceText? htext
  obtain ⟨indent, hindent, hartifacts⟩ := Option.bind_eq_some_iff.mp hartifacts
  obtain ⟨made, hmade, hdisk⟩ := document_of_ofSource hindent (eq_ok_of_toOption hartifacts)
    before
  obtain ⟨middle, log⟩ := made
  obtain rfl : middle = before.disk := hdisk
  refine ⟨⟨disk, log⟩, ?_, rfl⟩
  have hproduce : produce settings target source before =
      .ok ((outputs settings target source artifacts).map (·.1)) ⟨disk, log⟩ := by
    refine bind_eq_ok_iff.mpr ⟨text, before, hread, ?_⟩
    refine bind_eq_ok_iff.mpr ⟨artifacts, ⟨before.disk, log⟩, hmade, ?_⟩
    refine bind_eq_ok_iff.mpr ⟨(), ⟨disk, log⟩, ?_, rfl⟩
    rw [hcodec]
    exact writeDocuments_of_written? hwritten
  simp only [analyzeFile, htarget, hproduce]

/-- A text that is not scanned is a defect of its source. -/
theorem analyzeFile_of_scan_error {settings : Settings} {target : Target} {source : Path}
    {text : String} {error : LexError} (before : Workspace)
    (htarget : settings.format? = some target)
    (htext : sourceText? settings before.disk source = some text)
    (hscan : Token.scan text = .error error) (hmalformed : error.cause.isMalformed = true)
    (hnul : ∀ path ∈ outputPaths settings target source, path.hasNul = false) :
    ∃ after, analyzeFile settings source before = .error (.defect (.lexical error)) after := by
  have hdocument : document settings target text before = .error (.ofLexError error) before := by
    unfold document
    rw [hscan]
    rfl
  have hproduce : produce settings target source before =
      .error (.defect (.lexical error)) before := by
    simp only [produce, bind, EStateM.bind, readSource_of_sourceText? htext, hdocument,
      Fault.ofLexError, hmalformed, reduceIte]
  simp only [analyzeFile, htarget, hproduce]
  exact exists_giveUp hnul (.lexical error) before

end Batch

end JackSyntax
