import JackSyntax.Proofs.Batch.Reported
import JackSyntax.Proofs.Disk.Directories

/-!
# Sources are judged apart

The verdict on a source is told by its bytes and by the directories of the disk. Treating the other
sources touches neither: they write and remove files only, and none in the place of a source. So it
does not matter which sources stand beside it, nor what is wrong with them.

## The model

* `EndsAlike run first second`: from both workspaces the run ends alike, and leaves disks with the
  same directories.
* `ToldByDirectories run`: the run ends alike on all disks with the same directories.
* `Judges settings source workspace verdict`: the analysis of the source gives the verdict.

## Results

* `toldByDirectories_bind`: what two steps are told by; from it, `endsAlike_produce`.
* **`outcome_analyzeFile_congr`**: the analysis of a source ends alike where its bytes and the
  directories are the same.
* **`Treats.tells_iff_judges`**: each source of a batch gets the verdict of its own analysis.
* `Treats.partition`: the report lists every source once.
* **`sources_judged_apart`**: the sources of a directory, the report, and the verdicts.
-/

namespace JackSyntax

namespace Batch

/-! ## Runs on disks with the same directories -/

/-- From both workspaces the run ends alike, and leaves disks with the same directories. -/
def EndsAlike {α : Type} (run : Run α) (first second : Workspace) : Prop :=
  outcome (run second) = outcome (run first) ∧
    Disk.SameDirectories (finalState (run first)).disk (finalState (run second)).disk

/-- The run ends alike on disks with the same directories. -/
def ToldByDirectories {α : Type} (run : Run α) : Prop :=
  ∀ first second, Disk.SameDirectories first.disk second.disk → EndsAlike run first second

section ToldByDirectories

variable {α β : Type} {settings : Settings} {target : Target} {source : Path}
  {first second : Workspace}

theorem EndsAlike.bind {run : Run α} {next : α → Run β} (h : EndsAlike run first second)
    (hnext : ∀ value, ToldByDirectories (next value)) : EndsAlike (run >>= next) first second := by
  obtain ⟨hends, hleft⟩ := h
  unfold EndsAlike
  simp only [Bind.bind, EStateM.bind]
  cases hfirst : run first <;> cases hsecond : run second <;>
    rw [hfirst, hsecond] at hends hleft <;> cases hends
  · exact hnext _ _ _ hleft
  · exact ⟨rfl, hleft⟩

theorem toldByDirectories_bind {run : Run α} {next : α → Run β} (h : ToldByDirectories run)
    (hnext : ∀ value, ToldByDirectories (next value)) : ToldByDirectories (run >>= next) :=
  fun first second hsame => (h first second hsame).bind hnext

theorem toldByDirectories_pure {value : α} : ToldByDirectories (pure value : Run α) :=
  fun _ _ hsame => ⟨rfl, hsame⟩

theorem toldByDirectories_checkPath {path : Path} : ToldByDirectories (checkPath path) := by
  intro first second hsame
  unfold EndsAlike checkPath
  cases path.hasNul <;> exact ⟨rfl, hsame⟩

/-- A source is read alike where its bytes are the same. -/
theorem endsAlike_readText (hsame : Disk.SameDirectories first.disk second.disk)
    (hread : second.disk.read? source = first.disk.read? source) :
    EndsAlike (readText settings source) first second := by
  unfold EndsAlike readText
  rw [hread]
  cases first.disk.read? source with
  | none => exact ⟨rfl, hsame⟩
  | some bytes =>
    simp only
    cases settings.codec? with
    | none => exact ⟨rfl, hsame⟩
    | some codec =>
      simp only
      cases codec.decode bytes with
      | none => exact ⟨rfl, hsame⟩
      | some text => exact ⟨rfl, hsame⟩

theorem endsAlike_readSource (hsame : Disk.SameDirectories first.disk second.disk)
    (hread : second.disk.read? source = first.disk.read? source) :
    EndsAlike (readSource settings source) first second := by
  cases hnul : source.hasNul with
  | true =>
    have hfails : ∀ workspace, readSource settings source workspace =
        .error (.unencodable (.path source)) workspace := fun workspace => by
      simp only [readSource, Bind.bind, EStateM.bind, checkPath_of_hasNul hnul]
    rw [EndsAlike, hfails, hfails]
    exact ⟨rfl, hsame⟩
  | false =>
    have hreads : ∀ workspace, readSource settings source workspace =
        readText settings source workspace := fun workspace => checkPath_bind hnul
    rw [EndsAlike, hreads, hreads]
    exact endsAlike_readText hsame hread

theorem toldByDirectories_document {text : String} :
    ToldByDirectories (document settings target text) := by
  intro first second hsame
  unfold EndsAlike document
  cases Token.scan text with
  | error error => exact ⟨rfl, hsame⟩
  | ok tokens =>
    simp only [tell_bind]
    cases settings.indentFor? target with
    | none => exact ⟨rfl, hsame⟩
    | some indent =>
      simp only
      cases Artifacts.ofTokens target indent tokens with
      | error fault => exact ⟨rfl, hsame⟩
      | ok made => exact ⟨rfl, hsame⟩

theorem toldByDirectories_writeText {codec? : Option Text.Codec} {path : Path} {text : String} :
    ToldByDirectories (writeText codec? path text) := by
  intro first second hsame
  unfold EndsAlike writeText
  simp only
  generalize codec?.bind (·.encode text) = bytes?
  have hwrite := hsame.write?_isSome path (bytes?.getD ByteArray.empty)
  cases hfirst : first.disk.write? path (bytes?.getD ByteArray.empty) <;>
    cases hsecond : second.disk.write? path (bytes?.getD ByteArray.empty) <;>
    simp only [hfirst, hsecond, Option.isSome_none, Option.isSome_some, reduceCtorEq] at hwrite
  · exact ⟨rfl, hsame⟩
  · have hleft := hsame.write? hfirst hsecond
    cases bytes? <;> exact ⟨rfl, hleft⟩

theorem toldByDirectories_writeDocuments {codec? : Option Text.Codec} :
    ∀ documents : List (Path × String), ToldByDirectories (writeDocuments codec? documents)
  | [] => toldByDirectories_pure
  | (_, _) :: rest =>
    toldByDirectories_bind
      (toldByDirectories_bind toldByDirectories_checkPath fun _ => toldByDirectories_writeText)
      fun _ => toldByDirectories_writeDocuments rest

theorem toldByDirectories_removeDocuments :
    ∀ documents : List Path, ToldByDirectories (removeDocuments documents)
  | [] => toldByDirectories_pure
  | path :: rest => by
    have hremove : ToldByDirectories (modify (·.remove path) : Run Unit) := by
      intro first second hsame
      have hfirst := (Disk.touches_remove first.disk path).sameDirectories
      have hsecond := (Disk.touches_remove second.disk path).sameDirectories
      exact ⟨rfl, hfirst.symm.trans (hsame.trans hsecond)⟩
    refine toldByDirectories_bind toldByDirectories_checkPath fun _ => ?_
    exact toldByDirectories_bind hremove fun _ => toldByDirectories_removeDocuments rest

theorem toldByDirectories_giveUp {documents : List Path} {defect : Defect} :
    ToldByDirectories (giveUp documents defect) :=
  toldByDirectories_bind (toldByDirectories_removeDocuments documents) fun _ _ _ hsame =>
    ⟨rfl, hsame⟩

end ToldByDirectories

/-! ## The verdict on a source -/

/-- The analysis of a source on a workspace gives the verdict. -/
def Judges (settings : Settings) (source : Path) (workspace : Workspace) :
    Option Defect → Prop
  | none => ∃ paths, outcome (analyzeFile settings source workspace) = .ok paths
  | some defect => outcome (analyzeFile settings source workspace) = .error (.defect defect)

section Judges

variable {settings : Settings} {target : Target} {source : Path} {first second : Workspace}
  {verdict other : Option Defect}

theorem endsAlike_produce (hsame : Disk.SameDirectories first.disk second.disk)
    (hread : second.disk.read? source = first.disk.read? source) :
    EndsAlike (produce settings target source) first second := by
  unfold produce
  refine (endsAlike_readSource hsame hread).bind fun text => ?_
  refine toldByDirectories_bind toldByDirectories_document fun artifacts => ?_
  exact toldByDirectories_bind (toldByDirectories_writeDocuments _) fun _ => toldByDirectories_pure

/-- **The analysis of a source ends alike** on disks with the same directories that hold the same
bytes for it. -/
theorem outcome_analyzeFile_congr (hsame : Disk.SameDirectories first.disk second.disk)
    (hread : second.disk.read? source = first.disk.read? source) :
    outcome (analyzeFile settings source second) = outcome (analyzeFile settings source first) := by
  cases htarget : settings.format? with
  | none => simp only [analyzeFile, htarget, outcome]
  | some target =>
    obtain ⟨hends, hleft⟩ : EndsAlike (produce settings target source) first second :=
      endsAlike_produce hsame hread
    simp only [analyzeFile, htarget]
    cases hfirst : produce settings target source first <;>
      cases hsecond : produce settings target source second <;>
      rw [hfirst, hsecond] at hends hleft <;> cases hends
    · rfl
    · rename_i fault _ _
      cases fault with
      | defect defect => exact (toldByDirectories_giveUp _ _ hleft).1
      | _ => rfl

theorem judges_congr (hsame : Disk.SameDirectories first.disk second.disk)
    (hread : second.disk.read? source = first.disk.read? source) :
    Judges settings source second verdict ↔ Judges settings source first verdict := by
  cases verdict <;> simp only [Judges, outcome_analyzeFile_congr hsame hread]

theorem Ends.judges (h : Ends settings source first verdict second) :
    Judges settings source first verdict := by
  cases verdict with
  | none =>
    obtain ⟨paths, h⟩ := h
    exact ⟨paths, by rw [h, outcome]⟩
  | some defect =>
    rw [Ends] at h
    rw [Judges, h, outcome]

/-- An analysis gives one verdict. -/
theorem Judges.unique (h : Judges settings source first verdict)
    (hother : Judges settings source first other) : verdict = other := by
  cases verdict with
  | none =>
    obtain ⟨paths, h⟩ := h
    cases other with
    | none => rfl
    | some defect =>
      rw [Judges, h] at hother
      cases hother
  | some defect =>
    rw [Judges] at h
    cases other with
    | none =>
      obtain ⟨paths, hother⟩ := hother
      rw [h] at hother
      cases hother
    | some found =>
      rw [Judges, h] at hother
      cases hother
      rfl

end Judges

/-! ## The sources of a batch -/

section Batch

variable {options : CommandLine.Options} {sources : List Path} {source : Path}
  {report : BatchReport} {verdict : Option Defect} {disk prepared after : Disk}

/-- **The report gives every source its own verdict**: the one that its analysis gives when it is
the first. -/
theorem Treats.tells_iff_judges (hsources : Collected options.settings disk sources)
    (h : Treats options.settings sources report prepared after) (hsource : source ∈ sources)
    (log : Array LogRecord) :
    report.Tells source verdict ↔ Judges options.settings source ⟨prepared, log⟩ verdict := by
  have hjudged : ∀ told, report.Tells source told →
      Judges options.settings source ⟨prepared, log⟩ told := by
    intro told htold
    obtain ⟨target, front, rest, middle, found, htarget, rfl, hfront, hends, -⟩ := h.of_tells htold
    have hread := hfront.read?_eq
      (source_apart hsources hsource (List.subset_append_left _ _) prepared)
    have hsame : Disk.SameDirectories (Workspace.mk prepared log).disk middle.disk :=
      hfront.sameDirectories
    exact (judges_congr hsame hread).mp hends.judges
  refine ⟨hjudged verdict, fun hverdict => ?_⟩
  obtain ⟨told, htold⟩ := h.exists_verdict hsource
  rwa [hverdict.unique (hjudged told htold)]

/-- A source is reported with a defect exactly when its analysis ends with it. -/
theorem Treats.outcome_eq_error_iff (hsources : Collected options.settings disk sources)
    (h : Treats options.settings sources report prepared after) (hsource : source ∈ sources)
    (log : Array LogRecord) {fault : Fault} :
    outcome (analyzeFile options.settings source ⟨prepared, log⟩) = .error fault ↔
      ∃ defect, fault = .defect defect ∧ (source, defect) ∈ report.failed := by
  constructor
  · intro herror
    obtain ⟨verdict, htold⟩ := h.exists_verdict hsource
    have hjudged := (h.tells_iff_judges hsources hsource log).mp htold
    cases verdict with
    | none =>
      obtain ⟨paths, hjudged⟩ := hjudged
      rw [herror] at hjudged
      cases hjudged
    | some defect =>
      rw [Judges, herror, Except.error.injEq] at hjudged
      exact ⟨defect, hjudged, htold⟩
  · rintro ⟨defect, rfl, htold⟩
    have htells : report.Tells source (some defect) := htold
    exact (h.tells_iff_judges hsources hsource log).mp htells

/-- Two batches give a source that is in both the same verdict, when their disks have the same
directories and the same bytes for it. -/
theorem Treats.tells_congr {reported : BatchReport} {others : List Path}
    {beside otherPrepared last : Disk} (hsources : Collected options.settings disk sources)
    (h : Treats options.settings sources report prepared after)
    (hothers : Collected options.settings beside others)
    (hother : Treats options.settings others reported otherPrepared last)
    (hsource : source ∈ sources) (hmem : source ∈ others)
    (hsame : Disk.SameDirectories prepared otherPrepared)
    (hread : otherPrepared.read? source = prepared.read? source) :
    reported.Tells source verdict ↔ report.Tells source verdict := by
  have hjudges : Judges options.settings source ⟨otherPrepared, #[]⟩ verdict ↔
      Judges options.settings source ⟨prepared, #[]⟩ verdict := judges_congr hsame hread
  rw [hother.tells_iff_judges hothers hmem #[], h.tells_iff_judges hsources hsource #[], hjudges]

/-- The report lists every source once, in order, as analysed or as defective. -/
theorem Treats.partition {settings : Settings} (h : Treats settings sources report prepared after) :
    report.succeeded.Sublist sources ∧ (report.failed.map (·.1)).Sublist sources ∧
      sources.Perm (report.succeeded ++ report.failed.map (·.1)) := by
  induction h with
  | done => exact ⟨.refl _, .refl _, .refl _⟩
  | @next source rest report verdict disk after log found _ _ ih =>
    obtain ⟨hsucceeded, hfailed, hperm⟩ := ih
    cases verdict with
    | none => exact ⟨hsucceeded.cons_cons source, hfailed.cons source, hperm.cons source⟩
    | some defect =>
      refine ⟨hsucceeded.cons source, hfailed.cons_cons source, ?_⟩
      exact (hperm.cons source).trans List.perm_middle.symm

/-- The directory of the documents is made alike on disks with the same directories. -/
theorem sameDirectories_prepareOutput {settings : Settings} {first second made made' : Workspace}
    (hsame : Disk.SameDirectories first.disk second.disk)
    (hfirst : prepareOutput settings first = .ok () made)
    (hsecond : prepareOutput settings second = .ok () made') :
    Disk.SameDirectories made.disk made'.disk := by
  rcases (prepareOutput_cases hfirst).2 with ⟨hnone, hdisk⟩ | ⟨directory, hsome, -, hmade⟩ <;>
    rcases (prepareOutput_cases hsecond).2 with ⟨hnone', hdisk'⟩ | ⟨directory', hsome', -, hmade'⟩
  · rwa [hdisk, hdisk']
  · rw [hnone] at hsome'
    cases hsome'
  · rw [hsome] at hnone'
    cases hnone'
  · obtain rfl := Option.some.inj (hsome.symm.trans hsome')
    exact hsame.makeDirectories hmade hmade'

end Batch

/-- **Sources are judged apart.** The sources of a directory are the files directly inside it with
the ending of sources. The report lists each of them once, in order, as analysed or as defective. A
source is reported with a defect exactly when its analysis alone, on the disk as it stood before the
first source was treated, ends with that defect, and it does not end with any other fault. So on a
disk with the same directories, whatever other files there are, the verdict on a source with the
same bytes is the same. -/
theorem sources_judged_apart {options : CommandLine.Options} {path : String} {report : BatchReport}
    {before after : Workspace} (hnames : before.disk.WellNamed)
    (hdirectory : before.disk.isDirectory (.ofString path) = true)
    (h : analyzePath options.settings (.ofString path) before = .ok report after) :
    ∃ location sources prepared, before.disk.resolve (.ofString path) = .ok location ∧
      collectSources options.settings before.disk (.ofString path) = .ok sources ∧
      (∀ source, source ∈ sources ↔ ∃ name bytes, source = (Path.ofString path).child name ∧
        before.disk.find? (location ++ [name]) = some (.file bytes) ∧
        source.suffix = options.settings.sourceSuffix) ∧
      sources.Pairwise (fun first second => first.name < second.name) ∧
      report.succeeded.Sublist sources ∧ (report.failed.map (·.1)).Sublist sources ∧
      sources.Perm (report.succeeded ++ report.failed.map (·.1)) ∧
      prepareOutput options.settings before = .ok () prepared ∧
      (∀ source ∈ sources, ∀ log fault,
        outcome (analyzeFile options.settings source ⟨prepared.disk, log⟩) = .error fault ↔
          ∃ defect, fault = .defect defect ∧ (source, defect) ∈ report.failed) ∧
      ∀ (other : Workspace) (reported : BatchReport) (last : Workspace), other.disk.WellNamed →
        Disk.SameDirectories before.disk other.disk →
        analyzePath options.settings (.ofString path) other = .ok reported last →
        ∀ source ∈ sources, other.disk.read? source = before.disk.read? source →
          ∀ verdict, reported.Tells source verdict ↔ report.Tells source verdict := by
  obtain ⟨location, hplace, hthere⟩ := Disk.isDirectory_iff.mp hdirectory
  obtain ⟨sources, prepared, hcollect, hprepared, htreats⟩ := analyzePath_steps h
  have hsources := collected_of_collectSources hnames hcollect
  have hmem := fun source : Path =>
    (mem_collectSources_iff rfl hplace hthere hcollect : source ∈ sources ↔ _)
  obtain ⟨hsucceeded, hfailed, hperm⟩ := htreats.partition
  refine ⟨location, sources, prepared, hplace, hcollect, hmem, hsources.ordered, hsucceeded,
    hfailed, hperm, hprepared, fun source hsource log fault =>
      htreats.outcome_eq_error_iff hsources hsource log, ?_⟩
  intro other reported last hothers hsame hreport source hsource hread verdict
  obtain ⟨others, otherPrepared, hgathered, hmade, htreated⟩ := analyzePath_steps hreport
  have hbeside := collected_of_collectSources hothers hgathered
  obtain ⟨name, bytes, rfl, hbytes, hsuffix⟩ := (hmem source).mp hsource
  -- The source is read alike on all four disks, so it is a source on the other one too.
  obtain ⟨bytes, hsourceBytes⟩ := Disk.isFile_iff.mp (hsources.file _ hsource)
  rw [hsourceBytes] at hread
  have hplain := name_ne_of_suffix hsuffix (by decide : "..".length < 5)
  rw [Path.name_child] at hplain
  have hresolved := hsame.resolve_iff.mpr hplace
  have hpresent := (hsame.directory location).mpr hthere
  have hmember := (mem_collectSources_iff rfl hresolved hpresent hgathered).mpr
    ⟨name, bytes, rfl, (Disk.read?_child_iff hplain hresolved hpresent).mp hread, hsuffix⟩
  refine htreats.tells_congr hsources hbeside htreated hsource hmember
    (sameDirectories_prepareOutput hsame hprepared hmade) ?_
  rw [(extends_prepareOutput hprepared).read? hsourceBytes,
    (extends_prepareOutput hmade).read? hread]

/-- A class is reported as analysed whether a broken source stands beside it or not. -/
theorem emptyClass_judged_apart :
    let options : CommandLine.Options := { path := "." }
    let alone : Disk := { here := ["w"]
                          entries := [(["w", "Main.jack"], .file emptyClass.toUTF8)]
                          distinct := by decide }
    let beside : Disk := { here := ["w"]
                           entries := [(["w", "Main.jack"], .file emptyClass.toUTF8),
                                       (["w", "Other.jack"], .file "#".toUTF8)]
                           distinct := by decide }
    beside.WellNamed ∧ beside.isDirectory (.ofString options.path) = true ∧ alone.WellNamed ∧
    Disk.SameDirectories beside alone ∧
    ∃ report after reported last,
      analyzePath options.settings (.ofString options.path) { disk := beside } = .ok report after ∧
      report = ⟨[⟨0, ["Main.jack"]⟩],
        [(⟨0, ["Other.jack"]⟩, .lexical ⟨.unexpected '#', ⟨1, 1⟩⟩)]⟩ ∧
      analyzePath options.settings (.ofString options.path) { disk := alone } = .ok reported last ∧
      (∀ log fault, outcome (analyzeFile options.settings ⟨0, ["Other.jack"]⟩ ⟨beside, log⟩) =
        .error fault ↔ ∃ defect, fault = .defect defect ∧
          (⟨0, ["Other.jack"]⟩, defect) ∈ report.failed) ∧
      ∀ verdict, reported.Tells ⟨0, ["Main.jack"]⟩ verdict ↔
        report.Tells ⟨0, ["Main.jack"]⟩ verdict := by
  intro options alone beside
  have htarget : options.settings.format? = some .xml := by decide
  have htoken : options.settings.tokenOutput .xml ⟨0, ["Main.jack"]⟩ = ⟨0, ["MainT.xml"]⟩ := by
    decide +kernel
  have htree : options.settings.treeOutput .xml ⟨0, ["Main.jack"]⟩ = ⟨0, ["Main.xml"]⟩ := by
    decide +kernel
  have hnames : beside.WellNamed := by decide +kernel
  have halone : alone.WellNamed := by decide +kernel
  have hdirectory : beside.isDirectory (.ofString options.path) = true := by decide +kernel
  have hsame : Disk.SameDirectories beside alone := .of_files rfl (by decide) (by decide)
  have hlisted : beside.names ["w"] = ["Main.jack", "Other.jack"] :=
    Disk.names_eq_of_ordered rfl (by decide)
  have hcollect : collectSources options.settings beside (.ofString options.path) =
      .ok [⟨0, ["Main.jack"]⟩, ⟨0, ["Other.jack"]⟩] := by
    rw [@collectSources_of_directory _ beside _ ["w"] (by decide +kernel) rfl, hlisted]
    decide +kernel
  have hcollect' : collectSources options.settings alone (.ofString options.path) =
      .ok [⟨0, ["Main.jack"]⟩] := by decide +kernel
  obtain ⟨found, hmain, -⟩ := analyzeFile_of_emptyClass { disk := alone } htarget
    (codec_settings options) rfl rfl htoken htree rfl rfl rfl
  obtain ⟨after, heach, -⟩ := analyzeEach_emptyClass_hash ⟨0, ["Main.jack"]⟩
    ⟨0, ["Other.jack"]⟩ { disk := beside } htarget (codec_settings options) rfl rfl htoken htree
    rfl rfl rfl rfl rfl (by decide +kernel)
  have hreport : analyzePath options.settings (.ofString options.path) { disk := beside } =
      .ok ⟨[⟨0, ["Main.jack"]⟩],
        [(⟨0, ["Other.jack"]⟩, .lexical ⟨.unexpected '#', ⟨1, 1⟩⟩)]⟩ after := by
    rw [@analyzePath_beside _ _ { disk := beside } _ hcollect rfl rfl]
    exact heach
  obtain ⟨last, hreport'⟩ : ∃ last, analyzePath options.settings (.ofString options.path)
      { disk := alone } = .ok ⟨[⟨0, ["Main.jack"]⟩], []⟩ last := by
    rw [@analyzePath_beside _ _ { disk := alone } _ hcollect' rfl rfl]
    simp only [analyzeEach, hmain]
    exact ⟨_, rfl⟩
  obtain ⟨location, sources, prepared, -, hsources, -, -, -, -, -, hprepared, hverdict, hcongr⟩ :=
    sources_judged_apart hnames hdirectory hreport
  obtain rfl := Except.ok.inj (hcollect.symm.trans hsources)
  cases hprepared
  exact ⟨hnames, hdirectory, halone, hsame, _, after, _, last, hreport, rfl, hreport',
    hverdict _ (by simp), hcongr _ _ last halone hsame hreport' _ List.mem_cons_self rfl⟩

end Batch

end JackSyntax
