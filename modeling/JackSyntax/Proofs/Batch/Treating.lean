import JackSyntax.Proofs.Batch.OneSource

/-!
# Sources treated in turn

A batch that reports has treated its sources in turn, each with a verdict of its own: nothing is
wrong with it, or it has a defect.

## The model

* `BatchReport.Tells`: the report gives a verdict on a source.
* `Ends`: the analysis of one source ends with a verdict.
* `Treats settings sources report before after`: the sources are treated in turn, from the one disk
  to the other, and the report gives the verdicts.

## Results

* `treats_of_analyzeEach`, `analyzePath_of_collectSources`, **`analyzePath_steps`**: what a batch
  that reports has done.
* **`Treats.touches`**: a batch touches the places of its documents only.
* **`Treats.of_tells`**: every verdict comes from the analysis of its source; before it and after
  it, the others are treated.
-/

namespace JackSyntax

/-! ## Verdicts -/

/-- The report gives the verdict on a source: nothing is wrong with it, or it has a defect. -/
def BatchReport.Tells (report : BatchReport) (source : Path) :
    Option Defect → Prop
  | none => source ∈ report.succeeded
  | some defect => (source, defect) ∈ report.failed

/-- The report with one more verdict in front. -/
def BatchReport.record (source : Path) (report : BatchReport) :
    Option Defect → BatchReport
  | none => { report with succeeded := source :: report.succeeded }
  | some defect => { report with failed := (source, defect) :: report.failed }

namespace Batch

/-! ## One source after the other -/

/-- The analysis of a source ends with a verdict. -/
def Ends (settings : Settings) (source : Path) (before : Workspace) :
    Option Defect → Workspace → Prop
  | none, after => ∃ paths, analyzeFile settings source before = .ok paths after
  | some defect, after => analyzeFile settings source before = .error (.defect defect) after

/-- The sources are treated in order; the report gives the verdicts. -/
inductive Treats (settings : Settings) : List Path → BatchReport → Disk → Disk → Prop
  | done {disk : Disk} : Treats settings [] {} disk disk
  | next {source : Path} {rest : List Path} {report : BatchReport} {verdict : Option Defect}
    {disk after : Disk} {log : Array LogRecord} {found : Workspace}
    (hsource : Ends settings source ⟨disk, log⟩ verdict found)
    (others : Treats settings rest report found.disk after) :
    Treats settings (source :: rest) (report.record source verdict) disk after

theorem tells_record_iff {report : BatchReport} {source other : Path}
    {verdict told : Option Defect} :
    (report.record source verdict).Tells other told ↔
      (other = source ∧ told = verdict) ∨ report.Tells other told := by
  cases verdict <;> cases told <;> simp [BatchReport.record, BatchReport.Tells]

/-- Analysing several sources treats them in order. -/
theorem treats_of_analyzeEach {settings : Settings} {sources : List Path}
    {start final : BatchReport} {before after : Workspace}
    (h : analyzeEach settings sources start before = .ok final after) :
    ∃ report, Treats settings sources report before.disk after.disk ∧
      final = ⟨start.succeeded ++ report.succeeded, start.failed ++ report.failed⟩ := by
  induction sources generalizing start before with
  | nil =>
    cases h
    refine ⟨{}, .done, ?_⟩
    rw [List.append_nil, List.append_nil]
  | cons source rest ih =>
    unfold analyzeEach at h
    split at h
    · rename_i paths found hsource
      obtain ⟨report, hothers, rfl⟩ := ih h
      refine ⟨report.record source none, .next ⟨paths, hsource⟩ hothers, ?_⟩
      rw [List.append_assoc, List.singleton_append, BatchReport.record]
    · rename_i defect found hsource
      obtain ⟨report, hothers, rfl⟩ := ih h
      refine ⟨report.record source (some defect), .next hsource hothers, ?_⟩
      rw [List.append_assoc, List.singleton_append, BatchReport.record]
    · cases h

section Treats

variable {settings : Settings} {target : Target} {sources : List Path} {source : Path}
  {report : BatchReport} {verdict : Option Defect}

/-- A verdict is given for settings that name a format only. -/
theorem Ends.exists_format? {before after : Workspace}
    (h : Ends settings source before verdict after) :
    ∃ target, settings.format? = some target := by
  cases htarget : settings.format? with
  | some target => exact ⟨target, rfl⟩
  | none =>
    cases verdict with
    | none =>
      obtain ⟨paths, h⟩ := h
      simp only [analyzeFile, htarget] at h
      cases h
    | some defect =>
      simp only [Ends, analyzeFile, htarget] at h
      cases h

theorem Ends.touches {before after : Workspace} (htarget : settings.format? = some target)
    (h : Ends settings source before verdict after) :
    Disk.Touches (outputPaths settings target source) before.disk after.disk := by
  cases verdict with
  | none =>
    obtain ⟨paths, h⟩ := h
    exact (touchesOnly_analyzeFile htarget).of_eq_ok h
  | some defect => exact (touchesOnly_analyzeFile htarget).of_eq_error h

/-- The places of the documents of several sources. -/
def places (settings : Settings) (target : Target) (sources : List Path) : List Path :=
  sources.flatMap (outputPaths settings target)

namespace Treats

variable {before after : Disk}

/-- **A batch touches the places of its documents only.** -/
theorem touches (htarget : settings.format? = some target)
    (h : Treats settings sources report before after) :
    Disk.Touches (places settings target sources) before after := by
  induction h with
  | done => exact .refl _ _
  | next hsource _ ih => exact (hsource.touches htarget).trans ih

theorem exists_verdict (h : Treats settings sources report before after)
    (hsource : source ∈ sources) : ∃ verdict, report.Tells source verdict := by
  induction h with
  | done => cases hsource
  | @next first rest report verdict disk after log found hfirst hothers ih =>
    rcases List.mem_cons.mp hsource with rfl | hsource
    · exact ⟨verdict, tells_record_iff.mpr (.inl ⟨rfl, rfl⟩)⟩
    · obtain ⟨told, htold⟩ := ih hsource
      exact ⟨told, tells_record_iff.mpr (.inr htold)⟩

/-- **Every verdict comes from the analysis of its source**, in its turn: before and after it, the
other sources are treated. -/
theorem of_tells (h : Treats settings sources report before after)
    (htells : report.Tells source verdict) :
    ∃ target front rest middle found, settings.format? = some target ∧
      sources = front ++ source :: rest ∧
      Disk.Touches (places settings target front) before middle.disk ∧
      Ends settings source middle verdict found ∧
      Disk.Touches (places settings target rest) found.disk after := by
  induction h with
  | done => cases verdict <;> cases htells
  | @next first rest report told disk after log found hfirst hothers ih =>
    rcases tells_record_iff.mp htells with ⟨rfl, rfl⟩ | htells
    · obtain ⟨target, htarget⟩ := hfirst.exists_format?
      exact ⟨target, [], rest, ⟨disk, log⟩, found, htarget, rfl, .refl _ _, hfirst,
        hothers.touches htarget⟩
    · obtain ⟨target, front, later, middle, done, htarget, rfl, hfront, hends, hlater⟩ := ih htells
      exact ⟨target, first :: front, later, middle, done, htarget, rfl,
        (hfirst.touches htarget).trans hfront, hends, hlater⟩

end Treats

end Treats

/-! ## The whole batch -/

theorem prepareOutput_of_none {settings : Settings} (h : settings.outputDir = none) :
    prepareOutput settings = pure () := by
  rw [prepareOutput, h]

theorem prepareOutput_of_some {settings : Settings} {directory : Path}
    (h : settings.outputDir = some directory) :
    prepareOutput settings = (checkPath directory >>= fun _ => makeOutput directory) := by
  rw [prepareOutput, h]

theorem makeOutput_eq_ok_iff {directory : Path} {before prepared : Workspace} :
    makeOutput directory before = .ok () prepared ↔
      Disk.makeDirectories directory before.disk = .ok () prepared.disk ∧
        prepared.log = before.log := by
  unfold makeOutput
  cases Disk.makeDirectories directory before.disk with
  | error failure disk => simp
  | ok _ disk =>
    obtain ⟨made, log⟩ := prepared
    simp [eq_comm]

/-- The directory of the documents is made, when one is named. -/
theorem prepareOutput_cases {settings : Settings} {before prepared : Workspace}
    (h : prepareOutput settings before = .ok () prepared) :
    prepared.log = before.log ∧
      ((settings.outputDir = none ∧ prepared.disk = before.disk) ∨
      ∃ directory, settings.outputDir = some directory ∧ directory.hasNul = false ∧
        Disk.makeDirectories directory before.disk = .ok () prepared.disk) := by
  cases hdirectory : settings.outputDir with
  | none =>
    rw [prepareOutput_of_none hdirectory] at h
    cases h
    exact ⟨rfl, .inl ⟨rfl, rfl⟩⟩
  | some directory =>
    rw [prepareOutput_of_some hdirectory] at h
    obtain ⟨_, middle, hcheck, hmake⟩ := bind_eq_ok_iff.mp h
    obtain ⟨hnul, rfl⟩ := checkPath_eq_ok_iff.mp hcheck
    obtain ⟨hmade, hlog⟩ := makeOutput_eq_ok_iff.mp hmake
    exact ⟨hlog, .inr ⟨directory, rfl, hnul, hmade⟩⟩

/-- A directory with a NUL in its path is never made. -/
theorem hasNul_of_prepareOutput {settings : Settings} {before prepared : Workspace}
    (h : prepareOutput settings before = .ok () prepared) :
    ∀ directory, settings.outputDir = some directory → directory.hasNul = false := by
  intro directory hdirectory
  rcases (prepareOutput_cases h).2 with ⟨hnone, -⟩ | ⟨found, hfound, hnul, -⟩
  · rw [hdirectory] at hnone
    cases hnone
  · rwa [Option.some.inj (hdirectory.symm.trans hfound)]

/-- Making the directory of the documents takes nothing away. -/
theorem extends_prepareOutput {settings : Settings} {before after : Workspace}
    (h : prepareOutput settings before = .ok () after) : Disk.Extends before.disk after.disk := by
  rcases (prepareOutput_cases h).2 with ⟨-, hdisk⟩ | ⟨directory, -, -, hmade⟩
  · rw [hdisk]
    exact .refl before.disk
  · have hextends := Disk.extends_makeDirectories directory before.disk
    rwa [hmade] at hextends

/-- Making the directory of the documents logs nothing, whatever was logged before. -/
theorem prepareOutput_eq_ok {settings : Settings} {before after : Workspace}
    (h : prepareOutput settings before = .ok () after) (log : Array LogRecord) :
    prepareOutput settings ⟨before.disk, log⟩ = .ok () ⟨after.disk, log⟩ := by
  rcases (prepareOutput_cases h).2 with ⟨hnone, hdisk⟩ | ⟨directory, hsome, hnul, hmade⟩
  · rw [prepareOutput_of_none hnone, hdisk]
    rfl
  · rw [prepareOutput_of_some hsome, checkPath_bind hnul, makeOutput_eq_ok_iff]
    exact ⟨hmade, rfl⟩

/-- Once the sources of a path are collected, the directory of the documents is made and the sources
are treated; only the log tells whether there were any. -/
theorem analyzePath_of_collectSources {settings : Settings} {path : Path} {before : Workspace}
    {sources : List Path} (h : collectSources settings before.disk path = .ok sources) :
    ∃ log, analyzePath settings path before =
      (prepareOutput settings >>= fun _ => analyzeEach settings sources {}) ⟨before.disk, log⟩ := by
  cases hempty : sources.isEmpty with
  | false =>
    refine ⟨before.log, ?_⟩
    simp only [analyzePath, bind, EStateM.bind, h, hempty, Bool.false_eq_true, reduceIte]
  | true =>
    refine ⟨(before.tell .warning "jack_cli"
      s!"no {settings.sourceSuffix} files found in {path.toString}").log, ?_⟩
    simp only [analyzePath, bind, EStateM.bind, h, hempty, reduceIte, tell]
    rfl

/-- When no sources can be collected, nothing is done. -/
theorem analyzePath_of_collectSources_error {settings : Settings} {path : Path} {before : Workspace}
    {fault : Fault} (h : collectSources settings before.disk path = .error fault) :
    analyzePath settings path before = .error fault before := by
  simp only [analyzePath, bind, EStateM.bind, h]

/-- **The steps of a batch**: the sources of a path are collected, the directory of the documents is
made, and the sources are treated in order. -/
theorem analyzePath_steps {settings : Settings} {path : Path} {report : BatchReport}
    {before after : Workspace} (h : analyzePath settings path before = .ok report after) :
    ∃ sources prepared, collectSources settings before.disk path = .ok sources ∧
      prepareOutput settings before = .ok () prepared ∧
      Treats settings sources report prepared.disk after.disk := by
  cases hcollect : collectSources settings before.disk path with
  | error fault =>
    rw [analyzePath_of_collectSources_error hcollect] at h
    cases h
  | ok sources =>
    obtain ⟨log, hrest⟩ := analyzePath_of_collectSources hcollect
    obtain ⟨_, prepared, hprepared, htreated⟩ := bind_eq_ok_iff.mp (hrest.symm.trans h)
    obtain ⟨treated, htreats, rfl⟩ := treats_of_analyzeEach htreated
    exact ⟨sources, _, rfl, prepareOutput_eq_ok hprepared before.log, htreats⟩

theorem analyzePath_eq_ok {settings : Settings} {path : Path} {report : BatchReport}
    {before after : Workspace} (h : analyzePath settings path before = .ok report after) :
    ∃ sources prepared, collectSources settings before.disk path = .ok sources ∧
      Disk.Extends before.disk prepared ∧ Treats settings sources report prepared after.disk := by
  obtain ⟨sources, prepared, hcollect, hprepared, htreats⟩ := analyzePath_steps h
  exact ⟨sources, prepared.disk, hcollect, extends_prepareOutput hprepared, htreats⟩

end Batch

end JackSyntax
