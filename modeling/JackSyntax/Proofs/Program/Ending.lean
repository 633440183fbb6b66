import JackSyntax.Program
import JackSyntax.Proofs.Batch.Independence
import JackSyntax.Proofs.Batch.Stopping

/-!
# How the program ends

The program leaves while it reads the command line, with status 0 or 2, or it returns a status, 0
when every source was analysed and 1 otherwise. It breaks off only where a file stands in the way of
the directory of the documents, where nothing was given for the format or the indentation, or where
the indentation makes a margin too wide to be counted.

## Results

* `Batch.Reported.isReported`, `Batch.Stray.isReported`: which faults the program reports.
* `Batch.Treats.eq_of_failed_nil`: a batch without defects has analysed every source, in order.
* **`program_ends`**: how the program ends, for every command line and every disk.
* `breaks_off_at_file`: a file in the way of the directory of the documents breaks it off.
* **`breaks_off_iff_blocked`**: given a format and an indentation that is laid out, it breaks off
  just when a file is in the way.
* **`breaks_off_at_margin`**: an indentation that is no index breaks it off at the first source.
-/

namespace JackSyntax

namespace Batch

variable {options : CommandLine.Options} {disk : Disk} {fault : Fault}

theorem Reported.isReported (h : Reported options disk fault) : fault.isReported = true := by
  cases h with
  | notFound => rfl
  | notSource => rfl
  | nul => rfl
  | digits => rfl

theorem Stray.isReported (h : Stray options disk fault) : fault.isReported = false := by
  cases h with
  | blocked => rfl
  | noFormat => rfl
  | noIndent => rfl
  | tooWide => rfl

/-- A batch without defects has analysed every source, in order. -/
theorem Treats.eq_of_failed_nil {settings : Settings} {sources : List Path} {report : BatchReport}
    {before after : Disk} (h : Treats settings sources report before after)
    (hfailed : report.failed = []) : report.succeeded = sources := by
  obtain ⟨hsublist, -, hperm⟩ := h.partition
  rw [hfailed, List.map_nil, List.append_nil] at hperm
  exact hsublist.eq_of_length hperm.length_eq.symm

end Batch

open Batch

namespace Program

variable {words : List String} {options : CommandLine.Options} {before after : Workspace}

theorem run_of_stop {stop : CommandLine.Stop} (h : CommandLine.parse words = .error stop) :
    run words before = (.left stop, before) := by
  rw [run, h]

theorem run_of_parse (h : CommandLine.parse words = .ok options) :
    run words before = conclude (analyzePath options.settings (.ofString options.path) before) := by
  rw [run, h]

theorem leavingStatus_cases (stop : CommandLine.Stop) :
    leavingStatus stop = 0 ∨ leavingStatus stop = 2 := by
  cases stop with
  | help => exact .inl rfl
  | refused => exact .inr rfl

/-- Only a fault that is not reported breaks the program off. -/
theorem conclude_eq_brokenOff {result : EStateM.Result Fault Workspace BatchReport} {fault : Fault}
    (h : conclude result = (.brokenOff fault, after)) :
    result = .error fault after ∧ fault.isReported = false := by
  unfold conclude at h
  split at h
  · cases h
  · split at h
    · cases h
    · rename_i hunreported
      cases h
      exact ⟨rfl, Bool.not_eq_true _ ▸ hunreported⟩

end Program

/-- **How the program ends.** It leaves while it reads the command line, with status 0 or 2 and
nothing done. Or it returns 0, and then every source was analysed; or 1, and then a source has a
defect or the program has reported what stopped it, a NUL in a path among other things. Or it breaks
off, and then a file stands in the way of the directory of the documents, nothing was given for the
format or the indentation, or the indentation makes a margin too wide to be counted. -/
theorem program_ends (words : List String) (before : Workspace) :
    match Program.run words before with
    | (.left stop, after) =>
      CommandLine.parse words = .error stop ∧ after = before ∧
        (Program.leavingStatus stop = 0 ∨ Program.leavingStatus stop = 2)
    | (.returned status, after) =>
      ∃ options, CommandLine.parse words = .ok options ∧
        (status = 0 ∧ (∃ report sources,
            collectSources options.settings before.disk (.ofString options.path) = .ok sources ∧
            analyzePath options.settings (.ofString options.path) before = .ok report after ∧
            report.succeeded = sources ∧ report.failed = []) ∨
          status = 1 ∧ (∃ report,
            analyzePath options.settings (.ofString options.path) before = .ok report after ∧
            report.failed ≠ []) ∨
          status = 1 ∧ ∃ fault stopped, Reported options before.disk fault ∧
            analyzePath options.settings (.ofString options.path) before = .error fault stopped ∧
            after = stopped.tell .error "jack_cli" fault.message)
    | (.brokenOff fault, after) =>
      ∃ options, CommandLine.parse words = .ok options ∧ Stray options before.disk fault ∧
        analyzePath options.settings (.ofString options.path) before = .error fault after := by
  cases hparse : CommandLine.parse words with
  | error stop =>
    rw [Program.run_of_stop hparse]
    exact ⟨rfl, rfl, Program.leavingStatus_cases stop⟩
  | ok options =>
    rw [Program.run_of_parse hparse]
    cases hrun : analyzePath options.settings (.ofString options.path) before with
    | ok report after =>
      obtain ⟨sources, prepared, hcollect, -, htreats⟩ := analyzePath_steps hrun
      rw [Program.conclude]
      cases hfailed : report.failed with
      | nil =>
        have hok : report.ok = true := by rw [BatchReport.ok, hfailed]; rfl
        rw [if_pos hok]
        exact ⟨options, rfl, .inl ⟨rfl, report, sources, hcollect, hrun,
          htreats.eq_of_failed_nil hfailed, hfailed⟩⟩
      | cons first rest =>
        have hok : ¬ report.ok = true := by rw [BatchReport.ok, hfailed]; exact Bool.false_ne_true
        rw [if_neg hok]
        exact ⟨options, rfl, .inr (.inl ⟨rfl, report, hrun, by simp [hfailed]⟩)⟩
    | error fault stopped =>
      rcases stops_of_analyzePath hrun with hreported | hstray
      · rw [Program.conclude, if_pos hreported.isReported]
        exact ⟨options, rfl, .inr (.inr ⟨rfl, fault, stopped, hreported, hrun, rfl⟩)⟩
      · rw [Program.conclude, if_neg (by simp [hstray.isReported])]
        exact ⟨options, rfl, hstray, hrun⟩

/-- A file where the documents should go breaks the program off: it returns no status and does not
leave with one. -/
theorem breaks_off_at_file :
    let disk : Disk := { here := ["w"]
                         entries := [(["w", "Main.jack"], .file emptyClass.toUTF8),
                                     (["w", "out"], .file "x".toUTF8)]
                         distinct := by decide }
    (Program.run ["Main.jack", "-o", "out"] { disk }).1 =
      .brokenOff (.noDirectory .exists ⟨0, ["out"]⟩) ∧
    (Fault.noDirectory .exists ⟨0, ["out"]⟩).message = "[Errno 17] File exists: 'out'" := by
  intro disk
  refine ⟨?_, by decide +kernel⟩
  let options : CommandLine.Options := { path := "Main.jack", outDir := some (.value "out") }
  have hparse : CommandLine.parse ["Main.jack", "-o", "out"] = .ok options := by decide +kernel
  have hcollect : collectSources options.settings disk (.ofString options.path) =
      .ok [⟨0, ["Main.jack"]⟩] := by decide +kernel
  have hdirectory : options.settings.outputDir = some ⟨0, ["out"]⟩ := by decide +kernel
  obtain ⟨after, hstopped⟩ := @noDirectory_of_makeDirectories options _ { disk } _ _ _ _ _ hcollect
    hdirectory rfl (show Disk.makeDirectories ⟨0, ["out"]⟩ disk = .error _ disk from rfl)
  rw [Program.run_of_parse hparse, hstopped]
  rfl

/-- **When a file breaks the program off.** Given a format and an indentation, or left to choose
them, and with margins that can be counted, the program breaks off just when there are sources to
collect and a file stands in the way of the directory of the documents. -/
theorem breaks_off_iff_blocked {words : List String} {options : CommandLine.Options}
    (hparse : CommandLine.parse words = .ok options) (htarget : options.target ≠ .nothing)
    (hindent : options.indent ≠ some .nothing)
    (hmargins : ∀ width, options.indent = some (.value width) →
      Document.isIndex (width * Vocabulary.deepestNesting) = true) (before : Workspace) :
    (∃ fault after, Program.run words before = (.brokenOff fault, after)) ↔
      (∃ sources,
        collectSources options.settings before.disk (.ofString options.path) = .ok sources) ∧
      ∃ directory, options.settings.outputDir = some directory ∧ directory.hasNul = false ∧
        before.disk.Blocked directory := by
  rw [Program.run_of_parse hparse]
  constructor
  · rintro ⟨fault, after, hends⟩
    obtain ⟨hrun, hfault⟩ := Program.conclude_eq_brokenOff hends
    have hunreported : ¬ Reported options before.disk fault := fun hreported =>
      Bool.false_ne_true (hfault.symm.trans hreported.isReported)
    refine ⟨?_, ?_⟩
    · cases hcollect : collectSources options.settings before.disk (.ofString options.path) with
      | ok sources => exact ⟨sources, rfl⟩
      | error found =>
        rw [analyzePath_of_collectSources_error hcollect] at hrun
        cases hrun
        exact absurd (collectSources_eq_error hcollect) hunreported
    · cases (stops_of_analyzePath hrun).resolve_left hunreported with
      | blocked hdirectory hnul hblocked _ => exact ⟨_, hdirectory, hnul, hblocked⟩
      | noFormat hnothing => exact absurd hnothing htarget
      | noIndent _ hnothing => exact absurd hnothing hindent
      | tooWide hgiven hwide =>
        rw [hmargins _ hgiven] at hwide
        cases hwide
  · rintro ⟨⟨sources, hcollect⟩, directory, hdirectory, hnul, hblocked⟩
    obtain ⟨cause, told, after, herror⟩ := noDirectory_of_blocked hcollect hdirectory hnul hblocked
    rw [herror]
    exact ⟨_, after, rfl⟩

/-- **When an indentation breaks the program off.** One that is no index does so at the first
source, unless that cannot be read, is not scanned or has no tokens. -/
theorem breaks_off_at_margin {words : List String} {options : CommandLine.Options}
    {target : Target} {width : Int} {source : Path} {rest : List Path} {text : String}
    {tokens : List Token} {before : Workspace} (hparse : CommandLine.parse words = .ok options)
    (htarget : options.target = .value target) (hindent : options.indent = some (.value width))
    (hwide : Document.isIndex width = false) (hbeside : options.settings.outputDir = none)
    (hcollect : collectSources options.settings before.disk (.ofString options.path) =
      .ok (source :: rest))
    (htext : sourceText? options.settings before.disk source = some text)
    (hscan : Token.scan text = .ok tokens) (hsome : tokens ≠ []) :
    ∃ after, Program.run words before =
      (.brokenOff (.unwritten target (.refused .tooWide)), after) := by
  have hformat : options.settings.format? = some target := by
    rw [format?_settings, htarget]
    rfl
  have hgiven : options.settings.indentFor? target = some (some width) := by
    have hsettings : options.settings.indent = some (.value width) := hindent
    simp only [Settings.indentFor?, hsettings]
  obtain ⟨after, hsource⟩ := tooWide_of_not_isIndex hformat hgiven hwide htext hscan hsome
  have hstopped := stops_at_first_source hcollect hbeside (fun _ => Fault.noConfusion) hsource
  rw [Program.run_of_parse hparse, hstopped]
  exact ⟨after, rfl⟩

end JackSyntax
