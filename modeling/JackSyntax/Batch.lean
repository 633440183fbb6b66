import JackSyntax.Fault
import JackSyntax.Log

/-!
# Batches of sources

Analyses one file, or every source directly inside a directory, and writes the documents.

* Both documents of a source are made before the first is written.
* When a source has a defect, both of its documents are removed, also those of earlier runs.
* A defect of one source does not keep the others of a batch from being analysed.
* A path with a NUL is refused by whatever would read, write, remove or make something there. That
  is no defect: it ends the analysis, also while documents are being removed.

Headlines:
* `analyzeFile` treats one source, `collectSources` chooses the sources, `analyzePath` treats them
  in the order of their names.
-/

namespace JackSyntax

/-- A disk and what has been logged so far. -/
structure Workspace where
  disk : Disk := {}
  log : Array LogRecord := #[]

/-- A run over a workspace. -/
abbrev Run := EStateM Fault Workspace

namespace Workspace

/-- One more record. -/
def tell (level : LogLevel) (part text : String) (workspace : Workspace) : Workspace :=
  { workspace with log := workspace.log.push ⟨level, loggerName part, text⟩ }

/-- The file at a path is removed. -/
def remove (path : Path) (workspace : Workspace) : Workspace :=
  { workspace with disk := workspace.disk.remove path }

end Workspace

/-- What became of the sources of a batch, in the order in which they were treated. -/
structure BatchReport where
  succeeded : List Path := []
  failed : List (Path × Defect) := []
deriving Repr

/-- No source had a defect. -/
def BatchReport.ok (report : BatchReport) : Bool :=
  report.failed.isEmpty

namespace Batch

/-- Logs a record. -/
def tell (level : LogLevel) (part text : String) : Run Unit := fun workspace =>
  .ok () (workspace.tell level part text)

/-- Refuses a path with a NUL. -/
def checkPath (path : Path) : Run Unit := fun workspace =>
  if path.hasNul then .error (.unencodable (.path path)) workspace else .ok () workspace

/-- The text of a file, its lines ended by newlines alone. A file that cannot be read is reported
before an encoding that is not known. -/
def readText (settings : Settings) (path : Path) : Run String := fun workspace =>
  match workspace.disk.read? path with
  | none => .error (.defect (.access .unreadable path)) workspace
  | some bytes =>
    match settings.codec? with
    | none => .error (.unknownEncoding settings.encoding) workspace
    | some codec =>
      match codec.decode bytes with
      | none => .error (.defect (.access .unreadable path)) workspace
      | some text => .ok (String.ofList (Text.normalizeNewlines text.toList)) workspace

/-- The text of a source. -/
def readSource (settings : Settings) (source : Path) : Run String := do
  checkPath source
  readText settings source

/-- The documents of a source text; scanning and parsing are logged. -/
def document (settings : Settings) (target : Target) (text : String) : Run Artifacts := do
  match Token.scan text with
  | .error error => throw (.ofLexError error)
  | .ok tokens =>
    tell .debug "jack_lexer" s!"lexed {tokens.length} tokens"
    match settings.indentFor? target with
    | none => throw .noIndent
    | some indent =>
      match Artifacts.ofTokens target indent tokens with
      | .error fault => throw (.ofSourceFault target fault)
      | .ok artifacts =>
        tell .debug "jack_parser" s!"parsed class with {tokens.length} tokens"
        return artifacts

/-- Writes a file. What cannot be encoded leaves it empty. -/
def writeText (codec? : Option Text.Codec) (path : Path) (text : String) : Run Unit :=
  fun workspace =>
    let bytes? := codec?.bind (·.encode text)
    match workspace.disk.write? path (bytes?.getD ByteArray.empty) with
    | none => .error (.defect (.access .unwritable path)) workspace
    | some disk =>
      if bytes?.isSome then .ok () { workspace with disk }
      else .error (.unencodable (.document path)) { workspace with disk }

/-- Writes one document. -/
def writeDocument (codec? : Option Text.Codec) (path : Path) (text : String) : Run Unit := do
  checkPath path
  writeText codec? path text

/-- Writes documents in order. -/
def writeDocuments (codec? : Option Text.Codec) : List (Path × String) → Run Unit
  | [] => pure ()
  | (path, text) :: rest => do
    writeDocument codec? path text
    writeDocuments codec? rest

/-- Removes the files of paths in order; what is no file stays. -/
def removeDocuments : List Path → Run Unit
  | [] => pure ()
  | path :: rest => do
    checkPath path
    modify (·.remove path)
    removeDocuments rest

/-- The documents of a source and where they go, the listing first. -/
def outputs (settings : Settings) (target : Target) (source : Path) (artifacts : Artifacts) :
    List (Path × String) :=
  let tree := (settings.treeOutput target source, artifacts.tree)
  if settings.writeTokens then [(settings.tokenOutput target source, artifacts.listing), tree]
  else [tree]

/-- Where both documents of a source go, written or not. -/
def outputPaths (settings : Settings) (target : Target) (source : Path) : List Path :=
  [settings.tokenOutput target source, settings.treeOutput target source]

/-- Reads a source and writes its documents; yields their paths. -/
def produce (settings : Settings) (target : Target) (source : Path) : Run (List Path) := do
  let text ← readSource settings source
  let artifacts ← document settings target text
  let documents := outputs settings target source artifacts
  writeDocuments settings.codec? documents
  return documents.map (·.1)

/-- Ends the analysis of a source with its defect, once its documents are removed. -/
def giveUp (documents : List Path) (defect : Defect) : Run (List Path) := do
  removeDocuments documents
  throw (.defect defect)

/-- Analyses one source. If it has a defect, neither of its documents is left. -/
def analyzeFile (settings : Settings) (source : Path) : Run (List Path) := fun workspace =>
  match settings.format? with
  | none => .error (.unknownFormat settings) workspace
  | some target =>
    match produce settings target source workspace with
    | .ok paths workspace => .ok paths workspace
    | .error (.defect defect) workspace =>
      giveUp (outputPaths settings target source) defect workspace
    | .error fault workspace => .error fault workspace

/-- A file with the ending of sources. -/
def isSource (settings : Settings) (disk : Disk) (path : Path) : Bool :=
  disk.isFile path && path.suffix == settings.sourceSuffix

/-- The sources that a path stands for: those directly inside a directory, or the file itself. -/
def collectSources (settings : Settings) (disk : Disk) (path : Path) : Except Fault (List Path) :=
  if disk.isDirectory path then .ok ((disk.list path).filter (isSource settings disk))
  else if disk.isFile path then
    if path.suffix == settings.sourceSuffix then .ok [path]
    else .error (.notSource settings.sourceSuffix)
  else .error (.defect (.access .notFound path))

/-- Makes a directory and those around it. -/
def makeOutput (directory : Path) : Run Unit := fun workspace =>
  match Disk.makeDirectories directory workspace.disk with
  | .ok () disk => .ok () { workspace with disk }
  | .error (fault, path) disk => .error (.noDirectory fault path) { workspace with disk }

/-- Makes the directory of the documents, when one is named. -/
def prepareOutput (settings : Settings) : Run Unit :=
  match settings.outputDir with
  | none => pure ()
  | some directory => do
    checkPath directory
    makeOutput directory

/-- Analyses sources one after the other. -/
def analyzeEach (settings : Settings) : List Path → BatchReport → Run BatchReport
  | [], report => pure report
  | source :: rest, report => fun workspace =>
    match analyzeFile settings source workspace with
    | .ok paths workspace =>
      let written := ", ".intercalate (paths.map Path.toString)
      analyzeEach settings rest { report with succeeded := report.succeeded ++ [source] }
        (workspace.tell .info "jack_cli" s!"{source.toString} -> {written}")
    | .error (.defect defect) workspace =>
      analyzeEach settings rest { report with failed := report.failed ++ [(source, defect)] }
        (workspace.tell .error "jack_cli" s!"{source.toString}: {defect.kind}: {defect.message}")
    | .error fault workspace => .error fault workspace

/-- Analyses a source, or every source directly inside a directory. -/
def analyzePath (settings : Settings) (path : Path) : Run BatchReport := do
  let sources ← fun workspace =>
    match collectSources settings workspace.disk path with
    | .ok sources => .ok sources workspace
    | .error fault => .error fault workspace
  if sources.isEmpty then
    tell .warning "jack_cli" s!"no {settings.sourceSuffix} files found in {path.toString}"
  prepareOutput settings
  analyzeEach settings sources {}

end Batch

end JackSyntax
