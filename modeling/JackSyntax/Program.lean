import JackSyntax.Batch
import JackSyntax.CommandLine

/-!
# The program

Reads the command line, analyses what it names, and ends with a status: 0 when every source was
analysed, 1 when one was not, 2 when the command line is refused.

Headlines:
* `Program.run` is the whole program over a workspace.
* `Fault.isReported` says which faults the program reports itself; the others break it off.
-/

namespace JackSyntax

/-- The program reports the fault and ends with status 1. -/
def Fault.isReported : Fault → Bool
  | defect (.access _ _) | notSource _ | unencodable _ => true
  | unwritten _ (.refused fault) => fault != .tooWide
  | unread error => error.cause != .pastEnd
  | _ => false

namespace Program

/-- How the program ends. -/
inductive Ending where
  /-- It returns a status. -/
  | returned (status : Nat)
  /-- It leaves while reading the command line: with the help text, or with an error. -/
  | left (stop : CommandLine.Stop)
  /-- It breaks off. -/
  | brokenOff (fault : Fault)

/-- The status of a command line that is not carried out. -/
def leavingStatus : CommandLine.Stop → Nat
  | .help => 0
  | .refused _ => 2

/-- The status that the program ends with. -/
def Ending.status : Ending → Nat
  | returned status => status
  | left stop => leavingStatus stop
  | brokenOff _ => 1

/-- What the program prints as its result: the help text, when it was asked for. -/
def Ending.answer : Ending → String
  | left .help => CommandLine.help
  | _ => ""

/-- What the program prints about a command line that it refuses. -/
def Ending.complaint : Ending → String
  | left (.refused error) => error.output
  | _ => ""

/-- What the end of a run means, the faults it reports itself being logged. -/
def conclude : EStateM.Result Fault Workspace BatchReport → Ending × Workspace
  | .ok report workspace => (.returned (if report.ok then 0 else 1), workspace)
  | .error fault workspace =>
    if fault.isReported then (.returned 1, workspace.tell .error "jack_cli" fault.message)
    else (.brokenOff fault, workspace)

/-- The least level that is shown for a command line. -/
def threshold (words : List String) : LogLevel :=
  match CommandLine.parse words with
  | .ok options => options.verbosity.threshold
  | .error _ => .warning

/-- The whole program. -/
def run (words : List String) (workspace : Workspace) : Ending × Workspace :=
  match CommandLine.parse words with
  | .error stop => (.left stop, workspace)
  | .ok options =>
    conclude (Batch.analyzePath options.settings (.ofString options.path) workspace)

/-- The lines that the program logs at the level its command line asks for. -/
def logged (words : List String) (workspace : Workspace) : String :=
  LogRecord.shown (threshold words) workspace.log.toList

/-- The directories whose files a run may read, replace or remove: that of the path itself, that
around it, and that of the documents. -/
def surveyed (options : CommandLine.Options) : List Path :=
  let path := Path.ofString options.path
  [path, path.parent] ++ options.settings.outputDir.toList

/-- The file may be a source or a document of a run. -/
def concerns (options : CommandLine.Options) (path : Path) : Bool :=
  path.suffix == options.settings.sourceSuffix ||
    options.settings.format?.any fun target => path.suffix == target.extension

end Program

end JackSyntax
