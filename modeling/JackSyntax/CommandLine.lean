import JackSyntax.CommandLine.Argument
import JackSyntax.Log
import JackSyntax.Settings
import JackSyntax.Text.Numeral

/-!
# The command line

Reads the words of a command line into options, from left to right. The first operand is the path;
every other one, and every word that only looks like an option, is left over.

Headlines:
* `UsageError` is why a command line is refused, `UsageError.message` its text.
* `parse` gives the options, the help text, or the first error. A missing path comes before words
  that are left over.

Words are understood as `argparse` does in the first releases of 3.11. Later patch releases, 3.11.10
and 3.12.3 among them, differ in odd corners, which are left out: they refuse `-t--` and
`--indent=--` with status 2, where the option is given nothing here; they take `-o--` for the
directory `--`; and they answer `-hx` with the help text, where the letter is refused here.
-/

namespace JackSyntax.CommandLine

/-- The options of a run. -/
structure Options where
  path : String
  target : Given Target := .value .xml
  outDir : Option (Given String) := none
  noTokens : Bool := false
  indent : Option (Given Int) := none
  verbose : Bool := false
  quiet : Bool := false
deriving DecidableEq, Repr

/-- Why a command line is refused. -/
inductive UsageError where
  | missingPath
  | leftOver (words : List String)
  | valueMissing (flag : Flag)
  | valueIgnored (flag : Flag) (text : String)
  | unknownFormat (text : String)
  | notInteger (text : String)
  | rivals (flag other : Flag)
  | ambiguous (text : String) (spellings : List String)
deriving DecidableEq, Repr

namespace UsageError

/-- The text of an error. -/
def message : UsageError → String
  | missingPath => "the following arguments are required: path"
  | leftOver words => "unrecognized arguments: " ++ " ".intercalate words
  | valueMissing flag => s!"argument {flag.title}: expected one argument"
  | valueIgnored flag text =>
    s!"argument {flag.title}: ignored explicit argument {Text.quoted text}"
  | unknownFormat text =>
    let known := ", ".intercalate (Target.all.map fun target => Text.quoted target.name)
    s!"argument {Flag.target.title}: invalid choice: {Text.quoted text} (choose from {known})"
  | notInteger text => s!"argument {Flag.indent.title}: invalid int value: {Text.quoted text}"
  | rivals flag other => s!"argument {flag.title}: not allowed with argument {other.title}"
  | ambiguous text spellings =>
    s!"ambiguous option: {text} could match " ++ ", ".intercalate spellings

/-- What the program prints for an error. -/
def output (error : UsageError) : String :=
  usage ++ s!"jackal: error: {error.message}\n"

end UsageError

/-- Why reading ends before the last word. -/
inductive Stop where
  | help
  | refused (error : UsageError)
deriving DecidableEq, Repr

/-- What has been read so far. -/
structure Draft where
  path : Option String := none
  options : Options := { path := "" }
  seen : List Flag := []
  leftOver : List String := []

namespace Draft

/-- What an option is given by a text. The marker `--` is no value, so it gives nothing; that is how
the release that is followed has it. -/
def given (text : String) : Given String :=
  if text == "--" then .nothing else .value text

/-- Sets an option to its value. -/
def set (draft : Draft) (flag : Flag) (value : String) : Except Stop Draft :=
  let options := draft.options
  match flag with
  | .help => .error .help
  | .target =>
    match (given value).read? Target.ofLowercase? with
    | some target => .ok { draft with options := { options with target } }
    | none => .error (.refused (.unknownFormat value))
  | .outDir => .ok { draft with options := { options with outDir := some (given value) } }
  | .noTokens => .ok { draft with options := { options with noTokens := true } }
  | .indent =>
    match (given value).read? Text.readInteger? with
    | some indent => .ok { draft with options := { options with indent := some indent } }
    | none => .error (.refused (.notInteger value))
  | .verbose => .ok { draft with options := { options with verbose := true } }
  | .quiet => .ok { draft with options := { options with quiet := true } }

/-- Acts on an option, unless its rival was given. -/
def act (draft : Draft) (flag : Flag) (value : String) : Except Stop Draft :=
  match flag.rival?.filter draft.seen.contains with
  | some other => .error (.refused (.rivals flag other))
  | none => { draft with seen := flag :: draft.seen }.set flag value

/-- Acts on several options in order. -/
def actAll (draft : Draft) : List (Flag × String) → Except Stop Draft
  | [] => .ok draft
  | (flag, value) :: rest =>
    match draft.act flag value with
    | .ok draft => draft.actAll rest
    | .error stop => .error stop

/-- An operand is the path, or left over when there is one already. -/
def operand (draft : Draft) (text : String) : Draft :=
  if draft.path.isNone then { draft with path := some text }
  else { draft with leftOver := draft.leftOver ++ [text] }

/-- A word that nothing is done with. -/
def leave (draft : Draft) (text : String) : Draft :=
  { draft with leftOver := draft.leftOver ++ [text] }

end Draft

/-- The options in one word. Letters without a value may be joined; `wantsNext` names the last one
when its value must be the next word. -/
structure Joined where
  options : List (Flag × String) := []
  wantsNext : Option Flag := none

namespace Joined

/-- One more option in front. -/
def add (joined : Joined) (flag : Flag) : Joined :=
  { joined with options := (flag, "") :: joined.options }

/-- An option without anything attached. -/
def alone (flag : Flag) : Joined :=
  if flag.takesValue then { wantsNext := some flag } else { options := [(flag, "")] }

/-- The options of a word with one dash, from the option on that a text is attached to. An option
takes the whole text as its value, or none of it; then the next letter must be that of an option. -/
def ofLetters (flag : Flag) : List Char → Except UsageError Joined
  | [] =>
    if flag.takesValue then .ok { options := [(flag, "")] } else .error (.valueIgnored flag "")
  | letter :: rest =>
    if flag.takesValue then .ok { options := [(flag, String.ofList (letter :: rest))] }
    else
      match Flag.ofLetter? letter with
      | none => .error (.valueIgnored flag (String.ofList (letter :: rest)))
      | some next =>
        if rest.isEmpty then .ok ((alone next).add flag)
        else (ofLetters next rest).map (·.add flag)

/-- The options of a word. -/
def ofOption (flag : Flag) (isLong : Bool) : Option (List Char) → Except UsageError Joined
  | none => .ok (alone flag)
  | some attached =>
    if isLong && !flag.takesValue then .error (.valueIgnored flag (String.ofList attached))
    else ofLetters flag attached

end Joined

/-- Acts on the words from left to right. The marker that ends the options is dropped next to the
path and left over elsewhere. -/
def interpret : List Argument → Draft → Except Stop Draft
  | [], draft => .ok draft
  | .endOfOptions :: .operand text :: rest, draft =>
    if draft.path.isNone then interpret rest (draft.operand text)
    else interpret rest ((draft.leave "--").leave text)
  | .endOfOptions :: rest, draft => interpret rest (draft.leave "--")
  | .operand text :: .endOfOptions :: rest, draft =>
    if draft.path.isNone then interpret rest (draft.operand text)
    else interpret rest ((draft.leave text).leave "--")
  | .operand text :: rest, draft => interpret rest (draft.operand text)
  | .unknown text :: rest, draft => interpret rest (draft.leave text)
  | .ambiguous text spellings :: _, _ => .error (.refused (.ambiguous text spellings))
  | .option flag isLong attached :: rest, draft =>
    match Joined.ofOption flag isLong attached with
    | .error error => .error (.refused error)
    | .ok joined =>
      match joined.wantsNext, rest with
      | none, rest =>
        match draft.actAll joined.options with
        | .ok draft => interpret rest draft
        | .error stop => .error stop
      | some last, .operand value :: rest =>
        match draft.actAll (joined.options ++ [(last, value)]) with
        | .ok draft => interpret rest draft
        | .error stop => .error stop
      | some last, _ => .error (.refused (.valueMissing last))

/-- Words that no option is clearly meant by are found before anything is acted on. -/
def firstAmbiguous? : List Argument → Option UsageError
  | [] => none
  | .ambiguous text spellings :: _ => some (.ambiguous text spellings)
  | _ :: rest => firstAmbiguous? rest

/-- The options of a command line. -/
def parse (words : List String) : Except Stop Options :=
  let arguments := Argument.ofWords words
  match firstAmbiguous? arguments with
  | some error => .error (.refused error)
  | none =>
    match interpret arguments {} with
    | .error stop => .error stop
    | .ok draft =>
      match draft.path with
      | none => .error (.refused .missingPath)
      | some path =>
        if draft.leftOver.isEmpty then .ok { draft.options with path }
        else .error (.refused (.leftOver draft.leftOver))

/-- The output directory that options name; an empty name names none. -/
def Options.outputDir (options : Options) : Option Path :=
  match options.outDir with
  | some (.value name) => if name.isEmpty then none else some (.ofString name)
  | some .nothing | none => none

/-- The settings that options ask for. -/
def Options.settings (options : Options) : Settings where
  target := options.target.map Target.name
  outputDir := options.outputDir
  writeTokens := !options.noTokens
  indent := options.indent

/-- How much the options ask to be shown. -/
def Options.verbosity (options : Options) : Verbosity :=
  .ofSwitches options.verbose options.quiet

end JackSyntax.CommandLine
