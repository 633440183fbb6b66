import JackSyntax.Target

/-!
# Flags of the command line

The options that the program knows, how they are spelled, and the texts that explain them.

Headlines:
* `Flag.spellings` are the spellings of an option; `Flag.ofSpelling?` finds it by one of them.
* `Flag.takesValue` says whether a value follows.
-/

namespace JackSyntax.CommandLine

/-- An option of the program. -/
inductive Flag where
  | help
  | target
  | outDir
  | noTokens
  | indent
  | verbose
  | quiet
deriving DecidableEq, Repr, Inhabited

namespace Flag

/-- Every option, in the order of the help text. -/
def all : List Flag :=
  [help, target, outDir, noTokens, indent, verbose, quiet]

/-- The spellings of an option, the short one first. -/
def spellings : Flag → List String
  | help => ["-h", "--help"]
  | target => ["-t", "--target"]
  | outDir => ["-o", "--out-dir"]
  | noTokens => ["--no-tokens"]
  | indent => ["--indent"]
  | verbose => ["-v", "--verbose"]
  | quiet => ["-q", "--quiet"]

/-- The name of an option in messages. -/
def title (flag : Flag) : String :=
  "/".intercalate flag.spellings

/-- The option needs a value. -/
def takesValue : Flag → Bool
  | target | outDir | indent => true
  | help | noTokens | verbose | quiet => false

/-- Every spelling with its option. -/
def table : List (String × Flag) :=
  all.flatMap fun flag => flag.spellings.map (·, flag)

/-- The option of a spelling. -/
def ofSpelling? (spelling : String) : Option Flag :=
  table.lookup spelling

/-- The option of a letter behind a single dash. -/
def ofLetter? (letter : Char) : Option Flag :=
  ofSpelling? (String.ofList ['-', letter])

/-- The option that must not be given together with this one. -/
def rival? : Flag → Option Flag
  | verbose => some quiet
  | quiet => some verbose
  | _ => none

end Flag

/-- The short description of the command line. -/
def usage : String :=
  "usage: jackal [-h] [-t \x7bjson,xml\x7d] [-o DIR] [--no-tokens] [--indent N]\n" ++
  "              [-v | -q]\n" ++
  "              path\n"

/-- The help text. -/
def help : String :=
  usage ++ "\n" ++
  "Tokenize and parse Jack source files into tagged parse trees.\n\n" ++
  "positional arguments:\n" ++
  "  path                  A .jack file or a directory of .jack files\n\n" ++
  "options:\n" ++
  "  -h, --help            show this help message and exit\n" ++
  "  -t \x7bjson,xml\x7d, --target \x7bjson,xml\x7d\n" ++
  "                        Output format (default: xml)\n" ++
  "  -o DIR, --out-dir DIR\n" ++
  "                        Write outputs here instead of beside inputs\n" ++
  "  --no-tokens           Skip the token listing output\n" ++
  "  --indent N            Indent nested tags by N spaces\n" ++
  "  -v, --verbose         Debug logging\n" ++
  "  -q, --quiet           Only log problems\n"

end JackSyntax.CommandLine
