import JackSyntax.CommandLine.Flag
import JackSyntax.Text.DecimalDigit

/-!
# Arguments

How one word of the command line is understood before any of them is acted on: as an option, as the
marker that ends the options, or as an operand.

Headlines:
* `Argument.ofString` classifies a word: an option may be spelled in full, by a prefix that only one
  long spelling has, or by its letter with more text attached.
* A word that looks like a negative number, holds a space, or is a single dash is an operand.
-/

namespace JackSyntax.CommandLine

/-- One word of the command line. -/
inductive Argument where
  | operand (text : String)
  /-- The marker `--`. -/
  | endOfOptions
  /-- An option and the text attached to its spelling; `isLong` when it was spelled with two
  dashes. -/
  | option (flag : Flag) (isLong : Bool) (attached : Option (List Char))
  /-- A word that looks like an option but is none. -/
  | unknown (text : String)
  /-- A prefix of several long spellings. -/
  | ambiguous (text : String) (spellings : List String)
deriving DecidableEq, Repr

namespace Argument

/-- The text before the first equals sign and the text behind it. -/
def cutAtEquals (text : List Char) : Option (List Char × List Char) :=
  match text.dropWhile (· != '=') with
  | [] => none
  | _ :: value => some (text.takeWhile (· != '='), value)

/-- A minus sign and digits, perhaps with a point before the last of them. A newline at the end does
not matter. -/
def looksNegative (text : List Char) : Bool :=
  let isDigit (c : Char) := (Text.decimalValue? c).isSome
  let line := if text.getLast? = some '\n' then text.dropLast else text
  match line with
  | '-' :: number =>
    match number.dropWhile isDigit with
    | [] => !number.isEmpty
    | '.' :: fraction => !fraction.isEmpty && fraction.all isDigit
    | _ => false
  | _ => false

/-- The spelling begins with two dashes. -/
def isLongSpelling (spelling : String) : Bool :=
  ['-', '-'].isPrefixOf spelling.toList

/-- A word with two dashes that is no full spelling: perhaps the beginning of one. -/
def ofLongPrefix (text : List Char) : Option Argument :=
  let start := text.takeWhile (· != '=')
  let attached := (cutAtEquals text).map Prod.snd
  match Flag.table.filter fun entry => start.isPrefixOf entry.1.toList with
  | [] => none
  | [(_, flag)] => some (.option flag true attached)
  | several => some (.ambiguous (String.ofList text) (several.map Prod.fst))

/-- A word with one dash that is no spelling: perhaps a letter with more text attached. -/
def ofLetters : List Char → Option Argument
  | '-' :: letter :: attached =>
    (Flag.ofLetter? letter).map fun flag => .option flag false (some attached)
  | _ => none

/-- A word that begins with a dash and goes on. -/
def ofDashed (text : List Char) : Argument :=
  let inFull := (cutAtEquals text).bind fun (start, value) =>
    (Flag.ofSpelling? (String.ofList start)).map fun flag =>
      .option flag (isLongSpelling (String.ofList start)) (some value)
  let inPart := if ['-', '-'].isPrefixOf text then ofLongPrefix text else ofLetters text
  match inFull <|> inPart with
  | some argument => argument
  | none =>
    if looksNegative text || text.contains ' ' then .operand (String.ofList text)
    else .unknown (String.ofList text)

/-- One word of the command line, before the end of the options. -/
def ofString (text : String) : Argument :=
  match Flag.ofSpelling? text with
  | some flag => .option flag (isLongSpelling text) none
  | none =>
    match text.toList with
    | '-' :: c :: rest => ofDashed ('-' :: c :: rest)
    | _ => .operand text

/-- All words; behind the marker everything is an operand. -/
def ofWords : List String → List Argument
  | [] => []
  | word :: rest =>
    if word == "--" then endOfOptions :: rest.map operand else ofString word :: ofWords rest

end Argument

end JackSyntax.CommandLine
