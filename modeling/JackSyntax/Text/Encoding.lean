/-!
# Text encodings

How the bytes of a file stand for characters, and how lines end.

Headlines:
* A `Codec` reads and writes whole texts. Both ways are partial, because bytes or characters may
  have no meaning in it.
* `Encoding` lists the three codecs that are built in: UTF-8, Latin-1 and ASCII. `Encoding.ofName?`
  knows them by their names, however they are spelled.
* `Codec.ofName?` is a table of codecs that holds these three alone. An analysis takes any table, so
  that what is said of it holds for every other codec too.
* `normalizeNewlines` makes every line end with a newline alone.

Left out: codecs that refuse with anything but a decoding or an encoding error, and error handlers
other than the strict one.
-/

namespace JackSyntax.Text

/-- How a text is read from bytes and written as bytes. -/
structure Codec where
  decode : ByteArray → Option String
  encode : String → Option ByteArray

/-- The encodings that are built in. -/
inductive Encoding where
  | utf8
  | latin1
  | ascii
deriving DecidableEq, Repr, Inhabited

namespace Encoding

/-- The usual name of an encoding, in its plain spelling. -/
def name : Encoding → String
  | utf8 => "utf_8"
  | latin1 => "latin_1"
  | ascii => "ascii"

/-- The other names of an encoding, in their plain spelling. -/
def aliases : Encoding → List String
  | utf8 => ["u8", "utf", "utf8", "utf8_ucs2", "utf8_ucs4", "cp65001"]
  | latin1 =>
    ["8859", "cp819", "csisolatin1", "ibm819", "iso8859", "iso8859_1", "iso_8859_1",
      "iso_8859_1_1987", "iso_ir_100", "l1", "latin", "latin1"]
  | ascii =>
    ["646", "ansi_x3.4_1968", "ansi_x3_4_1968", "ansi_x3.4_1986", "cp367", "csascii", "ibm367",
      "iso646_us", "iso_646.irv_1991", "iso_ir_6", "us", "us_ascii"]

/-- The characters that a name consists of; all others only separate its parts. -/
def isNameChar (c : Char) : Bool :=
  c.isAlphanum || c == '.'

/-- Small letters, and a single low line for the characters between two parts. -/
def joinParts : List Char → List Char
  | [] => []
  | c :: rest =>
    let joined := joinParts rest
    if isNameChar c then c.toLower :: joined
    else if joined.isEmpty || joined.head? == some '_' then joined
    else '_' :: joined

/-- The plain spelling of a name. -/
def plain (name : String) : String :=
  String.ofList ((joinParts name.toList).dropWhile (· == '_'))

/-- The encoding goes by a name in plain spelling. Its other names may have points for low lines. -/
def goesBy (encoding : Encoding) (spelling : String) : Bool :=
  let pointless := spelling.map fun c => if c == '.' then '_' else c
  encoding.name == spelling || encoding.aliases.contains spelling ||
    encoding.aliases.contains pointless

/-- The encoding of a name. -/
def ofName? (name : String) : Option Encoding :=
  [utf8, latin1, ascii].find? (·.goesBy (plain name))

/-- What is said of a name that no encoding has. -/
def unknownName (name : String) : String :=
  s!"unknown encoding: {name}"

/-- The number of characters that one byte each stands for, when bytes and characters correspond. -/
def singleBytes : Encoding → Nat
  | utf8 => 0x80
  | latin1 => 0x100
  | ascii => 0x80

/-- The text of some bytes. -/
def decode (encoding : Encoding) (bytes : ByteArray) : Option String :=
  match encoding with
  | utf8 => String.fromUTF8? bytes
  | _ =>
    if bytes.toList.all fun byte => byte.toNat < encoding.singleBytes then
      some (String.ofList (bytes.toList.map fun byte => Char.ofNat byte.toNat))
    else none

/-- The bytes of a text. -/
def encode (encoding : Encoding) (text : String) : Option ByteArray :=
  match encoding with
  | utf8 => some text.toUTF8
  | _ =>
    if text.toList.all fun c => c.toNat < encoding.singleBytes then
      some (text.toList.map fun c => c.toNat.toUInt8).toByteArray
    else none

/-- An encoding as a codec. -/
def codec (encoding : Encoding) : Codec :=
  ⟨encoding.decode, encoding.encode⟩

end Encoding

/-- UTF-8. -/
def Codec.utf8 : Codec :=
  Encoding.utf8.codec

/-- The codec of a name, among those that are built in. -/
def Codec.ofName? (name : String) : Option Codec :=
  (Encoding.ofName? name).map Encoding.codec

/-- Every line end, a carriage return with or without a newline, becomes a newline. -/
def normalizeNewlines : List Char → List Char
  | [] => []
  | '\r' :: '\n' :: rest => '\n' :: normalizeNewlines rest
  | '\r' :: rest => '\n' :: normalizeNewlines rest
  | c :: rest => c :: normalizeNewlines rest

end JackSyntax.Text
