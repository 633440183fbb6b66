import JackSyntax.Proofs.Batch.Stopping
import JackSyntax.Proofs.Documents.Characters

/-!
# Documents can be encoded

A document goes to disk in the encoding that its source was read in. Both are drawn from the same
characters, so the encoding has bytes for each of them and no analysis ends for want of one.

## The model

* `Text.Encoding.Covers encoding c`: the encoding has bytes for the character.

## Results

* `Text.Encoding.isSome_encode_iff`: a text is encoded when each of its characters is covered.
* `Text.Encoding.covers_of_decode`: what was decoded is covered, and so is ASCII.
* `Artifacts.isSome_encode`: both documents of a text that is covered can be encoded.
* `Batch.encodes_writeDocuments`, `Batch.encodes_produce`: no step of an analysis fails for that.
* **`Batch.documents_are_encodable`**: both, for every encoding.
-/

namespace JackSyntax

/-! ## Encodings -/

namespace Text

theorem mem_normalizeNewlines {c : Char} {text : List Char} (h : c ∈ normalizeNewlines text) :
    c = '\n' ∨ c ∈ text := by
  fun_induction normalizeNewlines text with
  | case1 => cases h
  | case2 rest ih | case3 rest _ ih | case4 d rest _ _ ih =>
    rw [List.mem_cons] at h
    simp only [List.mem_cons]
    tauto

namespace Encoding

variable {encoding : Encoding} {bytes : ByteArray} {text : String}

/-- The encoding has bytes for the character. -/
def Covers (encoding : Encoding) (c : Char) : Prop :=
  encoding = .utf8 ∨ c.toNat < encoding.singleBytes

theorem covers_of_ascii (encoding : Encoding) {c : Char} (h : c.toNat < 0x80) :
    encoding.Covers c := by
  cases encoding with
  | utf8 => exact .inl rfl
  | latin1 => exact .inr (Nat.lt_trans h (by decide))
  | ascii => exact .inr h

theorem isSome_encode_iff :
    (encoding.encode text).isSome = true ↔ ∀ c ∈ text.toList, encoding.Covers c := by
  cases encoding <;> simp [encode, Covers]

theorem toNat_ofNat_of_lt {n : Nat} (h : n < 0x100) : (Char.ofNat n).toNat = n := by
  have hvalid : n.isValidChar := .inl (Nat.lt_trans h (by decide))
  rw [Char.ofNat, dif_pos hvalid]
  rfl

/-- Each byte of a text in Latin-1 or ASCII is one character. -/
theorem covers_of_decode (h : encoding.decode bytes = some text) :
    ∀ c ∈ text.toList, encoding.Covers c := by
  unfold decode at h
  split at h
  · exact fun _ _ => .inl rfl
  · split at h
    · rename_i hbytes
      obtain rfl := Option.some.inj h
      intro c hc
      rw [String.toList_ofList] at hc
      obtain ⟨byte, hbyte, rfl⟩ := List.mem_map.mp hc
      have hless : byte.toNat < encoding.singleBytes := by
        simpa using List.all_eq_true.mp hbytes byte hbyte
      have hvalue : (Char.ofNat byte.toNat).toNat = byte.toNat :=
        toNat_ofNat_of_lt byte.toNat_lt
      exact .inr (by rwa [hvalue])
    · cases h

end Encoding

end Text

open Text (DrawnFrom)

/-! ## Documents of a source text -/

/-- What is drawn from a text that an encoding covers can be encoded. -/
theorem Text.DrawnFrom.isSome_encode {encoding : Text.Encoding} {source : List Char}
    {text : String} (h : DrawnFrom source text.toList)
    (hsource : ∀ c ∈ source, encoding.Covers c) : (encoding.encode text).isSome = true := by
  refine Text.Encoding.isSome_encode_iff.mpr fun c hc => ?_
  rcases h c hc with hascii | hc
  · exact encoding.covers_of_ascii hascii
  · exact hsource c hc

namespace Artifacts

variable {encoding : Text.Encoding} {bytes : ByteArray} {text : String} {target : Target}
  {indent : Option Int} {artifacts : Artifacts}

/-- The documents of a text with normal line ends are drawn from the text itself: the newline is
ASCII. -/
theorem drawnFrom_normalized
    (h : ofSource target indent (String.ofList (Text.normalizeNewlines text.toList)) =
      .ok artifacts) :
    ∀ document ∈ artifacts.documents, DrawnFrom text.toList document.toList := by
  intro document hdocument c hc
  have hdrawn := drawnFrom_source h document hdocument c hc
  rw [String.toList_ofList] at hdrawn
  rcases hdrawn with hascii | hsource
  · exact .inl hascii
  · rcases Text.mem_normalizeNewlines hsource with rfl | hsource
    · exact .inl (by decide)
    · exact .inr hsource

theorem isSome_encode (hdecode : encoding.decode bytes = some text)
    (h : ofSource target indent (String.ofList (Text.normalizeNewlines text.toList)) =
      .ok artifacts) :
    ∀ document ∈ artifacts.documents, (encoding.encode document).isSome = true :=
  fun document hdocument => (drawnFrom_normalized h document hdocument).isSome_encode
    (Text.Encoding.covers_of_decode hdecode)

end Artifacts

/-! ## Steps of an analysis -/

/-- The fault is not that a document cannot be encoded. -/
def Fault.Encodes (fault : Fault) : Prop :=
  ∀ path, fault ≠ .unencodable (.document path)

namespace Fault

theorem encodes_ofLexError (error : LexError) : (ofLexError error).Encodes := by
  unfold ofLexError
  split <;> exact nofun

theorem encodes_ofSourceFault (target : Target) (fault : SourceFault) :
    (ofSourceFault target fault).Encodes := by
  cases fault with
  | lexical error => exact encodes_ofLexError error
  | unmatched failure => cases failure <;> exact nofun
  | unwritten fault => exact nofun

end Fault

namespace Batch

variable {settings : Settings} {target : Target} {source : Path}

theorem encodes_checkPath {path : Path} : FailsOnly Fault.Encodes (checkPath path) := by
  intro before fault after h
  unfold checkPath at h
  split at h <;> cases h
  exact nofun

theorem encodes_readSource : FailsOnly Fault.Encodes (readSource settings source) := by
  refine failsOnly_bind encodes_checkPath fun _ before fault after h => ?_
  rcases readText_eq_error h with rfl | ⟨-, rfl⟩ <;> exact nofun

theorem encodes_document {text : String} :
    FailsOnly Fault.Encodes (document settings target text) := by
  intro before fault after h
  rcases document_eq_error h with ⟨error, -, rfl⟩ | ⟨-, rfl⟩ | ⟨_, _, found, -, -, -, rfl⟩
  · exact Fault.encodes_ofLexError error
  · exact nofun
  · exact Fault.encodes_ofSourceFault target found

/-- Writing fails otherwise when each document can be encoded. -/
theorem encodes_writeDocuments {codec : Text.Codec} {documents : List (Path × String)}
    (h : ∀ document ∈ documents, (codec.encode document.2).isSome = true) :
    FailsOnly Fault.Encodes (writeDocuments (some codec) documents) := by
  induction documents with
  | nil => exact failsOnly_pure
  | cons first rest ih =>
    obtain ⟨hfirst, hrest⟩ := List.forall_mem_cons.mp h
    refine failsOnly_bind (failsOnly_bind encodes_checkPath ?_) fun _ => ih hrest
    intro _ before fault after hwrite path hfault
    subst hfault
    simp only [writeText, Option.bind_some, hfirst, reduceIte] at hwrite
    split at hwrite <;> cases hwrite

theorem forall_mem_outputs {artifacts : Artifacts} {P : String → Prop}
    (h : ∀ document ∈ artifacts.documents, P document) :
    ∀ output ∈ outputs settings target source artifacts, P output.2 := by
  simp only [Artifacts.documents, List.forall_mem_cons] at h
  unfold outputs
  split <;> simp [h.1, h.2.1]

section BuiltIn

variable (hcodecs : ∀ codec, settings.codec? = some codec →
  ∃ encoding : Text.Encoding, codec = encoding.codec)

include hcodecs

theorem encodes_produce : FailsOnly Fault.Encodes (produce settings target source) := by
  intro before fault after h
  unfold produce at h
  rcases bind_eq_error h with hread | ⟨text, read, hread, h⟩
  · exact encodes_readSource before fault after hread
  rcases bind_eq_error h with hmake | ⟨artifacts, made, hmake, h⟩
  · exact encodes_document read fault after hmake
  rcases bind_eq_error h with hwrite | ⟨_, written, -, h⟩
  · -- the documents are written in the encoding that the text was decoded in
    obtain ⟨-, bytes, codec, decoded, -, hcodec, hdecode, rfl⟩ :=
      sourceText?_eq_some_iff.mp (readSource_eq_ok hread).1
    obtain ⟨encoding, rfl⟩ := hcodecs codec hcodec
    obtain ⟨-, hartifacts⟩ := document_cases settings target _ read
    obtain ⟨indent, -, hsource⟩ := hartifacts artifacts made hmake
    have hencode := Artifacts.isSome_encode hdecode hsource
    rw [hcodec] at hwrite
    exact encodes_writeDocuments (forall_mem_outputs hencode) made fault after hwrite
  · cases h

/-- No analysis of a source ends with a document that cannot be encoded. -/
theorem encodes_analyzeFile : FailsOnly Fault.Encodes (analyzeFile settings source) := by
  intro before fault after h
  rcases analyzeFile_eq_error h with
    ⟨-, rfl⟩ | ⟨target, -, ⟨hrun, -⟩ | ⟨defect, middle, -, hgiven⟩⟩
  · exact nofun
  · exact encodes_produce hcodecs before fault after hrun
  · rcases giveUp_eq_error hgiven with ⟨rfl, -⟩ | ⟨path, -, -, rfl⟩ <;> exact nofun

end BuiltIn

/-- **Documents can always be encoded.** When bytes stand for a text in an encoding and the text,
its line ends made newlines, has documents of either format and with any indentation, then each
character of a document is ASCII or one of the text, those of JSON documents are ASCII, and the
documents have bytes in the same encoding. So no analysis of a source in one of these encodings ends
because a document cannot be encoded. -/
theorem documents_are_encodable :
    (∀ (encoding : Text.Encoding) (bytes : ByteArray) (text : String) (target : Target)
      (indent : Option Int) (artifacts : Artifacts),
      encoding.decode bytes = some text →
      Artifacts.ofSource target indent (String.ofList (Text.normalizeNewlines text.toList)) =
        .ok artifacts →
      ∀ document ∈ [artifacts.listing, artifacts.tree],
        (∀ c ∈ document.toList, c.toNat < 0x80 ∨ c ∈ text.toList) ∧
        (target = .json → ∀ c ∈ document.toList, c.toNat < 0x80) ∧
        ∃ written, encoding.encode document = some written) ∧
    ∀ (settings : Settings),
      (∀ codec, settings.codec? = some codec →
        ∃ encoding : Text.Encoding, codec = encoding.codec) →
      ∀ (source path : Path) (before after : Workspace),
        analyzeFile settings source before ≠ .error (.unencodable (.document path)) after := by
  refine ⟨?_, fun settings hcodecs source path before after h =>
    encodes_analyzeFile hcodecs before _ after h path rfl⟩
  intro encoding bytes text target indent artifacts hdecode h document hdocument
  refine ⟨Artifacts.drawnFrom_normalized h document hdocument, ?_, ?_⟩
  · rintro rfl c hc
    exact (Artifacts.isPlain_of_json h document hdocument c hc).toNat_lt
  · exact Option.isSome_iff_exists.mp (Artifacts.isSome_encode hdecode h document hdocument)

/-- A class that hands on an accented letter. Its first line ends in a carriage return. -/
def textOfAccent : String :=
  "class A \x7b\x0d function void f() \x7b do g(\"\u00e9\"); \x7d \x7d"

/-- The class in Latin-1. -/
def bytesOfAccent : ByteArray :=
  (textOfAccent.toList.map fun c => c.toNat.toUInt8).toByteArray

/-- The tokens of that class. -/
def tokensOfAccent : List Token :=
  [⟨.keyword, "class", ⟨1, 1⟩⟩, ⟨.identifier, "A", ⟨1, 7⟩⟩, ⟨.symbol, "\x7b", ⟨1, 9⟩⟩,
    ⟨.keyword, "function", ⟨2, 2⟩⟩, ⟨.keyword, "void", ⟨2, 11⟩⟩, ⟨.identifier, "f", ⟨2, 16⟩⟩,
    ⟨.symbol, "(", ⟨2, 17⟩⟩, ⟨.symbol, ")", ⟨2, 18⟩⟩, ⟨.symbol, "\x7b", ⟨2, 20⟩⟩,
    ⟨.keyword, "do", ⟨2, 22⟩⟩, ⟨.identifier, "g", ⟨2, 25⟩⟩, ⟨.symbol, "(", ⟨2, 26⟩⟩,
    ⟨.stringConstant, "\u00e9", ⟨2, 27⟩⟩, ⟨.symbol, ")", ⟨2, 30⟩⟩, ⟨.symbol, ";", ⟨2, 31⟩⟩,
    ⟨.symbol, "\x7d", ⟨2, 33⟩⟩, ⟨.symbol, "\x7d", ⟨2, 35⟩⟩]

theorem scan_textOfAccent :
    Token.scan (String.ofList (Text.normalizeNewlines textOfAccent.toList)) = .ok tokensOfAccent :=
  Token.scan_of_outcomeIn (show (Reader.ofString _).outcomeIn 18 = some _ by decide +kernel)

theorem documents_of_accent_are_encodable :
    Text.Encoding.latin1.decode bytesOfAccent = some textOfAccent ∧
    (∃ artifacts, Artifacts.ofSource .xml (some 2)
        (String.ofList (Text.normalizeNewlines textOfAccent.toList)) = .ok artifacts ∧
      ∀ document ∈ [artifacts.listing, artifacts.tree],
        (∀ c ∈ document.toList, c.toNat < 0x80 ∨ c ∈ textOfAccent.toList) ∧
        ∃ written, Text.Encoding.latin1.encode document = some written) ∧
    ∀ (source path : Path) (before after : Workspace),
      analyzeFile { encoding := "latin-1" } source before ≠
        .error (.unencodable (.document path)) after := by
  have hdecode : Text.Encoding.latin1.decode bytesOfAccent = some textOfAccent := by
    decide +kernel
  have hsome : (Tree.ofTokens tokensOfAccent).toOption.isSome = true := by decide +kernel
  refine ⟨hdecode, ?_, documents_are_encodable.2 _ fun codec hcodec => ?_⟩
  · cases htree : Tree.ofTokens tokensOfAccent with
    | error failure =>
      rw [htree] at hsome
      cases hsome
    | ok tree =>
      obtain ⟨artifacts, h⟩ :=
        @Artifacts.exists_ofSource _ _ _ scan_textOfAccent htree .xml (some 2) (by decide)
      refine ⟨artifacts, h, fun document hdocument => ?_⟩
      obtain ⟨hdrawn, -, hwritten⟩ :=
        documents_are_encodable.1 _ _ _ _ _ _ hdecode h document hdocument
      exact ⟨hdrawn, hwritten⟩
  · have hname : Text.Encoding.ofName? "latin-1" = some .latin1 := by decide +kernel
    exact ⟨.latin1, Option.some.inj (hcodec.symm.trans (codec?_of_ofName? hname rfl))⟩

end Batch

end JackSyntax
