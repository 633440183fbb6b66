import JackSyntax.Proofs.Documents.Lines
import JackSyntax.Proofs.Lexing.Writing

/-!
# Reading a listing back

The markup listing of some tokens is read line by line, and its lexemes are written down again. What
comes out is scanned as the same words, so a listing loses nothing but the places and the gaps.

## The model

* `Event.lexeme?`: the lexeme of a leaf line.
* `Document.sourceOfListing?`: the lexemes of a listing, with single blanks between them; the first
  and the last line are dropped.

## Results

* `listing_xml`: the lines of a listing.
* `sourceOfListing_listing`: what is read from the listing of well-formed words are their lexemes.
* **`listing_scans_again`**: the tokens of a text, listed and read back, are scanned as the same
  words; and so are any well-formed words that are written down.
-/

namespace JackSyntax

/-- The lexeme of a leaf. -/
def Event.lexeme? : Event → Option String
  | leaf kind text => (TokenKind.ofTag? kind).map fun kind => (Word.mk kind text).lexeme
  | _ => none

/-- The lexemes of a listing, its first and last line dropped, with single blanks between them. -/
def Document.sourceOfListing? (listing : String) : Option String :=
  ((Text.lines listing.toList).tail.dropLast.mapM fun line =>
    (Event.ofLine? line).bind Event.lexeme?).map (" ".intercalate ·)

/-! ## The lines of a listing -/

/-- The event of a token. -/
def Token.event (token : Token) : Event :=
  .leaf token.kind.tag token.text

theorem areProper_map_ofToken (tokens : List Token) :
    Tree.areProper (tokens.map Tree.ofToken) = true := by
  induction tokens with
  | nil => rfl
  | cons token tokens ih => exact ih

theorem linesAll_map_ofToken (indent : Int) (depth : Nat) (tokens : List Token) :
    Tree.linesAll indent depth (tokens.map Tree.ofToken) =
      tokens.map fun token => token.event.lineAt indent depth := by
  induction tokens with
  | nil => rfl
  | cons token tokens ih =>
    rw [List.map_cons, Tree.linesAll, ih]
    rfl

/-- The lines of a listing: one for each token, between those of its own tag. -/
def Document.listingLines (indent : Int) (tokens : List Token) : List String :=
  (Event.opened listingTag).lineAt indent 0 ::
    (tokens.map fun token => token.event.lineAt indent 1) ++
      [(Event.closed listingTag).lineAt indent 0]

theorem Document.listing_xml (indent : Option Int) (tokens : List Token) :
    Document.listing .xml indent tokens =
      .ok (String.join ((listingLines (indent.getD 0) tokens).map (· ++ "\n"))) := by
  have hproper : (listingTree tokens).isProper = true := areProper_map_ofToken tokens
  rw [listing, ofTree_xml hproper, listingTree, Tree.lines, linesAll_map_ofToken]
  rfl

/-! ## What the lines tell -/

theorem clearName_tag (kind : TokenKind) : Event.ClearName kind.tag := by
  unfold Event.ClearName
  cases kind <;> decide

theorem newline_not_mem_tag (kind : TokenKind) : '\n' ∉ kind.tag.toList := by
  cases kind <;> decide

theorem newline_not_mem_of_isWordCharacter {text : List Char}
    (h : ∀ c ∈ text, isWordCharacter c = true) : '\n' ∉ text := by
  intro hline
  have hword : isWordCharacter '\n' = true := h _ hline
  cases hword

theorem Word.WellFormed.newline_not_mem {word : Word} (h : word.WellFormed) :
    '\n' ∉ word.text.toList := by
  cases h with
  | keyword htext =>
    obtain ⟨first, more, rfl, -, hword⟩ := name_of_mem_keywords htext
    rw [String.toList_ofList]
    exact newline_not_mem_of_isWordCharacter hword
  | @symbol c hmark =>
    have hall : Vocabulary.symbols.all (· != '\n') = true := by decide
    have hne : c ≠ '\n' := by simpa using List.all_eq_true.mp hall c hmark
    simpa using hne.symm
  | identifier _ hword =>
    rw [String.toList_ofList]
    exact newline_not_mem_of_isWordCharacter hword
  | integer =>
    exact newline_not_mem_of_isWordCharacter fun c hc =>
      isWordCharacter_of_isDigit (isDigit_of_mem_toString hc)
  | string _ hline =>
    rw [String.toList_ofList]
    exact hline

theorem Token.clear_event {token : Token} (h : token.word.WellFormed) : token.event.Clear := by
  refine ⟨clearName_tag token.kind, fun hkind => ?_⟩
  have hsymbol : token.kind = .symbol := by
    cases hk : token.kind <;> simp [hk, TokenKind.tag] at hkind ⊢
  generalize hword : token.word = word at h
  have htext : token.text = word.text := hword ▸ rfl
  have hkind : word.kind = .symbol := hword ▸ hsymbol
  cases h with
  | @symbol c hmark => exact ⟨c, hmark, htext⟩
  | keyword | identifier | integer | string => cases hkind

theorem Token.oneLine_event {token : Token} (h : token.word.WellFormed) : token.event.OneLine :=
  ⟨newline_not_mem_tag token.kind, h.newline_not_mem⟩

/-! ## Reading a listing -/

theorem mapM_eq_some_map {α β : Type} {read : α → Option β} {value : α → β} {items : List α}
    (h : ∀ item ∈ items, read item = some (value item)) :
    items.mapM read = some (items.map value) := by
  induction items with
  | nil => rfl
  | cons item items ih =>
    obtain ⟨hitem, hitems⟩ := List.forall_mem_cons.mp h
    simp [List.mapM_cons, hitem, ih hitems]

theorem lexeme_of_lineAt {token : Token} (h : token.word.WellFormed) (indent : Int) (depth : Nat) :
    (Event.ofLine? (token.event.lineAt indent depth).toList).bind Event.lexeme? =
      some token.word.lexeme := by
  rw [ofLine?_lineAt (Token.clear_event h), Option.bind_some, Token.event, Event.lexeme?,
    TokenKind.ofTag?_tag]
  rfl

/-- **What is read from a listing** are the lexemes of its words. -/
theorem sourceOfListing_listing {tokens : List Token} (h : ∀ token ∈ tokens, token.word.WellFormed)
    (indent : Int) :
    Document.sourceOfListing?
        (String.join ((Document.listingLines indent tokens).map (· ++ "\n"))) =
      some (" ".intercalate ((tokens.map Token.word).map Word.lexeme)) := by
  have hlines : ∀ line ∈ Document.listingLines indent tokens, '\n' ∉ line.toList := by
    intro line hline
    simp only [Document.listingLines, List.cons_append, List.mem_cons, List.mem_append,
      List.mem_map, List.not_mem_nil, or_false] at hline
    rcases hline with rfl | ⟨token, htoken, rfl⟩ | rfl
    · exact newline_not_mem_lineAt (by unfold Event.OneLine; decide) indent 0
    · exact newline_not_mem_lineAt (Token.oneLine_event (h token htoken)) indent 1
    · exact newline_not_mem_lineAt (by unfold Event.OneLine; decide) indent 0
  have hleaves : ((Document.listingLines indent tokens).map String.toList).tail.dropLast =
      tokens.map fun token => (token.event.lineAt indent 1).toList := by
    simp [Document.listingLines]
  have hread : ((tokens.map fun token => (token.event.lineAt indent 1).toList).mapM fun line =>
      (Event.ofLine? line).bind Event.lexeme?) =
        some (tokens.map fun token => token.word.lexeme) := by
    rw [List.mapM_map]
    exact mapM_eq_some_map fun token htoken => lexeme_of_lineAt (h token htoken) indent 1
  rw [Document.sourceOfListing?, Text.lines_join hlines, hleaves, hread, Option.map_some,
    List.map_map]
  rfl

/-- **A listing scans again.** The listing of the tokens of a text, read line by line and written
down with single blanks, is scanned as tokens of the same words. So are any well-formed words. -/
theorem listing_scans_again :
    (∀ (source : String) (tokens : List Token) (indent : Option Int),
      Token.scan source = .ok tokens →
      ∃ listing text again, Document.listing .xml indent tokens = .ok listing ∧
        Document.sourceOfListing? listing = some text ∧ Token.scan text = .ok again ∧
        again.map Token.word = tokens.map Token.word) ∧
    ∀ words : List Word, (∀ word ∈ words, word.WellFormed) →
      ∃ tokens, Token.scan (" ".intercalate (words.map Word.lexeme)) = .ok tokens ∧
        tokens.map Token.word = words := by
  refine ⟨fun source tokens indent hscan => ?_, fun words hwords => scan_lexemes hwords⟩
  have hwords := wellFormed_of_scan hscan
  obtain ⟨again, hagain, hsame⟩ := scan_lexemes hwords
  refine ⟨_, _, again, Document.listing_xml indent tokens, ?_, hagain, hsame⟩
  exact sourceOfListing_listing (fun token htoken => hwords _ (List.mem_map_of_mem htoken)) _

/-- Marks that are escaped or would open a comment, and a string that looks like a leaf line. -/
def Word.lookalikes : List Word :=
  [⟨.symbol, "<"⟩, ⟨.stringConstant, " </symbol> // &lt;"⟩, ⟨.symbol, "/"⟩, ⟨.symbol, "/"⟩,
    ⟨.integerConstant, "32767"⟩, ⟨.keyword, "class"⟩]

theorem Word.wellFormed_lookalikes : ∀ word ∈ lookalikes, word.WellFormed := by
  have hstring : WellFormed ⟨.stringConstant, String.ofList " </symbol> // &lt;".toList⟩ :=
    .string (by decide) (by decide)
  have hinteger : WellFormed ⟨.integerConstant, toString 32767⟩ := .integer (by decide)
  intro word hword
  simp only [lookalikes, List.mem_cons, List.not_mem_nil, or_false] at hword
  rcases hword with rfl | rfl | rfl | rfl | rfl | rfl
  · exact .symbol (c := '<') (by decide)
  · rwa [String.ofList_toList] at hstring
  · exact .symbol (c := '/') (by decide)
  · exact .symbol (c := '/') (by decide)
  · exact hinteger
  · exact .keyword (by decide)

theorem listing_of_lookalikes_scans_again :
    (∃ tokens, Token.scan "< \" </symbol> // &lt;\" / / 32767 class" = .ok tokens ∧
      ∃ listing text again, Document.listing .xml (some 2) tokens = .ok listing ∧
        Document.sourceOfListing? listing = some text ∧ Token.scan text = .ok again ∧
        again.map Token.word = tokens.map Token.word) ∧
    (∀ word ∈ Word.lookalikes, word.WellFormed) ∧
    ∃ tokens, Token.scan (" ".intercalate (Word.lookalikes.map Word.lexeme)) = .ok tokens ∧
      tokens.map Token.word = Word.lookalikes := by
  have htext : " ".intercalate (Word.lookalikes.map Word.lexeme) =
      "< \" </symbol> // &lt;\" / / 32767 class" := by decide
  obtain ⟨tokens, hscan, -⟩ := scan_lexemes Word.wellFormed_lookalikes
  rw [htext] at hscan
  exact ⟨⟨tokens, hscan, listing_scans_again.1 _ tokens (some 2) hscan⟩,
    Word.wellFormed_lookalikes, listing_scans_again.2 _ Word.wellFormed_lookalikes⟩

end JackSyntax
