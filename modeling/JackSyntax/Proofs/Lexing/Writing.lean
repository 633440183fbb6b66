import JackSyntax.Proofs.Grammar.Derivation
import JackSyntax.Proofs.Lexing.Splitting

/-!
# Writing words down

A word can be written down again: a string constant in its quotes, any other word as its text. With
one blank between them, words are scanned as they were.

## The model

* `Word.WellFormed`: the words that a token can be of, said without any scanning.
* `Word.lexeme`: the characters that a word is written down with. An integer is written without the
  leading zeros it may have been read with.

## Results

* `wellFormed_of_scan`: every token that is scanned is of a well-formed word.
* `spells_lexeme`: the lexeme of a well-formed word writes it, in front of a blank and at the end.
* **`scan_lexemes`**: well-formed words with single blanks between them are scanned as themselves.
-/

namespace JackSyntax

namespace Word

/-- The words that a token can be of. -/
inductive WellFormed : Word → Prop
  | keyword {text : String} (htext : text ∈ Vocabulary.keywords) : WellFormed ⟨.keyword, text⟩
  | symbol {c : Char} (hmark : c ∈ Vocabulary.symbols) : WellFormed ⟨.symbol, String.singleton c⟩
  | identifier {first : Char} {more : List Char} (hfirst : isDigit first = false)
    (hword : ∀ c ∈ first :: more, isWordCharacter c = true)
    (hname : String.ofList (first :: more) ∉ Vocabulary.keywords) :
    WellFormed ⟨.identifier, String.ofList (first :: more)⟩
  | integer {value : Nat} (hvalue : value ≤ 32767) : WellFormed ⟨.integerConstant, toString value⟩
  | string {body : List Char} (hquote : '"' ∉ body) (hline : '\n' ∉ body) :
    WellFormed ⟨.stringConstant, String.ofList body⟩

/-- The characters that a word is written down with. -/
def lexeme (word : Word) : String :=
  if word.kind = .stringConstant then "\"" ++ word.text ++ "\"" else word.text

end Word

/-! ## Scanned words are well-formed -/

theorem Spells.wellFormed {word : Word} {l rest : List Char} (h : Spells word l rest) :
    word.WellFormed := by
  cases h with
  | string hquote hline => exact .string hquote hline
  | integer _ _ _ hvalue => exact .integer hvalue
  | mark hmark => exact .symbol hmark
  | @name first more _ hfirst hrun =>
    by_cases hname : String.ofList (first :: more) ∈ Vocabulary.keywords
    · rw [if_pos hname]
      exact .keyword hname
    · rw [if_neg hname]
      exact .identifier hfirst hrun.1 hname

theorem Splits.wellFormed {passed text : List Char} {tokens : List Token}
    (h : Splits passed text tokens) : ∀ token ∈ tokens, token.word.WellFormed := by
  induction h with
  | last => simp
  | token _ hword _ ih =>
    intro token htoken
    rcases List.mem_cons.mp htoken with rfl | htoken
    · exact hword.wellFormed
    · exact ih token htoken

theorem wellFormed_of_scan {source : String} {tokens : List Token}
    (h : Token.scan source = .ok tokens) : ∀ word ∈ tokens.map Token.word, word.WellFormed := by
  intro word hword
  obtain ⟨token, htoken, rfl⟩ := List.mem_map.mp hword
  exact (Token.splits_of_scan h).wellFormed token htoken

/-! ## Numerals -/

theorem isDigit_of_mem_toString {value : Nat} {c : Char} (h : c ∈ (toString value).toList) :
    isDigit c = true := by
  rw [Nat.toString_eq_repr, Nat.toList_repr] at h
  have hdigit : c.isDigit = true := Nat.isDigit_of_mem_toDigits (by decide) (by decide) h
  simp only [Char.isDigit, Bool.and_eq_true, decide_eq_true_eq] at hdigit
  simp only [isDigit, Bool.and_eq_true, decide_eq_true_eq]
  exact hdigit

theorem spelledValue_toString (value : Nat) : spelledValue (toString value).toList = value := by
  have hread : Nat.ofDigitChars 10 (Nat.toDigits 10 value) 0 = value :=
    Nat.ofDigitChars_toDigits (by decide) (by decide)
  rw [← digitsValue_eq, digitsValue, Text.decimal, List.foldl_map, Nat.toString_eq_repr,
    Nat.toList_repr]
  exact hread

theorem length_toString_le {value : Nat} (h : value ≤ 32767) :
    1 ≤ (toString value).toList.length ∧ (toString value).toList.length ≤ 4300 := by
  rw [Nat.toString_eq_repr, Nat.toList_repr]
  have hshort : (Nat.toDigits 10 value).length ≤ 5 :=
    (Nat.length_toDigits_le_iff (by decide) (by decide)).mpr (by omega)
  exact ⟨Nat.length_toDigits_pos, by omega⟩

/-! ## Lexemes write their words -/

/-- The end of the text, or a blank. -/
def EndsWord (rest : List Char) : Prop :=
  ∀ c, rest.head? = some c → c = ' '

theorem EndsWord.longestRun {accept : Char → Bool} {run rest : List Char} (hrest : EndsWord rest)
    (hblank : accept ' ' = false) (hrun : ∀ c ∈ run, accept c = true) :
    LongestRun accept run rest := by
  refine ⟨hrun, fun c hc => ?_⟩
  rw [hrest c hc]
  exact hblank

/-- A keyword is a name. -/
theorem name_of_mem_keywords {text : String} (h : text ∈ Vocabulary.keywords) :
    ∃ first more, text = String.ofList (first :: more) ∧ isDigit first = false ∧
      ∀ c ∈ first :: more, isWordCharacter c = true := by
  have hall : Vocabulary.keywords.all (fun text =>
      text.toList.head?.any (!isDigit ·) && text.toList.all isWordCharacter) = true := by decide
  have htext := List.all_eq_true.mp hall text h
  cases hlist : text.toList with
  | nil => simp [hlist] at htext
  | cons first more =>
    refine ⟨first, more, ?_, ?_, ?_⟩
    · rw [← hlist, String.ofList_toList]
    · simpa [hlist] using (Bool.and_eq_true_iff.mp htext).1
    · rw [← hlist]
      exact List.all_eq_true.mp (Bool.and_eq_true_iff.mp htext).2

/-- **The lexeme of a well-formed word writes it**, when nothing but a blank follows. -/
theorem spells_lexeme {word : Word} {rest : List Char} (h : word.WellFormed)
    (hrest : EndsWord rest) : Spells word word.lexeme.toList rest := by
  cases h with
  | @keyword text htext =>
    obtain ⟨first, more, rfl, hfirst, hword⟩ := name_of_mem_keywords htext
    have hspells := Spells.name hfirst (hrest.longestRun rfl hword)
    rw [if_pos htext] at hspells
    simpa [Word.lexeme] using hspells
  | symbol hmark =>
    have hslash : ∀ c, rest.head? = some c → c ≠ '/' ∧ c ≠ '*' := by
      intro c hc
      rw [hrest c hc]
      decide
    have hspells := Spells.mark hmark fun _ =>
      ⟨fun hc => (hslash _ hc).1 rfl, fun hc => (hslash _ hc).2 rfl⟩
    simpa [Word.lexeme] using hspells
  | identifier hfirst hword hname =>
    have hspells := Spells.name hfirst (hrest.longestRun rfl hword)
    rw [if_neg hname] at hspells
    simpa [Word.lexeme] using hspells
  | @integer value hvalue =>
    obtain ⟨hsome, hmost⟩ := length_toString_le hvalue
    have hrun : LongestRun isDigit (toString value).toList rest :=
      hrest.longestRun rfl fun c hc => isDigit_of_mem_toString hc
    have hspells := Spells.integer hsome hmost hrun (by rwa [spelledValue_toString])
    rw [spelledValue_toString] at hspells
    simpa [Word.lexeme] using hspells
  | string hquote hline =>
    simpa [Word.lexeme] using Spells.string hquote hline

/-! ## Words with blanks between them -/

/-- The words, a blank in front of each. -/
def Word.blankLed (words : List Word) : List Char :=
  words.flatMap fun word => ' ' :: word.lexeme.toList

theorem endsWord_blankLed (words : List Word) : EndsWord (Word.blankLed words) := by
  intro c hc
  cases words with
  | nil => cases hc
  | cons word words => exact (Option.some.inj hc).symm

/-- Between two words stands a blank, and no blank in front of the first. -/
theorem toList_intercalate_lexemes (word : Word) (words : List Word) :
    (" ".intercalate ((word :: words).map Word.lexeme)).toList =
      word.lexeme.toList ++ Word.blankLed words := by
  rw [String.toList_intercalate, List.map_map]
  induction words generalizing word with
  | nil => simp [Word.blankLed]
  | cons next words ih =>
    have hrest := ih next
    rw [List.map_cons] at hrest
    rw [List.map_cons, List.map_cons, List.intercalate_cons_cons, hrest]
    simp [Word.blankLed]

theorem splits_blankLed {words : List Word} (h : ∀ word ∈ words, word.WellFormed)
    (passed : List Char) :
    ∃ tokens, Splits passed (Word.blankLed words) tokens ∧ tokens.map Token.word = words := by
  induction words generalizing passed with
  | nil => exact ⟨[], .last .nil, rfl⟩
  | cons word words ih =>
    obtain ⟨hword, hwords⟩ := List.forall_mem_cons.mp h
    obtain ⟨tokens, hsplits, htokens⟩ := ih hwords (passed ++ [' '] ++ word.lexeme.toList)
    have hspells := spells_lexeme hword (endsWord_blankLed words)
    have hgap : IsGap [' '] (word.lexeme.toList ++ Word.blankLed words) := .cons (.blank rfl) .nil
    refine ⟨_, .token hgap hspells hsplits, ?_⟩
    rw [List.map_cons, htokens]
    rfl

/-- **Words that are written down are scanned as they were**: well-formed words with single blanks
between them. -/
theorem scan_lexemes {words : List Word} (h : ∀ word ∈ words, word.WellFormed) :
    ∃ tokens, Token.scan (" ".intercalate (words.map Word.lexeme)) = .ok tokens ∧
      tokens.map Token.word = words := by
  cases words with
  | nil => exact ⟨[], Token.scan_of_splits (.last .nil), rfl⟩
  | cons word words =>
    obtain ⟨hword, hwords⟩ := List.forall_mem_cons.mp h
    obtain ⟨tokens, hsplits, htokens⟩ := splits_blankLed hwords word.lexeme.toList
    have hspells := spells_lexeme hword (endsWord_blankLed words)
    have hall : Splits [] (word.lexeme.toList ++ Word.blankLed words)
        (⟨word.kind, word.text, .behind []⟩ :: tokens) := .token .nil hspells hsplits
    rw [← toList_intercalate_lexemes] at hall
    refine ⟨_, Token.scan_of_splits hall, ?_⟩
    rw [List.map_cons, htokens]
    rfl

end JackSyntax
