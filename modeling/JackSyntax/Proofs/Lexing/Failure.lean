import JackSyntax.Proofs.Lexing.Beginning

/-!
# Where scanning fails

A text that is not split has a first malformed lexeme: what stands before it is split, and it is at
its first character that the error is reported.

## The model

* `Malformed cause text`: at the front of the text stands what the cause names, seen without any
  scanning.

## Results

* `malformed_of_lexemeAt`, `malformed_of_nextToken`: one step fails at something malformed;
  `nextToken_of_malformed` is the converse.
* **`scan_eq_error_iff_malformed`**: scanning fails exactly at a malformed lexeme up to which the
  text is split.
* **`error_at_first_malformed_lexeme`**: the place that an error tells, and what stands there.
* **`scan_outcome`**: a text is split, or it has a malformed lexeme, or it has a run of digits that
  is too long to be converted; nothing else can go wrong. The last case is real
  (`scan_eq_error_of_long_digits`).
-/

namespace JackSyntax

/-! ## Malformed lexemes -/

/-- What the cause names stands at the front of the text. -/
inductive Malformed : LexCause → List Char → Prop
  | comment {body : List Char} (hopen : ¬ ['*', '/'] <:+: body) :
    Malformed .unterminatedComment ('/' :: '*' :: body)
  | string {body rest : List Char} (hquote : '"' ∉ body) (hline : '\n' ∉ body)
    (hend : rest = [] ∨ rest.head? = some '\n') :
    Malformed .unterminatedString ('"' :: (body ++ rest))
  | integer {digits rest : List Char} (hrun : LongestRun isDigit digits rest)
    (hmost : digits.length ≤ 4300) (hvalue : 32767 < spelledValue digits) :
    Malformed (.integerOutOfRange digits) (digits ++ rest)
  | digits {digits rest : List Char} (hrun : LongestRun isDigit digits rest)
    (hmany : 4300 < digits.length) : Malformed (.tooManyDigits digits.length) (digits ++ rest)
  | character {c : Char} {rest : List Char} (hblank : Text.isBlank c = false) (hquote : c ≠ '"')
    (hword : isWordCharacter c = false) (hmark : c ∉ Vocabulary.symbols) :
    Malformed (.unexpected c) (c :: rest)

theorem malformed_of_string {text : List Char} {cause : LexCause}
    (h : (Lexeme.string ('"' :: text)).word = .error cause) : Malformed cause ('"' :: text) := by
  obtain ⟨body, rest, rfl, hrun⟩ := exists_longestRun isStringCharacter text
  have hbody := fun c hc => by simpa [isStringCharacter] using hrun.1 c hc
  simp only [Lexeme.string, hrun.takeWhile_eq, List.drop_left] at h
  split at h
  · cases h
  · rename_i hclosed
    obtain rfl := Except.error.inj h
    refine .string (fun hc => (hbody _ hc).1 rfl) (fun hc => (hbody _ hc).2 rfl) ?_
    cases rest with
    | nil => exact .inl rfl
    | cons c rest =>
      have hstop : isStringCharacter c = false := hrun.2 c rfl
      have hquote : c ≠ '"' := fun hc => hclosed rest (by rw [hc])
      refine .inr ?_
      simpa [isStringCharacter, hquote] using hstop

theorem malformed_of_integer {text : List Char} {cause : LexCause}
    (hdigit : text.takeWhile isDigit ≠ []) (h : (Lexeme.integer text).word = .error cause) :
    Malformed cause text := by
  obtain ⟨run, rest, rfl, hrun⟩ := exists_longestRun isDigit text
  rw [hrun.takeWhile_eq] at hdigit
  simp only [Lexeme.integer, hrun.takeWhile_eq, Lexeme.integerWord, List.isEmpty_iff, hdigit,
    digitsValue_eq, Vocabulary.largestInteger, Text.mostDigits, reduceIte] at h
  split at h
  · obtain rfl := Except.error.inj h
    exact .digits hrun (by assumption)
  · split at h
    · obtain rfl := Except.error.inj h
      exact .integer hrun (by omega) (by assumption)
    · cases h

/-- **A lexeme that is not read is malformed**, where no gap stands in front. -/
theorem malformed_of_lexemeAt {c : Char} {text : List Char} {cause : LexCause}
    (hsolid : Solid (c :: text)) (h : (lexemeAt c text).word = .error cause) :
    Malformed cause (c :: text) := by
  unfold lexemeAt at h
  split at h
  next hquote =>
    subst hquote
    exact malformed_of_string h
  next hquote =>
  split at h
  next hdigit =>
    refine malformed_of_integer ?_ h
    simp [hdigit]
  next =>
  split at h
  next => cases h
  next hword =>
    simp only [Lexeme.mark] at h
    split at h
    next => cases h
    next hmark =>
      obtain rfl := Except.error.inj h
      exact .character hsolid.1 hquote (by simpa using hword) (by simpa using hmark)

/-- **A malformed lexeme is not read**: it is a comment that is never closed, or no gap stands in
front of it and its first character leads to the error. -/
theorem Malformed.comment_or_lexemeAt {cause : LexCause} {text : List Char}
    (h : Malformed cause text) :
    (∃ body, text = '/' :: '*' :: body ∧ ¬ ['*', '/'] <:+: body ∧ cause = .unterminatedComment) ∨
    ∃ c rest, text = c :: rest ∧ Solid text ∧ (lexemeAt c rest).word = .error cause := by
  cases h with
  | @comment body hopen => exact .inl ⟨body, rfl, hopen, rfl⟩
  | @string body rest hquote hline hend =>
    refine .inr ⟨'"', body ++ rest, rfl, ⟨rfl, fun hc => by cases hc⟩, ?_⟩
    have hbody : LongestRun isStringCharacter body ('"' :: rest) :=
      longestRun_isStringCharacter_iff.mpr ⟨hquote, hline⟩
    have hrun : LongestRun isStringCharacter body rest := by
      refine ⟨hbody.1, fun c hc => ?_⟩
      rcases hend with rfl | hnewline
      · cases hc
      · obtain rfl := Option.some.inj (hnewline.symm.trans hc)
        rfl
    have hopen : ∀ more, rest ≠ '"' :: more := by
      rintro more rfl
      simp at hend
    rw [lexemeAt, if_pos rfl]
    simp only [Lexeme.string, hrun.takeWhile_eq, List.drop_left]
  | @integer digits rest hrun hmost hvalue =>
    cases digits with
    | nil => cases hvalue
    | cons c digits =>
      obtain ⟨hsolid, hlexeme⟩ := lexemeAt_of_digits hrun
      refine .inr ⟨c, digits ++ rest, rfl, hsolid, ?_⟩
      rw [hlexeme]
      simp only [Lexeme.integerWord, List.isEmpty_cons, digitsValue_eq, Text.mostDigits,
        Vocabulary.largestInteger, Nat.not_lt.mpr hmost, hvalue, Bool.false_eq_true, reduceIte]
  | @digits digits rest hrun hmany =>
    cases digits with
    | nil => cases hmany
    | cons c digits =>
      obtain ⟨hsolid, hlexeme⟩ := lexemeAt_of_digits hrun
      refine .inr ⟨c, digits ++ rest, rfl, hsolid, ?_⟩
      rw [hlexeme]
      simp only [Lexeme.integerWord, List.isEmpty_cons, Text.mostDigits, hmany, Bool.false_eq_true,
        reduceIte]
  | @character c rest hblank hquote hword hmark =>
    refine .inr ⟨c, rest, rfl, ⟨hblank, ?_⟩, ?_⟩
    · rintro rfl
      exact absurd (by decide) hmark
    · have hdigit : ¬ isDigit c = true := fun h => by simp [isWordCharacter_of_isDigit h] at hword
      rw [lexemeAt, if_neg hquote, if_neg hdigit, if_neg (by simp [hword]), Lexeme.mark,
        if_neg (by simpa using hmark)]

/-! ## Steps that fail -/

namespace Reader

variable {reader stopped : Reader} {error : LexError}

/-- A step fails at something malformed behind a gap, and tells the place of its first character. -/
theorem malformed_of_nextToken (h : nextToken reader = .error error stopped) :
    ∃ g rest, reader.ahead = g ++ rest ∧ IsGap g rest ∧ Malformed error.cause rest ∧
      error.place = reader.place.afterAll g := by
  obtain ⟨g, rest, hahead, hgap, hrest⟩ := exists_isGap reader.ahead
  refine ⟨g, rest, hahead, hgap, ?_⟩
  rcases hrest with hsolid | ⟨body, rfl, hopen⟩
  · have hfront : (reader.skip g.length).ahead = rest := ahead_skip_length hahead
    rw [nextToken, skipGap_of_isGap hahead hgap hsolid] at h
    cases rest with
    | nil =>
      simp only [hfront] at h
      cases h
    | cons c rest =>
      simp only [hfront, read] at h
      cases hword : (lexemeAt c rest).word with
      | ok word =>
        rw [hword] at h
        cases h
      | error cause =>
        rw [hword] at h
        cases h
        exact ⟨malformed_of_lexemeAt hsolid hword, place_skip_length hahead⟩
  · have hunclosed : gap reader.ahead = .unclosed g.length := by
      rw [hahead, gap_append hgap, gap_unclosed hopen]
      rfl
    rw [nextToken, skipGap, hunclosed] at h
    cases h
    exact ⟨.comment hopen, place_skip_length hahead⟩

/-- A step fails at something malformed, whatever gap stands in front of it. -/
theorem nextToken_of_malformed {cause : LexCause} {g rest : List Char}
    (hahead : reader.ahead = g ++ rest) (hgap : IsGap g rest) (h : Malformed cause rest) :
    ∃ stopped, nextToken reader = .error ⟨cause, reader.place.afterAll g⟩ stopped := by
  rcases h.comment_or_lexemeAt with ⟨body, rfl, hopen, rfl⟩ | ⟨c, more, rfl, hsolid, hword⟩
  · have hunclosed : gap reader.ahead = .unclosed g.length := by
      rw [hahead, gap_append hgap, gap_unclosed hopen]
      rfl
    refine ⟨reader.skip reader.ahead.length, ?_⟩
    rw [nextToken, skipGap, hunclosed, ← place_skip_length hahead]
  · have hfront : (reader.skip g.length).ahead = c :: more := ahead_skip_length hahead
    refine ⟨(reader.skip g.length).skip (lexemeAt c more).length, ?_⟩
    rw [nextToken, skipGap_of_isGap hahead hgap hsolid]
    simp only [hfront, read, hword, place_skip_length hahead]

/-- **Scanning fails at the first malformed lexeme**: up to there the text is split. -/
theorem malformed_of_tokens {passed : List Char} (h : reader.tokens = .error error stopped)
    (hplace : reader.place = .behind passed) :
    ∃ before rest ts, reader.ahead = before ++ rest ∧ SplitsUpTo rest passed before ts ∧
      Malformed error.cause rest ∧ error.place = .behind (passed ++ before) := by
  -- each token makes the rest shorter, so the steps before the failure can be counted down
  induction hn : reader.ahead.length using Nat.strongRecOn generalizing reader passed with
  | _ n ih =>
    rw [tokens_eq] at h
    cases hstep : nextToken reader with
    | error failure last =>
      rw [hstep] at h
      cases h
      obtain ⟨g, rest, hahead, hgap, hmalformed, herror⟩ := malformed_of_nextToken hstep
      refine ⟨g, rest, [], hahead, .stop hgap, hmalformed, ?_⟩
      rw [herror, hplace, Place.afterAll_behind]
    | ok token? following =>
      rcases spelled_of_nextToken hstep with hgap | ⟨g, l, rest, word, hahead, hgap, hword⟩
      · rw [nextToken_of_isGap hgap] at h
        cases h
      · have hread := nextToken_of_spells hahead hgap hword
        obtain ⟨-, hrest, hbehind⟩ := place_behind_word hahead hplace
        rw [hread] at h
        cases htokens : ((reader.skip g.length).skip l.length).tokens with
        | ok others last =>
          simp only [htokens] at h
          cases h
        | error failure last =>
          simp only [htokens] at h
          cases h
          obtain ⟨before, tail, ts, htail, hsplits, hmalformed, herror⟩ :=
            ih _ (hn ▸ nextToken_shortens hread) htokens hbehind rfl
          obtain rfl : rest = before ++ tail := hrest.symm.trans htail
          rw [← List.append_assoc] at hgap
          refine ⟨g ++ l ++ before, tail, _, ?_, .token hgap hword hsplits, hmalformed, ?_⟩
          · rw [hahead, List.append_assoc _ before]
          · rw [herror, List.append_assoc passed, List.append_assoc passed]

/-- **A malformed lexeme is reported**, at its first character, when the text is split up to it. -/
theorem tokens_of_malformed {cause : LexCause} {passed before rest : List Char} {ts : List Token}
    (h : SplitsUpTo rest passed before ts) (hmalformed : Malformed cause rest) :
    ∀ {reader : Reader}, reader.ahead = before ++ rest → reader.place = .behind passed →
      ∃ stopped, reader.tokens = .error ⟨cause, .behind (passed ++ before)⟩ stopped := by
  induction h with
  | stop hgap =>
    intro reader hahead hplace
    obtain ⟨stopped, hstep⟩ := nextToken_of_malformed hahead hgap hmalformed
    rw [hplace, Place.afterAll_behind] at hstep
    exact ⟨stopped, tokens_error hstep⟩
  | @token passed g l more word ts hgap hword _ ih =>
    intro reader hahead hplace
    rw [List.append_assoc] at hahead hgap
    obtain ⟨-, hrest, hbehind⟩ := place_behind_word hahead hplace
    obtain ⟨stopped, hstopped⟩ := ih hrest hbehind
    refine ⟨stopped, tokens_cons_error (nextToken_of_spells hahead hgap hword) ?_⟩
    rw [hstopped, List.append_assoc passed, List.append_assoc passed]

end Reader

/-! ## What scanning a text can come to -/

theorem Token.scan_eq_error_iff {source : String} {error : LexError} :
    Token.scan source = .error error ↔
      ∃ stopped, (Reader.ofString source).tokens = .error error stopped := by
  unfold Token.scan
  split <;> rename_i h <;> simp [h]

/-- **Where scanning fails**: at a malformed lexeme up to which the text is split. -/
theorem Token.scan_eq_error_iff_malformed {source : String} {error : LexError} :
    Token.scan source = .error error ↔
      ∃ before rest ts, source.toList = before ++ rest ∧ SplitsUpTo rest [] before ts ∧
        Malformed error.cause rest ∧ error.place = .behind before := by
  rw [Token.scan_eq_error_iff]
  constructor
  · rintro ⟨stopped, h⟩
    exact Reader.malformed_of_tokens h rfl
  · rintro ⟨before, rest, ts, htext, hsplits, hmalformed, hplace⟩
    obtain ⟨cause, place⟩ := error
    obtain rfl : place = .behind before := hplace
    exact Reader.tokens_of_malformed hsplits hmalformed htext rfl

/-- Scanning fails at the first malformed lexeme; what stands before it is scanned. -/
theorem malformed_of_scan {source : String} {error : LexError}
    (h : Token.scan source = .error error) :
    ∃ before rest ts, source.toList = before ++ rest ∧ Splits [] before ts ∧
      Malformed error.cause rest ∧ error.place = .behind before := by
  obtain ⟨before, rest, ts, htext, hsplits, hmalformed, hplace⟩ :=
    Token.scan_eq_error_iff_malformed.mp h
  exact ⟨before, rest, ts, htext, hsplits.splits, hmalformed, hplace⟩

/-- **An error points at the first malformed lexeme.** A text with a malformed lexeme is split up to
it, and so scanned up to it; the place that is told is that of its first character, and the message
gives the place and the reason. -/
theorem error_at_first_malformed_lexeme {source : String} {error : LexError}
    (h : Token.scan source = .error error) (hmalformed : error.cause.isMalformed = true) :
    ∃ k tokens, k ≤ source.toList.length ∧ error.place = .behind (source.toList.take k) ∧
      SplitsUpTo (source.toList.drop k) [] (source.toList.take k) tokens ∧
      Token.scan (String.ofList (source.toList.take k)) = .ok tokens ∧
      Malformed error.cause (source.toList.drop k) ∧
      error.message = error.place.locate error.cause.reason := by
  obtain ⟨before, rest, tokens, htext, hsplits, hlexeme, hplace⟩ :=
    Token.scan_eq_error_iff_malformed.mp h
  have htake : source.toList.take before.length = before := by rw [htext, List.take_left]
  have hdrop : source.toList.drop before.length = rest := by rw [htext, List.drop_left]
  refine ⟨before.length, tokens, ?_, ?_, ?_, ?_, ?_, ?_⟩
  · rw [htext, List.length_append]
    exact Nat.le_add_right _ _
  · rwa [htake]
  · rwa [htake, hdrop]
  · rw [htake]
    exact Token.scan_of_splits (String.toList_ofList ▸ hsplits.splits)
  · rwa [hdrop]
  · rw [LexError.message, if_pos hmalformed]

/-- A number that is too great, behind a comment over two lines. -/
theorem error_at_great_number :
    let source := "/* 1
2 */ x = 40000;"
    let error : LexError := ⟨.integerOutOfRange ['4', '0', '0', '0', '0'], ⟨2, 10⟩⟩
    Token.scan source = .error error ∧ error.cause.isMalformed = true ∧
    error.message = "Integer constant 40000 out of range 0..32767 at line 2, col 10" ∧
    ∃ k tokens, k ≤ source.toList.length ∧ error.place = .behind (source.toList.take k) ∧
      SplitsUpTo (source.toList.drop k) [] (source.toList.take k) tokens ∧
      Token.scan (String.ofList (source.toList.take k)) = .ok tokens ∧
      Malformed error.cause (source.toList.drop k) ∧
      error.message = error.place.locate error.cause.reason := by
  intro source error
  have hscan : Token.scan source = .error error :=
    Token.scan_of_outcomeIn (show (Reader.ofString source).outcomeIn 3 = some _ by decide +kernel)
  exact ⟨hscan, rfl, by decide, error_at_first_malformed_lexeme hscan rfl⟩

/-- **How scanning ends.** A text is split into tokens, or an error tells a malformed lexeme, or
what stands before a run of more than 4300 digits is scanned and the run is not converted. -/
theorem scan_outcome (source : String) :
    (∃ tokens, Token.scan source = .ok tokens) ∨
    (∃ error, Token.scan source = .error error ∧ error.cause.isMalformed = true) ∨
    ∃ before digits rest tokens, source.toList = before ++ digits ++ rest ∧
      Token.scan (String.ofList before) = .ok tokens ∧ LongestRun isDigit digits rest ∧
      4300 < digits.length ∧
      Token.scan source = .error ⟨.tooManyDigits digits.length, .behind before⟩ := by
  cases hscan : Token.scan source with
  | ok tokens => exact .inl ⟨tokens, rfl⟩
  | error error =>
    refine .inr ?_
    obtain ⟨before, rest, tokens, htext, hsplits, hmalformed, hplace⟩ := malformed_of_scan hscan
    obtain ⟨cause, place⟩ := error
    obtain rfl : place = .behind before := hplace
    cases hmalformed with
    | comment | string | integer | character => exact .inl ⟨_, rfl, rfl⟩
    | @digits digits rest hrun hmany =>
      refine .inr ⟨before, digits, rest, tokens, ?_, ?_, hrun, hmany, rfl⟩
      · rw [htext, List.append_assoc]
      · exact Token.scan_of_splits (by rwa [String.toList_ofList])

/-- A run of more than 4300 digits at the front is not converted. -/
theorem scan_eq_error_of_long_digits {digits rest : List Char}
    (hrun : LongestRun isDigit digits rest) (hmany : 4300 < digits.length) :
    Token.scan (String.ofList (digits ++ rest)) = .error ⟨.tooManyDigits digits.length, .start⟩ :=
  Token.scan_eq_error_iff_malformed.mpr
    ⟨[], digits ++ rest, [], String.toList_ofList, .stop .nil, .digits hrun hmany, rfl⟩

/-- A run of 4301 digits is not told as a malformed lexeme. -/
theorem scan_digits_4301 :
    Token.scan (String.ofList (List.replicate 4301 '1')) =
      .error ⟨.tooManyDigits 4301, .start⟩ ∧
    (LexCause.tooManyDigits 4301).isMalformed = false := by
  have hrun : LongestRun isDigit (List.replicate 4301 '1') [] := by
    refine ⟨fun c hc => ?_, fun c hc => by cases hc⟩
    rw [List.eq_of_mem_replicate hc]
    rfl
  have hlength : (List.replicate 4301 '1').length = 4301 := List.length_replicate
  have h := scan_eq_error_of_long_digits hrun (by rw [hlength]; decide)
  rw [List.append_nil, hlength] at h
  exact ⟨h, rfl⟩

end JackSyntax
