import JackSyntax.Proofs.Lexing.Spelling
import JackSyntax.Token.Scan

/-!
# How a source text is split

A text is split into gaps and words in turn, from a gap at its start to a gap at its end. Scanning
yields tokens exactly when the text can be split, and then those of the words.

## The model

* `Place.behind passed`: the place of the next character, counted in what was passed.
* `Splits passed text tokens`: behind `passed`, the text is a gap, a word, a gap and so on; the
  tokens are its words, each at the place of its first character.

## Results

* `Place.afterAll_behind`: counting places step by step agrees with counting at once.
* `nextToken_of_spells`, `nextToken_of_isGap`: one step of scanning reads what is spelled;
  `spelled_of_nextToken` is the converse.
* `Token.splits_of_scan`, `Token.scan_of_splits`, **`scan_eq_ok_iff_splits`**: scanning yields the
  tokens of a split.
* `Splits.unique`: a text cannot be split into different tokens.
-/

namespace JackSyntax

/-! ## Places -/

/-- The place behind the characters: one line more than there are newlines, and one column more than
there are characters behind the last of them. -/
def Place.behind (passed : List Char) : Place :=
  ⟨passed.count '\n' + 1, (passed.reverse.takeWhile (· != '\n')).length + 1⟩

theorem Place.behind_append_singleton (passed : List Char) (c : Char) :
    Place.behind (passed ++ [c]) = (Place.behind passed).after c := by
  by_cases hline : c = '\n'
  · subst hline
    simp [Place.behind, Place.after]
  · simp [Place.behind, Place.after, hline]

theorem Place.afterAll_behind (passed text : List Char) :
    (Place.behind passed).afterAll text = Place.behind (passed ++ text) := by
  induction text generalizing passed with
  | nil => rw [afterAll_nil, List.append_nil]
  | cons c text ih =>
    rw [afterAll_cons, ← behind_append_singleton, ih, List.append_assoc, List.singleton_append]

/-! ## Splitting a text -/

/-- Behind `passed`, the text is a gap, a word, a gap and so on to its end, and the tokens are the
words, each at the place of its first character. -/
inductive Splits : List Char → List Char → List Token → Prop
  | last {passed g : List Char} (hgap : IsGap g []) : Splits passed g []
  | token {passed g l rest : List Char} {word : Word} {tokens : List Token}
    (hgap : IsGap g (l ++ rest)) (hword : Spells word l rest)
    (others : Splits (passed ++ g ++ l) rest tokens) :
    Splits passed (g ++ l ++ rest) (⟨word.kind, word.text, .behind (passed ++ g)⟩ :: tokens)

/-! ## One step -/

namespace Reader

variable {reader after : Reader}

theorem skipGap_of_isGap {g rest : List Char} (hahead : reader.ahead = g ++ rest)
    (hgap : IsGap g rest) (hsolid : Solid rest) :
    skipGap reader = .ok () (reader.skip g.length) := by
  have hlength : gap reader.ahead = .closed g.length := by
    rw [hahead, gap_append hgap, gap_solid hsolid]
    rfl
  rw [skipGap, hlength]

theorem ahead_skip_length {l rest : List Char} (h : reader.ahead = l ++ rest) :
    (reader.skip l.length).ahead = rest := by
  rw [ahead_skip, h, List.drop_left]

theorem place_skip_length {l rest : List Char} (h : reader.ahead = l ++ rest) :
    (reader.skip l.length).place = reader.place.afterAll l := by
  rw [place_skip, h, List.take_left]

/-- The reader behind a gap and a word, with the token of that word. -/
theorem nextToken_of_spells {g l rest : List Char} {word : Word}
    (hahead : reader.ahead = g ++ l ++ rest) (hgap : IsGap g (l ++ rest))
    (hword : Spells word l rest) :
    nextToken reader = .ok (some ⟨word.kind, word.text, reader.place.afterAll g⟩)
      ((reader.skip g.length).skip l.length) := by
  rw [List.append_assoc] at hahead
  obtain ⟨c, more, rfl, hlexeme⟩ := lexemeAt_of_spells hword
  have hfront : (reader.skip g.length).ahead = c :: (more ++ rest) := ahead_skip_length hahead
  rw [nextToken, skipGap_of_isGap hahead hgap hword.solid]
  simp only [hfront, read, hlexeme, place_skip_length hahead]

theorem nextToken_of_isGap (hgap : IsGap reader.ahead []) :
    nextToken reader = .ok none (reader.skip reader.ahead.length) := by
  have hahead : reader.ahead = reader.ahead ++ [] := (List.append_nil _).symm
  have hend : (reader.skip reader.ahead.length).ahead = [] := ahead_skip_length hahead
  rw [nextToken, skipGap_of_isGap hahead hgap trivial]
  simp only [hend]

/-- Where a step does not fail, a gap stands in front of a word or of the end. -/
theorem spelled_of_nextToken {token? : Option Token} (h : nextToken reader = .ok token? after) :
    IsGap reader.ahead [] ∨
      ∃ g l rest word, reader.ahead = g ++ l ++ rest ∧ IsGap g (l ++ rest) ∧
        Spells word l rest := by
  obtain ⟨g, rest, hahead, hgap, hrest⟩ := exists_isGap reader.ahead
  rcases hrest with hsolid | ⟨body, rfl, hopen⟩
  · have hfront : (reader.skip g.length).ahead = rest := ahead_skip_length hahead
    cases rest with
    | nil => exact .inl (by rwa [hahead, List.append_nil])
    | cons c rest =>
      rw [nextToken, skipGap_of_isGap hahead hgap hsolid] at h
      simp only [hfront, read] at h
      cases hword : (lexemeAt c rest).word with
      | error cause =>
        rw [hword] at h
        cases h
      | ok word =>
        obtain ⟨l, last, htext, hspells⟩ := spells_of_lexemeAt hsolid hword
        rw [htext] at hahead hgap
        exact .inr ⟨g, l, last, word, by rw [hahead, List.append_assoc], hgap, hspells⟩
  · have hunclosed : gap reader.ahead = .unclosed g.length := by
      rw [hahead, gap_append hgap, gap_unclosed hopen]
      rfl
    rw [nextToken, skipGap, hunclosed] at h
    cases h

/-! ## All steps -/

theorem tokens_eq (reader : Reader) :
    reader.tokens = match nextToken reader with
      | .error error stopped => .error error stopped
      | .ok none last => .ok [] last
      | .ok (some token) following =>
        match following.tokens with
        | .ok rest last => .ok (token :: rest) last
        | .error error stopped => .error error stopped := by
  conv_lhs => unfold tokens
  split <;> rename_i hstep <;> exact hstep ▸ rfl

theorem tokens_nil {last : Reader} (h : nextToken reader = .ok none last) :
    reader.tokens = .ok [] last := by
  rw [tokens_eq, h]

theorem tokens_cons {following last : Reader} {token : Token} {rest : List Token}
    (h : nextToken reader = .ok (some token) following) (hrest : following.tokens = .ok rest last) :
    reader.tokens = .ok (token :: rest) last := by
  rw [tokens_eq, h]
  simp only [hrest]

theorem tokens_error {stopped : Reader} {error : LexError}
    (h : nextToken reader = .error error stopped) :
    reader.tokens = .error error stopped := by
  rw [tokens_eq, h]

theorem tokens_cons_error {following stopped : Reader} {token : Token} {error : LexError}
    (h : nextToken reader = .ok (some token) following)
    (hrest : following.tokens = .error error stopped) : reader.tokens = .error error stopped := by
  rw [tokens_eq, h]
  simp only [hrest]

/-- The place of the token is counted in what was passed before it, and so goes on behind it. -/
theorem place_behind_word {passed g l rest : List Char} (hahead : reader.ahead = g ++ l ++ rest)
    (hplace : reader.place = .behind passed) :
    reader.place.afterAll g = .behind (passed ++ g) ∧
    ((reader.skip g.length).skip l.length).ahead = rest ∧
    ((reader.skip g.length).skip l.length).place = .behind (passed ++ g ++ l) := by
  rw [List.append_assoc] at hahead
  have hmiddle := ahead_skip_length hahead
  refine ⟨?_, ahead_skip_length hmiddle, ?_⟩
  · rw [hplace, Place.afterAll_behind]
  · rw [place_skip_length hmiddle, place_skip_length hahead, hplace, Place.afterAll_behind,
      Place.afterAll_behind]

/-- **A text that is split is scanned.** -/
theorem tokens_of_splits {passed text : List Char} {ts : List Token} (h : Splits passed text ts) :
    ∀ {reader : Reader}, reader.ahead = text → reader.place = .behind passed →
      ∃ last, reader.tokens = .ok ts last := by
  induction h with
  | last hgap =>
    intro reader hahead _
    subst hahead
    exact ⟨_, by rw [tokens_eq, nextToken_of_isGap hgap]⟩
  | token hgap hword _ ih =>
    intro reader hahead hplace
    obtain ⟨hstart, hrest, hbehind⟩ := place_behind_word hahead hplace
    obtain ⟨last, hlast⟩ := ih hrest hbehind
    have hstep := nextToken_of_spells hahead hgap hword
    rw [hstart] at hstep
    refine ⟨last, ?_⟩
    rw [tokens_eq, hstep]
    simp only [hlast]

/-- **A text that is scanned is split**: every step reads a gap and a word, the last one a gap. -/
theorem splits_of_tokens {passed : List Char} {ts : List Token} {reader last : Reader}
    (h : reader.tokens = .ok ts last) (hplace : reader.place = .behind passed) :
    Splits passed reader.ahead ts := by
  induction hn : reader.ahead.length using Nat.strongRecOn generalizing reader passed ts with
  | _ n ih =>
    rw [tokens_eq] at h
    cases hstep : nextToken reader with
    | error error stopped =>
      rw [hstep] at h
      cases h
    | ok token? following =>
      rcases spelled_of_nextToken hstep with hgap | ⟨g, l, rest, word, hahead, hgap, hword⟩
      · rw [nextToken_of_isGap hgap] at h
        cases h
        exact .last hgap
      · have hread := nextToken_of_spells hahead hgap hword
        obtain ⟨hstart, hrest, hbehind⟩ := place_behind_word hahead hplace
        rw [hread, hstart] at h
        cases htokens : ((reader.skip g.length).skip l.length).tokens with
        | error error stopped =>
          simp only [htokens] at h
          cases h
        | ok others last' =>
          simp only [htokens] at h
          cases h
          have hothers := ih _ (hn ▸ nextToken_shortens hread) htokens hbehind rfl
          rw [hrest] at hothers
          rw [hahead]
          exact .token hgap hword hothers

end Reader

/-- A text cannot be split into different tokens. -/
theorem Splits.unique {passed text : List Char} {ts us : List Token} (hts : Splits passed text ts)
    (hus : Splits passed text us) : ts = us := by
  have hahead : (Reader.mk passed.reverse text (.behind passed)).ahead = text := rfl
  obtain ⟨first, hfirst⟩ := Reader.tokens_of_splits hts hahead rfl
  obtain ⟨second, hsecond⟩ := Reader.tokens_of_splits hus hahead rfl
  exact (EStateM.Result.ok.inj (hfirst.symm.trans hsecond)).1

section Scan

variable {source : String} {tokens : List Token}

theorem Token.scan_eq_ok_iff :
    Token.scan source = .ok tokens ↔ ∃ last, (Reader.ofString source).tokens = .ok tokens last := by
  rw [Token.scan]
  split <;> rename_i h <;> simp [h]

theorem Token.splits_of_scan (h : Token.scan source = .ok tokens) :
    Splits [] source.toList tokens := by
  obtain ⟨last, h⟩ := Token.scan_eq_ok_iff.mp h
  exact Reader.splits_of_tokens h rfl

theorem Token.scan_of_splits (h : Splits [] source.toList tokens) :
    Token.scan source = .ok tokens :=
  Token.scan_eq_ok_iff.mpr (Reader.tokens_of_splits h rfl rfl)

/-- What is left to scan when the steps are counted: the tokens up to the end of the text or the
first error, nothing when there are not enough steps. A fixed text is scanned by evaluating it. -/
def Reader.outcomeIn : Nat → Reader → Option (Except LexError (List Token))
  | 0, _ => none
  | steps + 1, reader =>
    match nextToken reader with
    | .error error _ => some (.error error)
    | .ok none _ => some (.ok [])
    | .ok (some token) following => (outcomeIn steps following).map (·.map (token :: ·))

theorem Reader.tokens_of_outcomeIn : ∀ {steps : Nat} {reader : Reader}
      {outcome : Except LexError (List Token)}, reader.outcomeIn steps = some outcome →
      (∃ tokens last, outcome = .ok tokens ∧ reader.tokens = .ok tokens last) ∨
      ∃ error stopped, outcome = .error error ∧ reader.tokens = .error error stopped
  | 0, _, _, h => by cases h
  | steps + 1, reader, outcome, h => by
    unfold outcomeIn at h
    split at h
    · rename_i hstep
      cases h
      exact .inr ⟨_, _, rfl, tokens_error hstep⟩
    · rename_i hstep
      cases h
      exact .inl ⟨_, _, rfl, tokens_nil hstep⟩
    · rename_i hstep
      obtain ⟨found, hfound, rfl⟩ := Option.map_eq_some_iff.mp h
      rcases tokens_of_outcomeIn hfound with ⟨rest, last, rfl, hrest⟩ | ⟨error, stopped, rfl, hrest⟩
      · exact .inl ⟨_, _, rfl, tokens_cons hstep hrest⟩
      · exact .inr ⟨_, _, rfl, tokens_cons_error hstep hrest⟩

/-- **A fixed text is scanned** by counting steps. -/
theorem Token.scan_of_outcomeIn {steps : Nat} {outcome : Except LexError (List Token)}
    (h : (Reader.ofString source).outcomeIn steps = some outcome) :
    Token.scan source = outcome := by
  rcases Reader.tokens_of_outcomeIn h with ⟨_, _, rfl, htokens⟩ | ⟨_, _, rfl, htokens⟩ <;>
    rw [Token.scan, htokens]

/-- **Scanning splits the text.** The tokens of a text are those of its words when it is split into
gaps and words in turn, and it is scanned whenever it can be split. -/
theorem scan_eq_ok_iff_splits :
    Token.scan source = .ok tokens ↔ Splits [] source.toList tokens :=
  ⟨Token.splits_of_scan, Token.scan_of_splits⟩

end Scan

end JackSyntax
