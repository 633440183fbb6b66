import JackSyntax.Proofs.Lexing.Failure

/-!
# Line ends

A line may end in a newline alone, or in a carriage return and a newline. Scanning does not tell the
two apart: a carriage return is blank, no word goes on into it, and the newline behind it starts the
next line at its first column. It joins what the line ends in, which is a gap, a comment or an open
string.

## The model

* `Text.withReturns text`: a carriage return in front of every newline.

## Results

* `Place.behind_withReturns`: places are counted alike.
* `IsGap.with_returns`: a gap stays a gap; a comment to the end of the line takes up the carriage
  return.
* **`SplitsUpTo.with_returns`**, `Malformed.with_returns`: a text is split alike, and what is
  malformed stays so.
* **`scan_with_returns`**: a text is scanned alike.
-/

namespace JackSyntax

/-- The text with a carriage return in front of every newline. -/
def Text.withReturns (text : List Char) : List Char :=
  text.flatMap fun c => if c = '\n' then ['\r', '\n'] else [c]

open Text (withReturns)

/-! ## Characters -/

section Characters

variable {c : Char} {text more : List Char}

theorem withReturns_append : withReturns (text ++ more) = withReturns text ++ withReturns more :=
  List.flatMap_append

theorem withReturns_line : withReturns ('\n' :: text) = '\r' :: '\n' :: withReturns text := rfl

theorem withReturns_cons (h : c ≠ '\n') : withReturns (c :: text) = c :: withReturns text := by
  unfold withReturns
  rw [List.flatMap_cons, if_neg h, List.singleton_append]

/-- A single line stays as it is. -/
theorem withReturns_eq_self (h : '\n' ∉ text) : withReturns text = text := by
  induction text with
  | nil => rfl
  | cons c text ih =>
    rw [List.mem_cons, not_or] at h
    rw [withReturns_cons (Ne.symm h.1), ih h.2]

theorem head?_withReturns :
    (withReturns text).head? = text.head?.map fun c => if c = '\n' then '\r' else c := by
  cases text with
  | nil => rfl
  | cons c text =>
    by_cases h : c = '\n'
    · subst h
      rfl
    · rw [withReturns_cons h, List.head?_cons, List.head?_cons, Option.map_some, if_neg h]

/-- A text starts with the same mark. -/
theorem head?_withReturns_eq_some_iff (hline : c ≠ '\n') (hreturn : c ≠ '\r') :
    (withReturns text).head? = some c ↔ text.head? = some c := by
  rw [head?_withReturns]
  cases text with
  | nil => simp
  | cons d text =>
    by_cases h : d = '\n'
    · subst h
      simp [Ne.symm hline, Ne.symm hreturn]
    · simp [h]

/-- The same block comments are closed. -/
theorem infix_close_withReturns_iff : ['*', '/'] <:+: withReturns text ↔ ['*', '/'] <:+: text := by
  induction text with
  | nil => exact Iff.rfl
  | cons c text ih =>
    by_cases h : c = '\n'
    · subst h
      simp [withReturns_line, infix_close_cons_iff, ih]
    · rw [withReturns_cons h, infix_close_cons_iff, infix_close_cons_iff, ih,
        head?_withReturns_eq_some_iff (by decide) (by decide)]

end Characters

/-! ## Places -/

theorem Place.afterAll_withReturns (place : Place) (text : List Char) :
    place.afterAll (withReturns text) = place.afterAll text := by
  induction text generalizing place with
  | nil => rfl
  | cons c text ih =>
    by_cases h : c = '\n'
    · subst h
      rw [withReturns_line, afterAll_cons, afterAll_cons, afterAll_cons, ih]
      rfl
    · rw [withReturns_cons h, afterAll_cons, afterAll_cons, ih]

/-- **Places are counted alike.** -/
theorem Place.behind_withReturns (passed : List Char) :
    Place.behind (withReturns passed) = Place.behind passed := by
  have hcount : ∀ text, Place.behind text = (Place.behind []).afterAll text := fun text =>
    (afterAll_behind [] text).symm
  rw [hcount, afterAll_withReturns, ← hcount]

/-! ## Gaps and words -/

section Pieces

variable {c : Char} {g l run rest : List Char} {accept : Char → Bool} {word : Word}

theorem LongestRun.newline_not_mem (haccept : accept '\n' = false)
    (h : LongestRun accept run rest) : '\n' ∉ run := by
  intro hmem
  rw [h.1 _ hmem] at haccept
  cases haccept

theorem LongestRun.before_returns (haccept : accept '\r' = false) (h : LongestRun accept run rest) :
    LongestRun accept run (withReturns rest) := by
  refine ⟨h.1, fun c hc => ?_⟩
  rw [head?_withReturns, Option.map_eq_some_iff] at hc
  obtain ⟨d, hd, rfl⟩ := hc
  split
  · exact haccept
  · exact h.2 d hd

/-- A run up to the end of the line takes up a carriage return. -/
theorem LongestRun.append_return (h : LongestRun (· != '\n') run rest) (more : List Char) :
    LongestRun (· != '\n') (run ++ ['\r']) ('\n' :: more) := by
  refine ⟨fun c hc => ?_, fun c hc => ?_⟩
  · rcases List.mem_append.mp hc with hc | hc
    · exact h.1 c hc
    · obtain rfl := List.mem_singleton.mp hc
      rfl
  · obtain rfl := Option.some.inj hc
    rfl

/-- No line ends inside a word. -/
theorem Spells.newline_not_mem (h : Spells word l rest) : '\n' ∉ l := by
  cases h with
  | string _ hline => simpa using hline
  | integer _ _ hrun => exact hrun.newline_not_mem rfl
  | name _ hrun => exact hrun.newline_not_mem rfl
  | mark hmark =>
    intro hmem
    obtain rfl := List.mem_singleton.mp hmem
    exact absurd hmark (by decide)

theorem Spells.before_returns (h : Spells word l rest) : Spells word l (withReturns rest) := by
  cases h with
  | string hquote hline => exact .string hquote hline
  | integer hsome hmost hrun hvalue => exact .integer hsome hmost (hrun.before_returns rfl) hvalue
  | name hfirst hrun => exact .name hfirst (hrun.before_returns rfl)
  | mark hmark hslash =>
    refine .mark hmark fun hc => ?_
    rw [ne_eq, ne_eq, head?_withReturns_eq_some_iff (by decide) (by decide),
      head?_withReturns_eq_some_iff (by decide) (by decide)]
    exact hslash hc

theorem Solid.head?_ne_newline {text : List Char} (h : Solid text) : text.head? ≠ some '\n' := by
  intro hc
  cases text with
  | nil => cases hc
  | cons c text =>
    obtain rfl := Option.some.inj hc
    exact absurd h.1 (by decide)

/-- A blank in front of a gap is a piece of its own. -/
theorem IsGap.of_blank (hblank : Text.isBlank c = true) (h : IsGap (c :: g) rest) :
    IsGap g rest := by
  generalize htext : c :: g = text at h
  cases h with
  | nil => cases htext
  | cons first others =>
    cases first with
    | blank =>
      obtain ⟨-, rfl⟩ := List.cons.inj htext
      exact others
    | lineComment | blockComment =>
      obtain ⟨rfl, -⟩ := List.cons.inj htext
      cases hblank

/-- **A gap stays a gap**, in front of anything but the end of a line. -/
theorem IsGap.with_returns (h : IsGap g rest) (hrest : rest.head? ≠ some '\n') :
    IsGap (withReturns g) (withReturns rest) := by
  induction h with
  | nil => exact .nil
  | @cons piece more rest first others ih =>
    have hmore := ih hrest
    rw [withReturns_append]
    cases first with
    | @blank c _ hblank =>
      by_cases hc : c = '\n'
      · subst hc
        have hline := IsGap.cons (.blank hblank) hmore
        have hreturn : IsGap (['\r'] ++ (['\n'] ++ withReturns more)) (withReturns rest) :=
          .cons (.blank rfl) hline
        exact hreturn
      · rw [withReturns_cons hc]
        exact .cons (.blank hblank) hmore
    | @lineComment body _ hbody =>
      have hline : '\n' ∉ '/' :: '/' :: body := by simpa using hbody.newline_not_mem rfl
      rw [withReturns_eq_self hline]
      cases more with
      | nil =>
        -- behind the comment the text ends, because no line ends there
        have hend : rest = [] := by
          cases rest with
          | nil => rfl
          | cons c rest =>
            have hc : c = '\n' := by simpa using hbody.2 c rfl
            exact absurd (congrArg some hc) hrest
        subst hend
        exact .cons (.lineComment hbody) .nil
      | cons c more =>
        obtain rfl : c = '\n' := by simpa using hbody.2 c rfl
        -- the carriage return is the last character of the comment
        have hcomment : LongestRun (· != '\n') (body ++ ['\r'])
            ('\n' :: withReturns more ++ withReturns rest) :=
          hbody.append_return (withReturns more ++ withReturns rest)
        have hgap := IsGap.cons (.lineComment hcomment) (hmore.of_blank rfl)
        simpa [withReturns_line] using hgap
    | @blockComment body _ hbody =>
      have hpiece : withReturns ('/' :: '*' :: (body ++ ['*', '/'])) =
          '/' :: '*' :: (withReturns body ++ ['*', '/']) := by
        rw [withReturns_cons (by decide), withReturns_cons (by decide), withReturns_append]
        rfl
      have hopen : ¬ ['*', '/'] <:+: withReturns body ++ ['*'] := by
        have hlast : withReturns (body ++ ['*']) = withReturns body ++ ['*'] := by
          rw [withReturns_append]
          rfl
        rwa [← hlast, infix_close_withReturns_iff]
      rw [hpiece]
      exact .cons (.blockComment hopen) hmore

end Pieces

/-! ## Texts -/

section Texts

variable {passed text rest : List Char} {tokens : List Token} {cause : LexCause}

/-- **A text is split alike.** -/
theorem SplitsUpTo.with_returns (h : SplitsUpTo rest passed text tokens)
    (hrest : rest.head? ≠ some '\n') :
    SplitsUpTo (withReturns rest) (withReturns passed) (withReturns text) tokens := by
  induction h with
  | stop hgap => exact .stop (hgap.with_returns hrest)
  | @token passed g l more word tokens hgap hword _ ih =>
    have hself := withReturns_eq_self hword.newline_not_mem
    have hsolid : (l ++ more ++ rest).head? ≠ some '\n' := by
      rw [List.append_assoc]
      exact hword.solid.head?_ne_newline
    have hgap' := hgap.with_returns hsolid
    have hword' := hword.before_returns
    rw [withReturns_append, withReturns_append, hself] at hgap'
    rw [withReturns_append] at hword'
    rw [withReturns_append, withReturns_append, hself] at ih
    have hsplits := SplitsUpTo.token hgap' hword' ih
    rw [← withReturns_append, Place.behind_withReturns] at hsplits
    rwa [withReturns_append, withReturns_append, hself]

theorem Malformed.head?_ne_newline (h : Malformed cause text) : text.head? ≠ some '\n' := by
  rcases h.comment_or_lexemeAt with ⟨body, rfl, -, -⟩ | ⟨c, rest, -, hsolid, -⟩
  · intro hc
    cases hc
  · exact hsolid.head?_ne_newline

/-- **What is malformed stays so.** -/
theorem Malformed.with_returns (h : Malformed cause text) : Malformed cause (withReturns text) := by
  cases h with
  | comment hopen =>
    rw [withReturns_cons (by decide), withReturns_cons (by decide)]
    exact .comment (by rwa [infix_close_withReturns_iff])
  | @string body rest hquote hline hend =>
    rw [withReturns_cons (by decide), withReturns_append, withReturns_eq_self hline]
    cases rest with
    | nil => exact .string hquote hline (.inl rfl)
    | cons c rest =>
      obtain rfl : c = '\n' := by simpa using hend
      -- the carriage return is the last character of the open string
      have hopen : Malformed .unterminatedString
          ('"' :: (body ++ ['\r'] ++ '\n' :: withReturns rest)) :=
        .string (by simpa using hquote) (by simpa using hline) (.inr rfl)
      rwa [List.append_assoc] at hopen
  | integer hrun hmost hvalue =>
    rw [withReturns_append, withReturns_eq_self (hrun.newline_not_mem rfl)]
    exact .integer (hrun.before_returns rfl) hmost hvalue
  | digits hrun hmany =>
    rw [withReturns_append, withReturns_eq_self (hrun.newline_not_mem rfl)]
    exact .digits (hrun.before_returns rfl) hmany
  | @character c rest hblank hquote hword hmark =>
    have hc : c ≠ '\n' := by
      rintro rfl
      cases hblank
    rw [withReturns_cons hc]
    exact .character hblank hquote hword hmark

end Texts

/-! ## Scanning -/

/-- **Line ends are alike.** With a carriage return in front of every newline a text has the same
tokens at the same places, or the same error at the same place. -/
theorem scan_with_returns (source : String) :
    Token.scan (String.ofList (withReturns source.toList)) = Token.scan source := by
  cases hscan : Token.scan source with
  | ok tokens =>
    have hsplits := splitsUpTo_nil_iff.mpr (Token.splits_of_scan hscan)
    refine Token.scan_of_splits (splitsUpTo_nil_iff.mp ?_)
    rw [String.toList_ofList]
    exact hsplits.with_returns (by simp)
  | error error =>
    obtain ⟨before, rest, tokens, htext, hsplits, hmalformed, hplace⟩ :=
      Token.scan_eq_error_iff_malformed.mp hscan
    refine Token.scan_eq_error_iff_malformed.mpr ⟨withReturns before, withReturns rest, tokens,
      ?_, hsplits.with_returns hmalformed.head?_ne_newline, hmalformed.with_returns, ?_⟩
    · rw [String.toList_ofList, htext, withReturns_append]
    · rw [hplace, Place.behind_withReturns]

end JackSyntax
