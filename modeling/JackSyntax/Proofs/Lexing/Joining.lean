import JackSyntax.Proofs.Lexing.Failure

/-!
# Texts joined by a newline

A newline is a border: whatever the last line of a text ends in, scanning starts afresh behind it.
So a text that is scanned can be put in front of any other, and changes nothing about it but its
lines.

## The model

* `Place.down lines`, `Token.down lines`, `LexError.down lines`: the same, that many lines further
  down.

## Results

* `Place.behind_line`: what stands in front of a newline counts as lines only.
* **`SplitsUpTo.down`**: a text is split in the same way further down.
* **`scan_joined_lines`**: a text that is scanned, a newline, and any other text.
-/

namespace JackSyntax

/-! ## Further down -/

/-- The place in the same column, the given number of lines further down. -/
def Place.down (lines : Nat) (place : Place) : Place :=
  { place with line := place.line + lines }

/-- The same token further down. -/
def Token.down (lines : Nat) (token : Token) : Token :=
  { token with place := token.place.down lines }

/-- The same error further down. -/
def LexError.down (lines : Nat) (error : LexError) : LexError :=
  { error with place := error.place.down lines }

/-- What stands in front of a newline counts as lines only. -/
theorem Place.behind_line (front passed : List Char) :
    Place.behind (front ++ '\n' :: passed) = (Place.behind passed).down (1 + front.count '\n') := by
  have hcolumn : ((front ++ '\n' :: passed).reverse.takeWhile (· != '\n')).length =
      (passed.reverse.takeWhile (· != '\n')).length := by
    have hreverse : (front ++ '\n' :: passed).reverse =
        passed.reverse ++ '\n' :: front.reverse := by
      simp
    rw [hreverse, List.takeWhile_append]
    split
    · rename_i hall
      simp [hall]
    · rfl
  have hline : ((front ++ '\n' :: passed).count '\n' + 1 : Int) =
      (passed.count '\n' + 1 : Int) + (1 + front.count '\n' : Nat) := by
    rw [List.count_append, List.count_cons_self]
    omega
  simp only [behind, down, hcolumn, hline]

/-- **A text is split in the same way further down.** -/
theorem SplitsUpTo.down {rest passed text : List Char} {tokens : List Token}
    (h : SplitsUpTo rest passed text tokens) (front : List Char) :
    SplitsUpTo rest (front ++ '\n' :: passed) text
      (tokens.map (Token.down (1 + front.count '\n'))) := by
  induction h with
  | stop hgap => exact .stop hgap
  | @token passed g l more word tokens hgap hword _ ih =>
    rw [List.map_cons, Token.down, ← Place.behind_line]
    have hbehind : ∀ more, front ++ '\n' :: (passed ++ more) = front ++ '\n' :: passed ++ more := by
      simp
    rw [List.append_assoc passed, hbehind, ← List.append_assoc] at ih
    rw [hbehind]
    exact .token hgap hword ih

/-- What is split in front of a line and behind it is split together. -/
theorem SplitsUpTo.append_line {first second rest : List Char} {tokens more : List Token}
    (h : Splits [] first tokens) (hmore : SplitsUpTo rest [] second more) :
    SplitsUpTo rest [] (first ++ '\n' :: second)
      (tokens ++ more.map (Token.down (1 + first.count '\n'))) := by
  have hfirst : SplitsUpTo ('\n' :: second ++ rest) [] first tokens :=
    (splitsUpTo_nil_iff.mpr h).before_line (second ++ rest)
  have hline : IsGap ['\n'] (second ++ rest) := .cons (.blank rfl) .nil
  exact hfirst.append ((hmore.down first).gap_append hline)

/-! ## Scanning -/

theorem toList_join_line (first second : String) :
    (first ++ "\n" ++ second).toList = first.toList ++ '\n' :: second.toList := by
  simp

/-- **Scanning goes on afresh behind a newline.** When a text is scanned, a newline and any other
text behind it are scanned like that text alone. Its tokens follow those of the first text, or its
error is raised for the same reason, all in the same columns and as many lines further down as the
first text takes up. -/
theorem scan_joined_lines {first : String} {tokens : List Token}
    (h : Token.scan first = .ok tokens) (second : String) :
    (∀ more, Token.scan second = .ok more →
      Token.scan (first ++ "\n" ++ second) =
        .ok (tokens ++ more.map (Token.down (1 + first.toList.count '\n')))) ∧
    ∀ error, Token.scan second = .error error →
      Token.scan (first ++ "\n" ++ second) = .error (error.down (1 + first.toList.count '\n')) ∧
      (error.cause.isMalformed = true →
        error.message = error.place.locate error.cause.reason ∧
        (error.down (1 + first.toList.count '\n')).message =
          (error.place.down (1 + first.toList.count '\n')).locate error.cause.reason) := by
  have hfirst := Token.splits_of_scan h
  refine ⟨fun more hmore => ?_,
    fun error herror => ⟨?_, fun hcause => ⟨if_pos hcause, if_pos hcause⟩⟩⟩
  · refine Token.scan_of_splits (splitsUpTo_nil_iff.mp ?_)
    rw [toList_join_line]
    exact .append_line hfirst (splitsUpTo_nil_iff.mpr (Token.splits_of_scan hmore))
  · obtain ⟨before, rest, more, htext, hsplits, hmalformed, hplace⟩ :=
      Token.scan_eq_error_iff_malformed.mp herror
    refine Token.scan_eq_error_iff_malformed.mpr
      ⟨first.toList ++ '\n' :: before, rest, _, ?_, .append_line hfirst hsplits, hmalformed, ?_⟩
    · rw [toList_join_line, htext, List.append_assoc, List.cons_append]
    · rw [LexError.down, hplace, Place.behind_line]

/-- Behind a comment to the end of the line, a name is scanned and an open string is not. -/
theorem scan_behind_comment :
    let first := "a /\n// b"
    Token.scan first = .ok [⟨.identifier, "a", ⟨1, 1⟩⟩, ⟨.symbol, "/", ⟨1, 3⟩⟩] ∧
    Token.scan (first ++ "\n" ++ "/c") = .ok [⟨.identifier, "a", ⟨1, 1⟩⟩, ⟨.symbol, "/", ⟨1, 3⟩⟩,
      ⟨.symbol, "/", ⟨3, 1⟩⟩, ⟨.identifier, "c", ⟨3, 2⟩⟩] ∧
    Token.scan (first ++ "\n" ++ "1 \"d") = .error ⟨.unterminatedString, ⟨3, 3⟩⟩ := by
  intro first
  have hfirst : Token.scan first =
      .ok [⟨.identifier, "a", ⟨1, 1⟩⟩, ⟨.symbol, "/", ⟨1, 3⟩⟩] :=
    Token.scan_of_outcomeIn (show (Reader.ofString first).outcomeIn 3 = some _ by decide +kernel)
  have hname : Token.scan "/c" = .ok [⟨.symbol, "/", ⟨1, 1⟩⟩, ⟨.identifier, "c", ⟨1, 2⟩⟩] :=
    Token.scan_of_outcomeIn (show (Reader.ofString "/c").outcomeIn 3 = some _ by decide +kernel)
  have hopen : Token.scan "1 \"d" = .error ⟨.unterminatedString, ⟨1, 3⟩⟩ :=
    Token.scan_of_outcomeIn (show (Reader.ofString "1 \"d").outcomeIn 2 = some _ by decide +kernel)
  have hjoined := scan_joined_lines hfirst
  have hlines : 1 + first.toList.count '\n' = 2 := by decide
  simp only [hlines] at hjoined
  exact ⟨hfirst, (hjoined "/c").1 _ hname, ((hjoined "1 \"d").2 _ hopen).1⟩

end JackSyntax
