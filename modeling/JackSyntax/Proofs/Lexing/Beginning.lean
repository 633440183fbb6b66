import JackSyntax.Proofs.Lexing.Splitting

/-!
# The beginning of a text

What stands in front of a text can be split with that text behind it: no word of the beginning goes
on into what follows, and no comment does. Such a beginning can be cut off, and put in front of
whatever is split.

## The model

* `SplitsUpTo rest passed text tokens`: behind `passed` and in front of `rest`, the text is a gap, a
  word and so on, to a gap that ends in front of `rest`.

## Results

* `SplitsUpTo.splits`: a beginning is split on its own, because what is cut off behind a word or a
  gap does not change it (`Spells.cut`, `IsGap.cut`).
* **`SplitsUpTo.append`**: a beginning and what is split behind it are split together.
* **`SplitsUpTo.before_line`**: a text that is split is split in front of further lines, because no
  word and no comment to the end of the line goes on behind a newline.
-/

namespace JackSyntax

/-- Behind `passed` and in front of `rest`, the text is a gap, a word, a gap and so on to a gap, and
the tokens are the words, each at the place of its first character. -/
inductive SplitsUpTo (rest : List Char) : List Char → List Char → List Token → Prop
  | stop {passed g : List Char} (hgap : IsGap g rest) : SplitsUpTo rest passed g []
  | token {passed g l more : List Char} {word : Word} {tokens : List Token}
    (hgap : IsGap g (l ++ more ++ rest)) (hword : Spells word l (more ++ rest))
    (others : SplitsUpTo rest (passed ++ g ++ l) more tokens) :
    SplitsUpTo rest passed (g ++ l ++ more)
      (⟨word.kind, word.text, .behind (passed ++ g)⟩ :: tokens)

/-! ## Cutting off what follows

Every condition on what follows a word or a gap looks at its first character alone, and holds at the
end of a text. -/

theorem head?_append_of_head? {c : Char} {rest : List Char} (more : List Char)
    (h : rest.head? = some c) : (rest ++ more).head? = some c := by
  rw [List.head?_append, h]
  rfl

section Cut

variable {run piece g l passed text rest more : List Char} {accept : Char → Bool} {word : Word}
  {tokens : List Token}

theorem LongestRun.cut (h : LongestRun accept run (rest ++ more)) : LongestRun accept run rest :=
  ⟨h.1, fun c hc => h.2 c (head?_append_of_head? more hc)⟩

theorem Spells.cut (h : Spells word l (rest ++ more)) : Spells word l rest := by
  cases h with
  | string hquote hline => exact .string hquote hline
  | integer hsome hmost hrun hvalue => exact .integer hsome hmost hrun.cut hvalue
  | name hfirst hrun => exact .name hfirst hrun.cut
  | mark hmark hslash =>
    refine .mark hmark fun hc => ⟨fun h => ?_, fun h => ?_⟩
    · exact (hslash hc).1 (head?_append_of_head? more h)
    · exact (hslash hc).2 (head?_append_of_head? more h)

theorem GapPiece.cut (h : GapPiece piece (rest ++ more)) : GapPiece piece rest := by
  cases h with
  | blank h => exact .blank h
  | lineComment h => exact .lineComment h.cut
  | blockComment h => exact .blockComment h

theorem IsGap.cut (h : IsGap g (rest ++ more)) : IsGap g rest := by
  generalize htext : rest ++ more = text at h
  induction h with
  | nil => exact .nil
  | cons first _ ih =>
    subst htext
    rw [← List.append_assoc] at first
    exact .cons first.cut (ih rfl)

/-- A beginning is split on its own. -/
theorem SplitsUpTo.splits (h : SplitsUpTo rest passed text tokens) : Splits passed text tokens := by
  induction h with
  | stop hgap => exact .last (IsGap.cut hgap)
  | token hgap hword _ ih => exact .token hgap.cut hword.cut ih

theorem splitsUpTo_nil_iff : SplitsUpTo [] passed text tokens ↔ Splits passed text tokens := by
  refine ⟨SplitsUpTo.splits, fun h => ?_⟩
  induction h with
  | last hgap => exact .stop hgap
  | @token passed g l more word tokens hgap hword _ ih =>
    exact .token (by rwa [List.append_nil]) (by rwa [List.append_nil]) ih

end Cut

/-! ## Putting texts together -/

section Append

variable {g gap passed text following rest : List Char} {tokens more : List Token}

theorem IsGap.append (h : IsGap g (gap ++ rest)) (hgap : IsGap gap rest) :
    IsGap (g ++ gap) rest := by
  generalize htext : gap ++ rest = text at h
  induction h with
  | nil => exact hgap
  | cons first _ ih =>
    subst htext
    rw [← List.append_assoc] at first
    rw [List.append_assoc]
    exact .cons first (ih rfl)

/-- A gap in front of a beginning belongs to its first gap. -/
theorem SplitsUpTo.gap_append (hgap : IsGap g (text ++ rest))
    (h : SplitsUpTo rest (passed ++ g) text tokens) :
    SplitsUpTo rest passed (g ++ text) tokens := by
  cases h with
  | stop hlast => exact .stop (hgap.append hlast)
  | @token _ next l more word tokens hnext hword others =>
    have hboth : IsGap (g ++ next) (l ++ more ++ rest) := by
      refine IsGap.append ?_ hnext
      rwa [List.append_assoc (next ++ l), List.append_assoc next, ← List.append_assoc l] at hgap
    rw [List.append_assoc passed] at others ⊢
    have htogether := SplitsUpTo.token hboth hword others
    rwa [List.append_assoc, List.append_assoc, ← List.append_assoc next] at htogether

/-- **A beginning and what is split behind it are split together.** -/
theorem SplitsUpTo.append (h : SplitsUpTo (following ++ rest) passed text tokens)
    (hmore : SplitsUpTo rest (passed ++ text) following more) :
    SplitsUpTo rest passed (text ++ following) (tokens ++ more) := by
  induction h with
  | stop hgap => exact hmore.gap_append hgap
  | @token passed g l text word tokens hgap hword _ ih =>
    have hothers := ih (by rwa [List.append_assoc, List.append_assoc, ← List.append_assoc g])
    rw [← List.append_assoc] at hgap hword
    have htogether := SplitsUpTo.token (by rwa [← List.append_assoc]) hword hothers
    rwa [← List.append_assoc] at htogether

end Append

/-! ## In front of further lines -/

section Lines

variable {run piece g l passed text rest : List Char} {accept : Char → Bool} {word : Word}
  {tokens : List Token}

theorem head?_append_line {c : Char} {more : List Char}
    (h : (rest ++ '\n' :: more).head? = some c) : rest.head? = some c ∨ c = '\n' := by
  cases rest with
  | nil => exact .inr (Option.some.inj h).symm
  | cons d rest => exact .inl h

theorem LongestRun.before_line (haccept : accept '\n' = false) (h : LongestRun accept run rest)
    (more : List Char) : LongestRun accept run (rest ++ '\n' :: more) := by
  refine ⟨h.1, fun c hc => ?_⟩
  rcases head?_append_line hc with hc | rfl
  · exact h.2 c hc
  · exact haccept

theorem Spells.before_line (h : Spells word l rest) (more : List Char) :
    Spells word l (rest ++ '\n' :: more) := by
  cases h with
  | string hquote hline => exact .string hquote hline
  | integer hsome hmost hrun hvalue => exact .integer hsome hmost (hrun.before_line rfl more) hvalue
  | name hfirst hrun => exact .name hfirst (hrun.before_line rfl more)
  | mark hmark hslash =>
    refine .mark hmark fun hc => ⟨fun h => ?_, fun h => ?_⟩
    · exact (head?_append_line h).elim (hslash hc).1 (by decide)
    · exact (head?_append_line h).elim (hslash hc).2 (by decide)

theorem GapPiece.before_line (h : GapPiece piece rest) (more : List Char) :
    GapPiece piece (rest ++ '\n' :: more) := by
  cases h with
  | blank h => exact .blank h
  | lineComment h => exact .lineComment (h.before_line rfl more)
  | blockComment h => exact .blockComment h

theorem IsGap.before_line (h : IsGap g rest) (more : List Char) :
    IsGap g (rest ++ '\n' :: more) := by
  induction h with
  | nil => exact .nil
  | cons first _ ih =>
    have hfirst := first.before_line more
    rw [List.append_assoc] at hfirst
    exact .cons hfirst ih

/-- **A text that is split is split in front of further lines.** -/
theorem SplitsUpTo.before_line (h : SplitsUpTo rest passed text tokens) (more : List Char) :
    SplitsUpTo (rest ++ '\n' :: more) passed text tokens := by
  induction h with
  | stop hgap => exact .stop (hgap.before_line more)
  | token hgap hword _ ih =>
    have hgap := hgap.before_line more
    have hword := hword.before_line more
    rw [List.append_assoc] at hgap hword
    exact .token hgap hword ih

end Lines

end JackSyntax
