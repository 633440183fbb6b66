import JackSyntax.Reader.Gap
import JackSyntax.Token.Lexeme
import Mathlib.Data.List.Induction
import Mathlib.Data.Nat.Digits.Defs

/-!
# How gaps and words are spelled

The shape of a source text without any scanning: which characters may stand between two tokens, and
which characters a word is written with. Both depend on what stands behind them, because comments to
the end of the line, digits and names go on as long as they can.

## The model

* `LongestRun accept run rest`: in front of `rest`, the run is not longer only because the next
  character is not accepted.
* `GapPiece piece rest`: a blank or a comment. `IsGap gap rest`: any number of them.
* `Solid text`: neither a blank nor a comment starts here.
* `Spells word lexeme rest`: in front of `rest`, these characters write the word.

## Results

* **`exists_isGap`**: a text is a gap and something solid, or a gap and a block comment that is
  never closed.
* **`gap_append`**: gaps are measured piece by piece; with `gap_solid` and `gap_unclosed` this is
  all that `gap` says.
* **`lexemeAt_of_spells`**, **`spells_of_lexemeAt`**: the words that are read are those that are
  spelled.
-/

namespace JackSyntax

/-! ## Runs -/

/-- All characters of the run are accepted, and the one behind it is not. -/
def LongestRun (accept : Char → Bool) (run rest : List Char) : Prop :=
  (∀ c ∈ run, accept c = true) ∧ ∀ c, rest.head? = some c → accept c = false

variable {accept : Char → Bool}

theorem longestRun_nil_iff {rest : List Char} :
    LongestRun accept [] rest ↔ ∀ c, rest.head? = some c → accept c = false := by
  simp [LongestRun]

theorem longestRun_cons_iff {c : Char} {run rest : List Char} :
    LongestRun accept (c :: run) rest ↔ accept c = true ∧ LongestRun accept run rest := by
  simp [LongestRun, and_assoc]

theorem LongestRun.takeWhile_eq {run rest : List Char} (h : LongestRun accept run rest) :
    (run ++ rest).takeWhile accept = run := by
  have hrest : rest.takeWhile accept = [] := by
    cases rest with
    | nil => rfl
    | cons c rest => exact List.takeWhile_cons_of_neg (by simp [h.2 c rfl])
  rw [List.takeWhile_append_of_pos h.1, hrest, List.append_nil]

/-- A text is its longest accepted run and the rest. -/
theorem exists_longestRun (accept : Char → Bool) (text : List Char) :
    ∃ run rest, text = run ++ rest ∧ LongestRun accept run rest := by
  induction text with
  | nil => exact ⟨[], [], rfl, longestRun_nil_iff.mpr fun c hc => by cases hc⟩
  | cons c text ih =>
    cases hc : accept c with
    | true =>
      obtain ⟨run, rest, rfl, hrun⟩ := ih
      exact ⟨c :: run, rest, rfl, longestRun_cons_iff.mpr ⟨hc, hrun⟩⟩
    | false =>
      refine ⟨[], c :: text, rfl, longestRun_nil_iff.mpr fun d hd => ?_⟩
      obtain rfl := Option.some.inj hd
      exact hc

/-! ## Gaps -/

/-- A blank or a comment in front of `rest`. -/
inductive GapPiece : List Char → List Char → Prop
  | blank {c : Char} {rest : List Char} (h : Text.isBlank c = true) : GapPiece [c] rest
  /-- It goes on up to the next newline, or to the end of the text. -/
  | lineComment {body rest : List Char} (h : LongestRun (· != '\n') body rest) :
    GapPiece ('/' :: '/' :: body) rest
  /-- No `*/` begins in the body. -/
  | blockComment {body rest : List Char} (h : ¬ ['*', '/'] <:+: body ++ ['*']) :
    GapPiece ('/' :: '*' :: (body ++ ['*', '/'])) rest

/-- Any number of blanks and comments in front of `rest`. -/
inductive IsGap : List Char → List Char → Prop
  | nil {rest : List Char} : IsGap [] rest
  | cons {piece more rest : List Char} (first : GapPiece piece (more ++ rest))
    (others : IsGap more rest) : IsGap (piece ++ more) rest

/-- Neither a blank nor a comment starts here. -/
def Solid : List Char → Prop
  | [] => True
  | c :: rest =>
    Text.isBlank c = false ∧ (c = '/' → rest.head? ≠ some '/' ∧ rest.head? ≠ some '*')

/-! ### The end of a block comment -/

/-- A `*/` begins at the first character or further on. -/
theorem infix_close_cons_iff {c : Char} {text : List Char} :
    ['*', '/'] <:+: c :: text ↔ (c = '*' ∧ text.head? = some '/') ∨ ['*', '/'] <:+: text := by
  rw [List.infix_cons_iff, List.cons_prefix_cons]
  cases text with
  | nil => simp
  | cons d text => simp [List.cons_prefix_cons, eq_comm]

theorem commentEnd?_cons {c : Char} {text : List Char}
    (h : ¬ (c = '*' ∧ text.head? = some '/')) :
    commentEnd? (c :: text) = (commentEnd? text).map (· + 1) := by
  refine commentEnd?.eq_2 _ _ fun tail hc htext => h ⟨hc, ?_⟩
  rw [htext]
  rfl

theorem commentEnd?_append {body : List Char} (h : ¬ ['*', '/'] <:+: body ++ ['*'])
    (rest : List Char) : commentEnd? (body ++ '*' :: '/' :: rest) = some (body.length + 2) := by
  induction body with
  | nil => rfl
  | cons c body ih =>
    rw [List.cons_append, infix_close_cons_iff, not_or] at h
    have hopen : ¬ (c = '*' ∧ (body ++ '*' :: '/' :: rest).head? = some '/') := by
      have hfirst := h.1
      cases body with
      | nil => simp
      | cons d body => simpa using hfirst
    rw [List.cons_append, commentEnd?_cons hopen, ih h.2]
    rfl

/-- A text has no `*/`, or a first one, and only a first one is found. -/
theorem commentEnd?_cases (text : List Char) :
    (commentEnd? text = none ∧ ¬ ['*', '/'] <:+: text) ∨
    ∃ body rest, text = body ++ '*' :: '/' :: rest ∧ ¬ ['*', '/'] <:+: body ++ ['*'] := by
  induction text with
  | nil => exact .inl ⟨rfl, by simp⟩
  | cons c text ih =>
    by_cases hopen : c = '*' ∧ text.head? = some '/'
    · obtain ⟨rfl, hhead⟩ := hopen
      obtain ⟨rest, rfl⟩ := List.head?_eq_some_iff.mp hhead
      exact .inr ⟨[], rest, rfl, by decide⟩
    · rcases ih with ⟨hnone, htext⟩ | ⟨body, rest, rfl, hbody⟩
      · refine .inl ⟨by rw [commentEnd?_cons hopen, hnone]; rfl, ?_⟩
        rw [infix_close_cons_iff, not_or]
        exact ⟨hopen, htext⟩
      · refine .inr ⟨c :: body, rest, rfl, ?_⟩
        rw [List.cons_append, infix_close_cons_iff, not_or]
        refine ⟨?_, hbody⟩
        cases body with
        | nil => simp
        | cons d body => simpa using hopen

/-! ### Measuring a gap -/

theorem Gap.behind_zero (found : Gap) : found.behind 0 = found := by
  cases found <;> simp [behind]

theorem Gap.behind_behind (m n : Nat) (found : Gap) :
    (found.behind n).behind m = found.behind (m + n) := by
  cases found <;> simp [behind, Nat.add_assoc]

theorem gap_blank {c : Char} {rest : List Char} (h : Text.isBlank c = true) :
    gap (c :: rest) = (gap rest).behind 1 := by
  have hslash : c ≠ '/' := by
    rintro rfl
    cases h
  rw [gap.eq_3 c rest (fun _ hc => absurd hc hslash) (fun _ hc => absurd hc hslash), if_pos h]

theorem gap_piece {piece rest : List Char} (h : GapPiece piece rest) :
    gap (piece ++ rest) = (gap rest).behind piece.length := by
  cases h with
  | blank h => exact gap_blank h
  | @lineComment body _ h =>
    rw [List.cons_append, List.cons_append, gap.eq_1, h.takeWhile_eq, List.drop_left]
    congr 1
    rw [List.length_cons, List.length_cons, Nat.add_comm]
  | @blockComment body _ h =>
    have htext : '/' :: '*' :: (body ++ ['*', '/']) ++ rest =
        '/' :: '*' :: (body ++ '*' :: '/' :: rest) := by simp
    have hdrop : (body ++ '*' :: '/' :: rest).drop (body.length + 2) = rest := by simp
    have hlength : ('/' :: '*' :: (body ++ ['*', '/'])).length = 2 + (body.length + 2) := by
      simp only [List.length_cons, List.length_append, List.length_nil]
      omega
    rw [htext, gap.eq_2, commentEnd?_append h rest, hlength]
    simp only [hdrop]

/-- **Gaps are measured piece by piece.** -/
theorem gap_append {g rest : List Char} (h : IsGap g rest) :
    gap (g ++ rest) = (gap rest).behind g.length := by
  induction h with
  | nil => exact (Gap.behind_zero _).symm
  | cons first _ ih =>
    rw [List.append_assoc, gap_piece first, ih, Gap.behind_behind, List.length_append]

theorem gap_solid {text : List Char} (h : Solid text) : gap text = .closed 0 := by
  unfold gap
  split
  · exact absurd rfl (h.2 rfl).1
  · exact absurd rfl (h.2 rfl).2
  · rw [if_neg (by rw [h.1]; exact Bool.false_ne_true)]
  · rfl

theorem gap_unclosed {text : List Char} (h : ¬ ['*', '/'] <:+: text) :
    gap ('/' :: '*' :: text) = .unclosed 0 := by
  rw [gap.eq_2]
  rcases commentEnd?_cases text with ⟨hnone, -⟩ | ⟨body, rest, rfl, -⟩
  · rw [hnone]
  · exact absurd ⟨body, rest, by simp⟩ h

/-- In front stands a piece of a gap, something solid, or a block comment that is never closed. -/
theorem exists_gapPiece (text : List Char) :
    (∃ piece rest, text = piece ++ rest ∧ rest.length < text.length ∧ GapPiece piece rest) ∨
    Solid text ∨ ∃ body, text = '/' :: '*' :: body ∧ ¬ ['*', '/'] <:+: body := by
  cases text with
  | nil => exact .inr (.inl trivial)
  | cons c text =>
    by_cases hblank : Text.isBlank c = true
    · exact .inl ⟨[c], text, rfl, Nat.lt_succ_self _, .blank hblank⟩
    by_cases hline : c = '/' ∧ text.head? = some '/'
    · obtain ⟨rfl, hhead⟩ := hline
      obtain ⟨text, rfl⟩ := List.head?_eq_some_iff.mp hhead
      obtain ⟨body, rest, rfl, hbody⟩ := exists_longestRun (· != '\n') text
      refine .inl ⟨'/' :: '/' :: body, rest, rfl, ?_, .lineComment hbody⟩
      simp only [List.length_cons, List.length_append]
      omega
    by_cases hblock : c = '/' ∧ text.head? = some '*'
    · obtain ⟨rfl, hhead⟩ := hblock
      obtain ⟨text, rfl⟩ := List.head?_eq_some_iff.mp hhead
      rcases commentEnd?_cases text with ⟨-, hopen⟩ | ⟨body, rest, rfl, hbody⟩
      · exact .inr (.inr ⟨text, rfl, hopen⟩)
      · refine .inl ⟨'/' :: '*' :: (body ++ ['*', '/']), rest, by simp, ?_, .blockComment hbody⟩
        simp only [List.length_cons, List.length_append]
        omega
    · refine .inr (.inl ⟨by simpa using hblank, fun hc => ?_⟩)
      exact ⟨fun h => hline ⟨hc, h⟩, fun h => hblock ⟨hc, h⟩⟩

/-- **A text is a gap and something solid**, or a gap and a block comment that is never closed. -/
theorem exists_isGap (text : List Char) :
    ∃ g rest, text = g ++ rest ∧ IsGap g rest ∧
      (Solid rest ∨ ∃ body, rest = '/' :: '*' :: body ∧ ¬ ['*', '/'] <:+: body) := by
  induction hn : text.length using Nat.strongRecOn generalizing text with
  | _ n ih =>
    rcases exists_gapPiece text with ⟨piece, rest, rfl, hlt, hpiece⟩ | hstop
    · obtain ⟨g, last, rfl, hgap, hlast⟩ := ih _ (hn ▸ hlt) rest rfl
      exact ⟨piece ++ g, last, by rw [List.append_assoc], .cons hpiece hgap, hlast⟩
    · exact ⟨[], text, rfl, .nil, hstop⟩

/-! ## Words -/

/-- The number that digits write, the last of them the ones. -/
def spelledValue (digits : List Char) : Nat :=
  Nat.ofDigits 10 (digits.reverse.map fun c => c.toNat - '0'.toNat)

/-- In front of `rest`, the characters write the word. -/
inductive Spells : Word → List Char → List Char → Prop
  | string {body rest : List Char} (hquote : '"' ∉ body) (hline : '\n' ∉ body) :
    Spells ⟨.stringConstant, String.ofList body⟩ ('"' :: (body ++ ['"'])) rest
  | integer {digits rest : List Char} (hsome : 1 ≤ digits.length) (hmost : digits.length ≤ 4300)
    (hrun : LongestRun isDigit digits rest) (hvalue : spelledValue digits ≤ 32767) :
    Spells ⟨.integerConstant, toString (spelledValue digits)⟩ digits rest
  | name {first : Char} {more rest : List Char} (hfirst : isDigit first = false)
    (hrun : LongestRun isWordCharacter (first :: more) rest) :
    Spells ⟨if String.ofList (first :: more) ∈ Vocabulary.keywords then .keyword else .identifier,
      String.ofList (first :: more)⟩ (first :: more) rest
  | mark {c : Char} {rest : List Char} (hmark : c ∈ Vocabulary.symbols)
    (hslash : c = '/' → rest.head? ≠ some '/' ∧ rest.head? ≠ some '*') :
    Spells ⟨.symbol, String.singleton c⟩ [c] rest

theorem digitsValue_eq (digits : List Char) : digitsValue digits = spelledValue digits := by
  induction digits using List.reverseRecOn with
  | nil => rfl
  | append_singleton digits c ih =>
    rw [digitsValue, Text.decimal] at ih ⊢
    rw [List.map_append, List.foldl_append, ih]
    simp only [spelledValue, List.reverse_append, List.reverse_cons, List.reverse_nil,
      List.nil_append, List.singleton_append, List.map_cons, List.map_nil, List.foldl_cons,
      List.foldl_nil, Nat.ofDigits_cons]
    rw [Nat.add_comm]

/-! ### Words are solid -/

theorem isWordCharacter_of_isDigit {c : Char} (h : isDigit c = true) :
    isWordCharacter c = true := by
  simp [isWordCharacter, h]

theorem not_isBlank_of_isWordCharacter {c : Char} (h : isWordCharacter c = true) :
    Text.isBlank c = false := by
  have hcode : 48 ≤ c.toNat ∧ c.toNat ≤ 122 := by
    simp only [isWordCharacter, isDigit, Bool.or_eq_true, Bool.and_eq_true, decide_eq_true_eq,
      beq_iff_eq, Char.le_def, UInt32.le_iff_toNat_le] at h
    rcases h with ((h | h) | h) | rfl
    · exact ⟨Nat.le_trans (by decide) h.1, h.2⟩
    · exact ⟨Nat.le_trans (by decide) h.1, Nat.le_trans h.2 (by decide)⟩
    · exact ⟨h.1, Nat.le_trans h.2 (by decide)⟩
    · decide
  simp only [Text.isBlank, Text.blanks, List.any_cons, List.any_nil, Bool.or_false,
    Bool.or_eq_false_iff, Bool.and_eq_false_iff, decide_eq_false_iff_not]
  omega

theorem solid_of_isWordCharacter {c : Char} (h : isWordCharacter c = true) (text : List Char) :
    Solid (c :: text) := by
  refine ⟨not_isBlank_of_isWordCharacter h, ?_⟩
  rintro rfl
  cases h

/-- A mark is of no other class. -/
theorem plain_of_mem_symbols {c : Char} (h : c ∈ Vocabulary.symbols) :
    Text.isBlank c = false ∧ isWordCharacter c = false ∧ c ≠ '"' := by
  have hall : Vocabulary.symbols.all
      (fun c => !Text.isBlank c && (!isWordCharacter c && c != '"')) = true := by decide
  simpa using List.all_eq_true.mp hall c h

/-- **No gap stands in front of a word.** -/
theorem Spells.solid {word : Word} {l rest : List Char} (h : Spells word l rest) :
    Solid (l ++ rest) := by
  cases h with
  | string => exact ⟨rfl, fun hc => by cases hc⟩
  | integer hsome _ hrun =>
    cases l with
    | nil => cases hsome
    | cons c digits =>
      have hdigit := (longestRun_cons_iff.mp hrun).1
      exact solid_of_isWordCharacter (isWordCharacter_of_isDigit hdigit) _
  | name _ hrun => exact solid_of_isWordCharacter (longestRun_cons_iff.mp hrun).1 _
  | mark hmark hslash =>
    exact ⟨(plain_of_mem_symbols hmark).1, hslash⟩

/-! ### Reading a word -/

theorem longestRun_isStringCharacter_iff {body rest : List Char} :
    LongestRun isStringCharacter body ('"' :: rest) ↔ '"' ∉ body ∧ '\n' ∉ body := by
  have hbody : (∀ c ∈ body, isStringCharacter c = true) ↔ '"' ∉ body ∧ '\n' ∉ body := by
    simp only [isStringCharacter, Bool.and_eq_true, bne_iff_ne, ne_eq]
    constructor
    · exact fun h => ⟨fun hc => (h _ hc).1 rfl, fun hc => (h _ hc).2 rfl⟩
    · rintro ⟨hquote, hline⟩ c hc
      exact ⟨fun h => hquote (h ▸ hc), fun h => hline (h ▸ hc)⟩
  rw [LongestRun, hbody]
  refine and_iff_left fun c hc => ?_
  obtain rfl := Option.some.inj hc
  rfl

theorem string_of_longestRun {c : Char} {body rest : List Char}
    (h : LongestRun isStringCharacter body ('"' :: rest)) :
    Lexeme.string (c :: (body ++ '"' :: rest)) =
      ⟨body.length + 2, .ok ⟨.stringConstant, String.ofList body⟩⟩ := by
  simp only [Lexeme.string, h.takeWhile_eq, List.drop_left]

theorem string_eq_ok {c : Char} {text : List Char} {word : Word}
    (h : (Lexeme.string (c :: text)).word = .ok word) :
    ∃ body rest, text = body ++ '"' :: rest ∧ LongestRun isStringCharacter body ('"' :: rest) ∧
      word = ⟨.stringConstant, String.ofList body⟩ := by
  obtain ⟨body, rest, rfl, hrun⟩ := exists_longestRun isStringCharacter text
  simp only [Lexeme.string, hrun.takeWhile_eq, List.drop_left] at h
  split at h
  · exact ⟨body, _, rfl, hrun, (Except.ok.inj h).symm⟩
  · cases h

theorem integerWord_eq_ok_iff {digits : List Char} {word : Word} :
    Lexeme.integerWord digits = .ok word ↔
      1 ≤ digits.length ∧ digits.length ≤ 4300 ∧ spelledValue digits ≤ 32767 ∧
        word = ⟨.integerConstant, toString (spelledValue digits)⟩ := by
  rw [Lexeme.integerWord, digitsValue_eq, Vocabulary.largestInteger, Text.mostDigits]
  cases digits with
  | nil => simp
  | cons c digits =>
    rw [List.isEmpty_cons, if_neg Bool.false_ne_true]
    split
    · exact iff_of_false (by simp) (by omega)
    · split
      · exact iff_of_false (by simp) (by omega)
      · rw [Except.ok.injEq]
        refine ⟨?_, fun h => h.2.2.2.symm⟩
        rintro rfl
        exact ⟨Nat.succ_pos _, by omega, by omega, rfl⟩

/-- In front of digits stands no gap, and they are read as long as they go on. -/
theorem lexemeAt_of_digits {c : Char} {digits rest : List Char}
    (hrun : LongestRun isDigit (c :: digits) rest) :
    Solid (c :: (digits ++ rest)) ∧ lexemeAt c (digits ++ rest) =
      ⟨(c :: digits).length, Lexeme.integerWord (c :: digits)⟩ := by
  have hdigit := (longestRun_cons_iff.mp hrun).1
  have hquote : c ≠ '"' := by
    rintro rfl
    cases hdigit
  refine ⟨solid_of_isWordCharacter (isWordCharacter_of_isDigit hdigit) _, ?_⟩
  rw [lexemeAt, if_neg hquote, if_pos hdigit, ← List.cons_append, Lexeme.integer,
    hrun.takeWhile_eq]

/-- **A word that is spelled is read.** -/
theorem lexemeAt_of_spells {word : Word} {l rest : List Char} (h : Spells word l rest) :
    ∃ c more, l = c :: more ∧ lexemeAt c (more ++ rest) = ⟨l.length, .ok word⟩ := by
  cases h with
  | @string body _ hquote hline =>
    refine ⟨'"', body ++ ['"'], rfl, ?_⟩
    have hrun : LongestRun isStringCharacter body ('"' :: rest) :=
      longestRun_isStringCharacter_iff.mpr ⟨hquote, hline⟩
    rw [lexemeAt, if_pos rfl, List.append_assoc, List.singleton_append, string_of_longestRun hrun,
      List.length_cons, List.length_append]
    rfl
  | integer hsome hmost hrun hvalue =>
    cases l with
    | nil => cases hsome
    | cons c more =>
      refine ⟨c, more, rfl, ?_⟩
      rw [(lexemeAt_of_digits hrun).2, integerWord_eq_ok_iff.mpr ⟨hsome, hmost, hvalue, rfl⟩]
  | @name first more _ hfirst hrun =>
    have hword := (longestRun_cons_iff.mp hrun).1
    have hquote : first ≠ '"' := by
      rintro rfl
      cases hword
    refine ⟨first, more, rfl, ?_⟩
    rw [lexemeAt, if_neg hquote, if_neg (by simp [hfirst]), if_pos hword, ← List.cons_append,
      Lexeme.name, hrun.takeWhile_eq]
    simp [Lexeme.nameWord]
  | @mark c _ hmark hslash =>
    refine ⟨c, [], rfl, ?_⟩
    obtain ⟨-, hword, hquote⟩ := plain_of_mem_symbols hmark
    have hdigit : ¬ isDigit c = true := fun h => by simp [isWordCharacter_of_isDigit h] at hword
    rw [lexemeAt, if_neg hquote, if_neg hdigit, if_neg (by simp [hword]),
      Lexeme.mark, if_pos (by simpa using hmark)]
    rfl

/-- **A word that is read is spelled**, where no gap stands in front. -/
theorem spells_of_lexemeAt {c : Char} {text : List Char} {word : Word}
    (hsolid : Solid (c :: text)) (h : (lexemeAt c text).word = .ok word) :
    ∃ l rest, c :: text = l ++ rest ∧ Spells word l rest := by
  rw [lexemeAt] at h
  split at h
  next hquote =>
    subst hquote
    obtain ⟨body, rest, rfl, hrun, rfl⟩ := string_eq_ok h
    obtain ⟨hquote, hline⟩ := longestRun_isStringCharacter_iff.mp hrun
    exact ⟨'"' :: (body ++ ['"']), rest, by simp, .string hquote hline⟩
  next =>
  split at h
  next hdigit =>
    obtain ⟨digits, rest, htext, hrun⟩ := exists_longestRun isDigit (c :: text)
    rw [htext, Lexeme.integer, hrun.takeWhile_eq] at h
    obtain ⟨hsome, hmost, hvalue, rfl⟩ := integerWord_eq_ok_iff.mp h
    exact ⟨digits, rest, htext, .integer hsome hmost hrun hvalue⟩
  next hdigit =>
  split at h
  next hword =>
    obtain ⟨more, rest, rfl, hrun⟩ := exists_longestRun isWordCharacter text
    have hrun : LongestRun isWordCharacter (c :: more) rest := longestRun_cons_iff.mpr ⟨hword, hrun⟩
    rw [← List.cons_append, Lexeme.name, hrun.takeWhile_eq] at h
    obtain rfl := Except.ok.inj h
    refine ⟨c :: more, rest, rfl, ?_⟩
    simpa [Lexeme.nameWord] using Spells.name (by simpa using hdigit) hrun
  next =>
    rw [Lexeme.mark] at h
    split at h
    next hmark =>
      obtain rfl := Except.ok.inj h
      exact ⟨[c], text, rfl, .mark (by simpa using hmark) hsolid.2⟩
    next => cases h

end JackSyntax
