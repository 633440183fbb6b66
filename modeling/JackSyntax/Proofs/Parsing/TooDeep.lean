import JackSyntax.Proofs.Parsing.Chain

/-!
# Classes that nest too deep

A class of the language that nests deeper than 256 productions is rejected for that and for nothing
else: everything in front of the production that cannot be opened is matched.

## Results

* `SyntaxError.reason_prefix_message`: a message starts with its reason.
* `Reads.tooDeep_of_derives_unit`: with less room than the height of a derivation, a unit is
  rejected as too deep.
* **`deep_unit_is_too_deep`**: the error of such a class.
-/

namespace JackSyntax

open Ebnf Session

/-- The text of an error starts with its reason. -/
theorem SyntaxError.reason_prefix_message (error : SyntaxError) :
    error.reason.toList <+: error.report.message.toList := by
  simp only [Report.message, report, toString, String.toList_append, List.append_assoc]
  exact List.prefix_append _ _

/-- A derivation of a unit that is higher than the room is rejected as too deep. -/
theorem Reads.tooDeep_of_derives_unit {room height : Nat} {enclosing : List Production}
    {words : List Word} {trees : List Tree}
    (h : Derives Grammar.published (.nonterminal .unit) height words trees)
    (hless : room < height) :
    ∃ chain rest, Reads room enclosing (.nest .unit) words (.rejected .tooDeep chain) rest := by
  have hd : Derives Grammar.matched (Rule.nest .unit).ebnf height words trees :=
    (Grammar.published_derives_nonterminal_iff (by decide)).mp h
  have hrule : (Rule.nest .unit).predictive [none] = true := by decide
  have hend : lookahead ([] : List Word) ∈ [none] := List.mem_cons_self
  obtain ⟨chain, rest, hread⟩ := Reads.tooDeep_of_derives hd hless hrule hend
  rw [List.append_nil] at hread
  exact ⟨chain, rest, hread⟩

/-- A list of tokens whose words are rejected as a unit gives an error with that cause and chain. -/
theorem ofTokens_of_reads_rejected {tokens : List Token} {cause : SyntaxCause}
    {chain : List Production} {rest : List Word}
    (h : Reads 256 [] (.nest .unit) (tokens.map Token.word) (.rejected cause chain) rest) :
    ∃ error, Tree.ofTokens tokens = .error (.rejected error) ∧ error.cause = cause ∧
      error.rules = chain.reverse := by
  have hread : Reads (Session.ofList tokens).room (Session.ofList tokens).enclosing (.nest .unit)
      (Session.ofList tokens).words (.rejected cause chain) rest := by
    rwa [words_ofList]
  obtain ⟨after, hparse⟩ := parse_eq_error_of_reads hread
  exact ⟨_, Tree.ofTokens_eq_error_iff.mpr ⟨after, hparse⟩, rfl, rfl⟩

/-- **A class that nests too deep is rejected as such.** If some derivation of a unit from the
tokens has a chain of more than 256 nested productions, the types and calls among them counted, then
the tokens give an error and no tree. Its message starts with the nesting, and it tells 257
productions. -/
theorem deep_unit_is_too_deep {tokens : List Token} {height : Nat} {trees : List Tree}
    (h : Derives Grammar.published (.nonterminal .unit) height (tokens.map Token.word) trees)
    (hdeep : 256 < height) :
    ∃ error, Tree.ofTokens tokens = .error (.rejected error) ∧
      error.report.reason = "Nesting too deep" ∧
      "Nesting too deep".toList <+: error.report.message.toList ∧
      error.report.rules.length = 257 := by
  obtain ⟨chain, rest, hread⟩ := Reads.tooDeep_of_derives_unit h hdeep
  obtain ⟨-, -, -, hlength⟩ := hread.chain_of_nest
  have hlength : chain.length = 257 := hlength.mpr rfl
  obtain ⟨error, herror, hcause, hrules⟩ := ofTokens_of_reads_rejected hread
  have hreason : error.reason = "Nesting too deep" := SyntaxError.reason_eq_iff.mpr hcause
  have hcount : error.rules.length = 257 := by rw [hrules, List.length_reverse, hlength]
  have hsome : error.rules ≠ [] := List.ne_nil_of_length_eq_add_one hcount
  refine ⟨error, herror, hreason, ?_, ?_⟩
  · rw [← hreason]
    exact error.reason_prefix_message
  · rw [SyntaxError.rules_report hsome, List.length_map, hcount]

/-! ## A number behind many signs -/

theorem Ebnf.Derives.cast {grammar : Production → Ebnf} {e : Ebnf} {m n : Nat} {v w : List Word}
    {trees : List Tree} (h : Derives grammar e m v trees) (hheight : m = n) (hwords : v = w) :
    Derives grammar e n w trees := by
  rwa [← hheight, ← hwords]

/-- The words of a number with signs in front of it. -/
def wordsOfSigned (count : Nat) : List Word :=
  List.replicate count ⟨.symbol, "-"⟩ ++ [⟨.integerConstant, "1"⟩]

/-- The words of a class that returns that number. -/
def wordsOfReturning (count : Nat) : List Word :=
  [⟨.keyword, "class"⟩, ⟨.identifier, "A"⟩, ⟨.symbol, "\x7b"⟩, ⟨.keyword, "function"⟩,
    ⟨.keyword, "void"⟩, ⟨.identifier, "f"⟩, ⟨.symbol, "("⟩, ⟨.symbol, ")"⟩, ⟨.symbol, "\x7b"⟩,
    ⟨.keyword, "return"⟩] ++ wordsOfSigned count ++
  [⟨.symbol, ";"⟩, ⟨.symbol, "\x7d"⟩, ⟨.symbol, "\x7d"⟩]

theorem signed_derived (count : Nat) :
    ∃ trees, Derives Grammar.published (.nonterminal .term) (count + 1) (wordsOfSigned count)
      trees := by
  induction count with
  | zero => exact ⟨_, .nonterminal .term (.left (.terminal ⟨.integerConstant, "1"⟩))⟩
  | succ count ih =>
    obtain ⟨trees, hterm⟩ := ih
    have hsign : Derives Grammar.published Grammar.unaryOperator 0 [⟨.symbol, "-"⟩]
        [.leaf "symbol" "-"] :=
      .left (.terminal ⟨.symbol, "-"⟩)
    have hbody : Derives Grammar.published
        (.all [Grammar.unaryOperator, .nonterminal .term]) (count + 1)
        (wordsOfSigned (count + 1)) (.leaf "symbol" "-" :: trees) := by
      have h := Derives.seq hsign (derives_seq_empty_iff.mpr hterm)
      rwa [Nat.zero_max] at h
    exact ⟨_, .nonterminal .term (.right (.right (.right (.left hbody))))⟩

/-- Six more productions stand around the number. -/
theorem returning_derived (count : Nat) :
    ∃ trees, Derives Grammar.published (.nonterminal .unit) (count + 7) (wordsOfReturning count)
      trees := by
  obtain ⟨trees, hterm⟩ := signed_derived count
  have hexpression := Derives.nonterminal .expression (.seq hterm (.seq .done .empty))
  have hreturn := Derives.nonterminal .returnStmt (.seq (.terminal ⟨.keyword, "return"⟩)
    (.seq (.left hexpression) (.seq (.terminal ⟨.symbol, ";"⟩) .empty)))
  have hstatements := Derives.nonterminal .statementList
    (.more (.right (.right (.right (.right (.left hreturn))))) .done)
  have hbody := Derives.nonterminal .subroutineBody (.seq (.terminal ⟨.symbol, "\x7b"⟩)
    (.seq .done (.seq hstatements (.seq (.terminal ⟨.symbol, "\x7d"⟩) .empty))))
  have hparameters : Derives Grammar.published (.nonterminal .paramList) 1 [] _ :=
    .nonterminal .paramList (.right .empty)
  have hfunction := Derives.nonterminal .subroutineDecl
    (.seq (.right (.left (.terminal ⟨.keyword, "function"⟩)))
      (.seq (.left (.terminal ⟨.keyword, "void"⟩)) (.seq (.terminal ⟨.identifier, "f"⟩)
        (.seq (.terminal ⟨.symbol, "("⟩) (.seq hparameters (.seq (.terminal ⟨.symbol, ")"⟩)
          (.seq hbody .empty)))))))
  have hunit := Derives.nonterminal .unit (.seq (.terminal ⟨.keyword, "class"⟩)
    (.seq (.terminal ⟨.identifier, "A"⟩) (.seq (.terminal ⟨.symbol, "\x7b"⟩)
      (.seq (.more (.right (.left hfunction)) .done)
        (.seq (.terminal ⟨.symbol, "\x7d"⟩) .empty)))))
  exact ⟨_, hunit.cast (by omega) (by simp [wordsOfReturning])⟩

/-- With 250 signs the class is one production too deep. -/
theorem returning_signed_is_too_deep :
    (∃ trees, Derives Grammar.published (.nonterminal .unit) 257 (wordsOfReturning 250) trees) ∧
    ∃ error, Tree.ofTokens ((wordsOfReturning 250).map Word.token) = .error (.rejected error) ∧
      error.report.reason = "Nesting too deep" ∧
      "Nesting too deep".toList <+: error.report.message.toList ∧
      error.report.rules.length = 257 := by
  obtain ⟨trees, h⟩ := returning_derived 250
  refine ⟨⟨trees, h⟩, ?_⟩
  rw [← Word.map_word_map_token (wordsOfReturning 250)] at h
  exact deep_unit_is_too_deep h (by decide)

end JackSyntax
