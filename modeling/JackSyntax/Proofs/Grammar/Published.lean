import JackSyntax.Proofs.Grammar.Derivation

/-!
# The published grammar and the grammar of the rules

`Grammar.published` is the grammar of Jack as a reader of the language knows it, with `call` as a
production that starts with its name. The rules that are matched (`Grammar.rule`) leave that name to
the production around the call and decide every choice on the next token. `Rule.ebnf` forgets the
decisions and reads a rule as an expression, so both sides are grammars.

* **`published_derives_iff`**: both grammars derive the same words, trees and heights, from every
  expression, once the name in front of each call is written out (`Ebnf.unfoldCalls`).
* `published_derives_nonterminal_iff`: the case of a production other than `call`.
-/

namespace JackSyntax

open Ebnf

/-! ## The published grammar -/

namespace Grammar

/-- A reserved word. -/
def keyword (text : String) : Ebnf :=
  terminal (.keyword text)

/-- A mark. -/
def symbol (text : String) : Ebnf :=
  terminal (.symbol text)

/-- A name. -/
def identifier : Ebnf :=
  terminal .identifier

/-- The expression, and again behind every comma. -/
def commaSeparated (item : List Ebnf) : List Ebnf :=
  item ++ [star (all (symbol "," :: item))]

/-- What a class declares. -/
def memberDecl : Ebnf :=
  oneOf [nonterminal .fieldDecl, nonterminal .subroutineDecl]

/-- Any of the five statements. -/
def statement : Ebnf :=
  oneOf [nonterminal .letStmt, nonterminal .ifStmt, nonterminal .whileStmt, nonterminal .doStmt,
    nonterminal .returnStmt]

/-- A mark between two terms. -/
def binaryOperator : Ebnf :=
  oneOf (["+", "-", "*", "/", "&", "|", "<", ">", "="].map symbol)

/-- A mark in front of a term. -/
def unaryOperator : Ebnf :=
  oneOf (["-", "~"].map symbol)

/-- A reserved word that is a term. -/
def keywordConstant : Ebnf :=
  oneOf (["true", "false", "null", "this"].map keyword)

/-- **The grammar of Jack.** -/
def published : Production → Ebnf
  | .unit =>
    all [keyword "class", identifier, symbol "\x7b", star memberDecl, symbol "\x7d"]
  | .fieldDecl =>
    all (oneOf [keyword "static", keyword "field"] :: nonterminal .type ::
      commaSeparated [identifier] ++ [symbol ";"])
  | .type => oneOf [keyword "int", keyword "char", keyword "boolean", identifier]
  | .subroutineDecl =>
    all [oneOf [keyword "constructor", keyword "function", keyword "method"],
      oneOf [keyword "void", nonterminal .type], identifier,
      symbol "(", nonterminal .paramList, symbol ")", nonterminal .subroutineBody]
  | .paramList => opt (all (commaSeparated [nonterminal .type, identifier]))
  | .subroutineBody =>
    all [symbol "\x7b", star (nonterminal .localVarDecl), nonterminal .statementList, symbol "\x7d"]
  | .localVarDecl =>
    all (keyword "var" :: nonterminal .type :: commaSeparated [identifier] ++ [symbol ";"])
  | .statementList => star statement
  | .letStmt =>
    all [keyword "let", identifier, opt (all [symbol "[", nonterminal .expression, symbol "]"]),
      symbol "=", nonterminal .expression, symbol ";"]
  | .ifStmt =>
    all [keyword "if", symbol "(", nonterminal .expression, symbol ")",
      symbol "\x7b", nonterminal .statementList, symbol "\x7d",
      opt (all [keyword "else", symbol "\x7b", nonterminal .statementList, symbol "\x7d"])]
  | .whileStmt =>
    all [keyword "while", symbol "(", nonterminal .expression, symbol ")",
      symbol "\x7b", nonterminal .statementList, symbol "\x7d"]
  | .doStmt => all [keyword "do", nonterminal .call, symbol ";"]
  | .returnStmt => all [keyword "return", opt (nonterminal .expression), symbol ";"]
  | .expression => all [nonterminal .term, star (all [binaryOperator, nonterminal .term])]
  | .term =>
    oneOf [terminal .integerConstant, terminal .stringConstant, keywordConstant,
      all [unaryOperator, nonterminal .term],
      all [symbol "(", nonterminal .expression, symbol ")"],
      identifier,
      all [identifier, symbol "[", nonterminal .expression, symbol "]"],
      nonterminal .call]
  | .call =>
    oneOf [all [identifier, symbol "(", nonterminal .argList, symbol ")"],
      all [identifier, symbol ".", identifier, symbol "(", nonterminal .argList, symbol ")"]]
  | .argList => opt (all (commaSeparated [nonterminal .expression]))

end Grammar

/-! ## Rules as expressions -/

/-- The terminals of a class. -/
def TokenClass.terminals : TokenClass → List Terminal
  | keyword words => words.map .keyword
  | symbol marks => marks.map .symbol
  | identifier => [.identifier]
  | typeName => .identifier :: Vocabulary.primitiveTypes.map .keyword
  | constant => [.integerConstant, .stringConstant]

/-- A rule without its decisions. -/
def Rule.ebnf : Rule → Ebnf
  | .empty => .empty
  | .take expected => oneOf (expected.terminals.map .terminal)
  | .nest production => .nonterminal production
  | .seq first second => .seq first.ebnf second.ebnf
  | .branch _ yes no => .alt yes.ebnf no.ebnf
  | .many _ item => .star item.ebnf
  | .probe => .empty
  | .refuse => .never
  | .finish => .empty

/-- The grammar of the rules. -/
def Grammar.matched (production : Production) : Ebnf :=
  (Grammar.rule production).ebnf

/-! ## The two grammars agree -/

namespace Ebnf

/-- The expression with the name in front of each call written out. -/
def unfoldCalls : Ebnf → Ebnf
  | terminal t => terminal t
  | nonterminal production =>
    if production = .call then seq Grammar.identifier (nonterminal .call)
    else nonterminal production
  | empty => empty
  | never => never
  | seq a b => seq a.unfoldCalls b.unfoldCalls
  | alt a b => alt a.unfoldCalls b.unfoldCalls
  | star a => star a.unfoldCalls

end Ebnf

namespace Grammar

/-- The right-hand side of a production, the name of a call in front of it. -/
def named (production : Production) : Ebnf :=
  if production = .call then seq identifier (matched .call) else matched production

set_option maxRecDepth 4000 in
theorem sameProducts_published (production : Production) :
    SameProducts (published production).unfoldCalls (named production) := by
  cases production <;> decide

/-- The name of a call is no production of its own: it may stand in front of the call or inside. -/
theorem derives_identifier_call_iff {n : Nat} {w : List Word} {ts : List Tree} :
    Derives matched (.seq identifier (.nonterminal .call)) n w ts ↔
      ∃ height, Derives matched (named .call) height w ts ∧ n = height + 1 := by
  constructor
  · intro h
    obtain ⟨_, _, _, _, _, _, hname, hcall, rfl, rfl, rfl⟩ := derives_seq_iff.mp h
    obtain ⟨height, trees, hbody, rfl, rfl⟩ := derives_nonterminal_iff.mp hcall
    obtain ⟨word, hword, rfl, rfl, rfl⟩ := derives_terminal_iff.mp hname
    refine ⟨max 0 height, .seq hname hbody, by omega⟩
  · rintro ⟨height, h, rfl⟩
    obtain ⟨_, k, _, _, _, _, hname, hbody, rfl, rfl, rfl⟩ := derives_seq_iff.mp h
    obtain ⟨word, hword, rfl, rfl, rfl⟩ := derives_terminal_iff.mp hname
    have hcall := Derives.seq hname (.nonterminal .call hbody)
    rwa [show max 0 (k + 1) = max 0 k + 1 by omega] at hcall

/-- **The two grammars agree** on words, trees and heights. -/
theorem published_derives_iff (e : Ebnf) {n : Nat} {w : List Word} {ts : List Tree} :
    Derives published e n w ts ↔ Derives matched e.unfoldCalls n w ts := by
  -- a production makes the height smaller, every other constructor the expression
  suffices h : ∀ bound (e : Ebnf) {n w ts}, n ≤ bound →
      (Derives published e n w ts ↔ Derives matched e.unfoldCalls n w ts) from
    h n e (Nat.le_refl n)
  intro bound
  induction bound using Nat.strongRecOn with
  | _ bound ihbound =>
  intro e
  induction e with
  | terminal t => intro n w ts _; simp only [unfoldCalls, derives_terminal_iff]
  | empty => intro n w ts _; simp only [unfoldCalls, derives_empty_iff]
  | never => intro n w ts _; simp only [unfoldCalls, not_derives_never]
  | nonterminal production =>
    intro n w ts hle
    have hbody : ∀ {height trees}, height < bound →
        (Derives published (published production) height w trees ↔
          Derives matched (named production) height w trees) := fun hlt =>
      (ihbound _ hlt _ (Nat.le_refl _)).trans (sameProducts_published production).derives_iff
    rw [derives_nonterminal_iff]
    by_cases hcall : production = .call
    · subst hcall
      rw [unfoldCalls, if_pos rfl, derives_identifier_call_iff]
      constructor
      · rintro ⟨height, trees, h, rfl, rfl⟩
        exact ⟨height, (hbody (by omega)).mp h, rfl⟩
      · rintro ⟨height, h, rfl⟩
        exact ⟨height, ts, (hbody (by omega)).mpr h, rfl, rfl⟩
    · rw [unfoldCalls, if_neg hcall, derives_nonterminal_iff]
      simp only [named, if_neg hcall] at hbody
      constructor
      · rintro ⟨height, trees, h, rfl, rfl⟩
        exact ⟨height, trees, (hbody (by omega)).mp h, rfl, rfl⟩
      · rintro ⟨height, trees, h, rfl, rfl⟩
        exact ⟨height, trees, (hbody (by omega)).mpr h, rfl, rfl⟩
  | seq a b iha ihb =>
    intro n w ts hle
    rw [unfoldCalls, derives_seq_iff, derives_seq_iff]
    constructor
    · rintro ⟨m, k, v, u, ps, qs, ha, hb, rfl, rfl, rfl⟩
      exact ⟨m, k, v, u, ps, qs, (iha (by omega)).mp ha, (ihb (by omega)).mp hb, rfl, rfl, rfl⟩
    · rintro ⟨m, k, v, u, ps, qs, ha, hb, rfl, rfl, rfl⟩
      exact ⟨m, k, v, u, ps, qs, (iha (by omega)).mpr ha, (ihb (by omega)).mpr hb, rfl, rfl, rfl⟩
  | alt a b iha ihb =>
    intro n w ts hle
    rw [unfoldCalls, derives_alt_iff, derives_alt_iff, iha hle, ihb hle]
  | star a ih =>
    intro n w ts hle
    constructor
    · exact .star_map fun hm h => (ih (Nat.le_trans hm hle)).mp h
    · exact .star_map fun hm h => (ih (Nat.le_trans hm hle)).mpr h

/-- A production other than a call derives the same in both grammars. -/
theorem published_derives_nonterminal_iff {production : Production} (hcall : production ≠ .call)
    {n : Nat} {w : List Word} {ts : List Tree} :
    Derives published (.nonterminal production) n w ts ↔
      Derives matched (.nonterminal production) n w ts := by
  rw [published_derives_iff, unfoldCalls, if_neg hcall]

end Grammar

end JackSyntax
