import Mathlib.Data.List.Chain
import JackSyntax.Proofs.Parsing.FirstError

/-!
# The chain of an error is a path of the grammar

An error tells the productions that were open where matching stopped. Each of them stands on the
right-hand side of the one around it, and there is one more of them than may be open exactly when
they nest too deep.

## The model

* `Production.Encloses outer inner`: `inner` occurs on the right-hand side of `outer`.
* `Rule.nested`: the productions that a rule nests, at any place in it.
* `Rejects room enclosing rule cause chain`: a way to a rejection, without the words.
* `Production.statements`: the five statements.

## Results

* `encloses_of_mem_nested`: a rule nests only what its production encloses.
* `Reads.rejects`: every rejection comes about in one of these ways.
* `Rejects.suffix`, **`Rejects.length`**, `Rejects.isChain`: the chain of a rejection.
* `SyntaxError.statement?_eq_some_iff`: the statement that is told is the innermost one.
* **`chain_of_error_is_path`**: the chain that a rejected unit tells, and the statement in it.
-/

namespace JackSyntax

/-! ## Productions inside productions -/

/-- The productions that occur in an expression. -/
def Ebnf.nonterminals : Ebnf → List Production
  | nonterminal production => [production]
  | seq a b | alt a b => a.nonterminals ++ b.nonterminals
  | star a => a.nonterminals
  | terminal _ | empty | never => []

/-- The inner production occurs on the right-hand side of the outer one. -/
def Production.Encloses (outer inner : Production) : Prop :=
  inner ∈ (Grammar.published outer).nonterminals

/-- The productions that a rule nests. -/
def Rule.nested : Rule → List Production
  | nest production => [production]
  | seq a b => a.nested ++ b.nested
  | branch _ yes no => yes.nested ++ no.nested
  | many _ item => item.nested
  | empty | take _ | probe | refuse | finish => []

set_option maxRecDepth 4000 in
/-- A rule nests only what its production encloses. -/
theorem encloses_of_mem_nested (outer : Production) :
    ∀ inner ∈ (Grammar.rule outer).nested, outer.Encloses inner := by
  unfold Production.Encloses
  cases outer <;> decide

/-! ## How a rejection comes about -/

/-- A rejection without the words: matching stops where it stands, or because no production can be
opened, or inside a nested production, or in a part of the rule. -/
inductive Rejects : Nat → List Production → Rule → SyntaxCause → List Production → Prop
  | here {room enclosing rule cause} (hcause : cause ≠ .tooDeep) :
    Rejects room enclosing rule cause enclosing
  | deep {enclosing production} :
    Rejects 0 enclosing (.nest production) .tooDeep (production :: enclosing)
  | nest {room enclosing production cause chain}
    (h : Rejects room (production :: enclosing) (Grammar.rule production) cause chain) :
    Rejects (room + 1) enclosing (.nest production) cause chain
  | part {room enclosing part rule cause chain} (hpart : part.nested ⊆ rule.nested)
    (h : Rejects room enclosing part cause chain) : Rejects room enclosing rule cause chain

variable {room : Nat} {enclosing : List Production} {rule : Rule} {input rest : List Word}
  {cause : SyntaxCause} {chain : List Production}

theorem Reads.rejects (h : Reads room enclosing rule input (.rejected cause chain) rest) :
    Rejects room enclosing rule cause chain := by
  generalize ho : Outcome.rejected cause chain = outcome at h
  induction h with
  | miss | refuse | trailing =>
    cases ho
    exact .here nofun
  | tooDeep =>
    cases ho
    exact .deep
  | nest _ ih => exact .nest (ih (Outcome.map_eq_rejected_iff.mp ho.symm).symm)
  | seq _ _ _ ih =>
    have hsecond := ih (Outcome.map_eq_rejected_iff.mp ho.symm).symm
    exact .part (List.subset_append_right _ _) hsecond
  | seqRejected _ ih => exact .part (List.subset_append_left _ _) (ih ho)
  | yes _ _ ih => exact .part (List.subset_append_left _ _) (ih ho)
  | no _ _ ih => exact .part (List.subset_append_right _ _) (ih ho)
  | turn _ _ _ _ ih => exact ih (Outcome.map_eq_rejected_iff.mp ho.symm).symm
  | @turnRejected _ _ _ item _ _ _ _ _ _ ih =>
    exact .part (fun _ hnested => hnested : item.nested ⊆ (Rule.many _ item).nested) (ih ho)
  | _ => cases ho

namespace Rejects

/-- The productions that were open before are open where matching stops. -/
theorem suffix (h : Rejects room enclosing rule cause chain) : enclosing <:+ chain := by
  induction h with
  | here => exact List.suffix_refl _
  | deep => exact List.suffix_cons _ _
  | nest _ ih => exact (List.suffix_cons _ _).trans ih
  | part _ _ ih => exact ih

/-- **The chain of a rejection** is one longer than there was room for exactly when the productions
nest too deep. -/
theorem length (h : Rejects room enclosing rule cause chain) :
    (cause = .tooDeep → chain.length = enclosing.length + room + 1) ∧
    (cause ≠ .tooDeep → chain.length ≤ enclosing.length + room) := by
  induction h with
  | here hcause => exact ⟨fun h => absurd h hcause, fun _ => Nat.le_add_right _ _⟩
  | deep => exact ⟨fun _ => rfl, fun h => absurd rfl h⟩
  | nest _ ih =>
    obtain ⟨hdeep, hother⟩ := ih
    rw [List.length_cons] at hdeep hother
    refine ⟨fun h => ?_, fun h => ?_⟩
    · rw [hdeep h]
      omega
    · exact Nat.le_trans (hother h) (by omega)
  | part _ _ ih => exact ih

/-- Each production of the chain encloses the one inside it, if those do that were open before and
those that the rule nests fit in. -/
theorem isChain (h : Rejects room enclosing rule cause chain)
    (hchain : enclosing.IsChain fun inner outer => outer.Encloses inner)
    (hnested : ∀ inner ∈ rule.nested,
      (inner :: enclosing).IsChain fun inner outer => outer.Encloses inner) :
    chain.IsChain fun inner outer => outer.Encloses inner := by
  induction h with
  | here => exact hchain
  | deep => exact hnested _ List.mem_cons_self
  | @nest _ _ production _ _ _ ih =>
    have hopened := hnested production List.mem_cons_self
    refine ih hopened fun inner hinner => List.isChain_cons_cons.mpr ⟨?_, hopened⟩
    exact encloses_of_mem_nested production inner hinner
  | part hpart _ ih => exact ih hchain fun inner hinner => hnested inner (hpart hinner)

end Rejects

/-- A nested production that is rejected is open where matching stops. -/
theorem Reads.suffix_chain_of_nest {production : Production}
    (h : Reads room enclosing (.nest production) input (.rejected cause chain) rest) :
    production :: enclosing <:+ chain := by
  generalize ho : Outcome.rejected cause chain = outcome at h
  cases h with
  | tooDeep =>
    cases ho
    exact List.suffix_refl _
  | nest h =>
    obtain rfl := Outcome.map_eq_rejected_iff.mp ho.symm
    exact h.rejects.suffix

/-- The chain of a rejected production that is not inside another one. -/
theorem Reads.chain_of_nest {production : Production}
    (h : Reads room [] (.nest production) input (.rejected cause chain) rest) :
    chain.getLast? = some production ∧
    chain.IsChain (fun inner outer => outer.Encloses inner) ∧
    chain.length ≤ room + 1 ∧ (chain.length = room + 1 ↔ cause = .tooDeep) := by
  obtain ⟨inside, rfl⟩ := h.suffix_chain_of_nest
  obtain ⟨hdeep, hother⟩ := h.rejects.length
  rw [List.length_nil, Nat.zero_add] at hdeep hother
  have hpath := h.rejects.isChain List.isChain_nil fun inner hinner => by
    rw [List.mem_singleton.mp hinner]
    exact List.isChain_singleton _
  refine ⟨List.getLast?_concat, hpath, ?_, fun hlength => ?_, hdeep⟩
  · by_cases hcause : cause = .tooDeep
    · exact Nat.le_of_eq (hdeep hcause)
    · exact Nat.le_succ_of_le (hother hcause)
  · by_contra hcause
    have hless := hother hcause
    omega

/-! ## What an error tells of its chain -/

/-- The five statements. -/
def Production.statements : List Production :=
  [letStmt, ifStmt, whileStmt, doStmt, returnStmt]

/-- The names of the statements end alike, and no other name ends so. -/
theorem Production.isSuffixOf_name (production : Production) :
    "Stmt".toList.isSuffixOf production.name.toList =
      (statementProductions.map (·.2)).contains production := by
  cases production <;> decide

/-- They are the productions that keywords start in a list of statements. -/
theorem Production.contains_statements {production : Production} :
    (statementProductions.map (·.2)).contains production = true ↔ production ∈ statements := by
  rw [List.contains_iff_mem]
  rfl

namespace SyntaxError

variable {error : SyntaxError}

/-- Only an error of nesting starts as such an error does. -/
theorem head?_reason_ne (h : error.cause ≠ .tooDeep) : error.reason.toList.head? ≠ some 'N' := by
  obtain ⟨cause, index, token, rules⟩ := error
  cases cause with
  | expected what => simp [reason, toString]
  | expectedTerm => simp [reason, toString]
  | trailing => simp [reason]
  | tooDeep => exact absurd rfl h

theorem reason_eq_iff : error.reason = "Nesting too deep" ↔ error.cause = .tooDeep := by
  constructor
  · intro hreason
    by_contra hcause
    refine head?_reason_ne hcause ?_
    rw [hreason]
    rfl
  · intro hcause
    rw [reason, hcause]

/-- An error that has a chain tells the names in it. -/
theorem rules_report (h : error.rules ≠ []) :
    error.report.rules = error.rules.map Production.name := by
  simp [report, Report.rules, h]

/-- The statement is the innermost one of the chain. -/
theorem statement?_eq_some_iff {statement : Production} :
    error.statement? = some statement ↔
      statement ∈ Production.statements ∧
      ∃ outside inside, error.rules = outside ++ statement :: inside ∧
        ∀ production ∈ inside, production ∉ Production.statements := by
  simp only [statement?, List.find?_eq_some_iff_append, Production.contains_statements,
    Bool.not_eq_true', ← Bool.not_eq_true]
  refine and_congr Iff.rfl ⟨?_, ?_⟩
  · rintro ⟨inside, outside, hrules, hinside⟩
    rw [List.reverse_eq_append_iff, List.reverse_cons, List.append_assoc] at hrules
    exact ⟨outside.reverse, inside.reverse, hrules, by simpa using hinside⟩
  · rintro ⟨outside, inside, hrules, hinside⟩
    refine ⟨inside.reverse, outside.reverse, ?_, by simpa using hinside⟩
    rw [hrules, List.reverse_append, List.reverse_cons, List.append_assoc]
    rfl

theorem statement?_eq_none_iff :
    error.statement? = none ↔
      ∀ production ∈ error.rules, production ∉ Production.statements := by
  simp only [statement?, List.find?_eq_none, Production.contains_statements, List.mem_reverse]

/-- What is told is the name of the statement, though it is found by the names of the chain. -/
theorem statement?_report (h : error.rules ≠ []) :
    error.report.statement? = error.statement?.map Production.name := by
  rw [Report.statement?, rules_report h, ← List.map_reverse, List.find?_map, statement?]
  congr 2
  funext production
  exact production.isSuffixOf_name

end SyntaxError

/-! ## The chain of a unit -/

/-- **The chain of an error is a path of the grammar.** It starts with the unit and ends with the
production in which matching stopped; each production occurs on the right-hand side of the one
before it. It is never longer than 257, and has that length exactly when the productions nest too
deep. The statement that is told is the innermost one of the chain, and there is none to tell
exactly when there is none in the chain. -/
theorem chain_of_error_is_path {tokens : List Token} {error : SyntaxError}
    (h : Tree.ofTokens tokens = .error (.rejected error)) :
    (error.report.rules = error.rules.map Production.name ∧
      error.report.production = error.production.name) ∧
    error.rules.head? = some .unit ∧
    error.rules.getLast? = some error.production ∧
    error.rules.IsChain Production.Encloses ∧
    error.rules.length ≤ 257 ∧
    (error.rules.length = 257 ↔ error.report.reason = "Nesting too deep") ∧
    (∀ name, error.report.statement? = some name ↔
      ∃ statement ∈ Production.statements, statement.name = name ∧
        ∃ outside inside, error.rules = outside ++ statement :: inside ∧
          ∀ production ∈ inside, production ∉ Production.statements) ∧
    (error.report.statement? = none ↔
      ∀ production ∈ error.rules, production ∉ Production.statements) := by
  obtain ⟨chain, -, -, hrules, hread⟩ := reads_of_ofTokens_error h
  obtain ⟨hunit, hpath, hle, hlength⟩ := hread.chain_of_nest
  have hhead : error.rules.head? = some .unit := by rw [hrules, List.head?_reverse, hunit]
  have hne : error.rules ≠ [] := fun hnil => by
    rw [hnil] at hhead
    cases hhead
  refine ⟨⟨SyntaxError.rules_report hne, rfl⟩, hhead, ?_, ?_, ?_, ?_, fun name => ?_, ?_⟩
  · obtain ⟨last, hlast⟩ := Option.isSome_iff_exists.mp (List.getLast?_isSome.mpr hne)
    rw [SyntaxError.production, hlast, Option.getD_some]
  · rw [hrules, List.isChain_reverse]
    exact hpath
  · rwa [hrules, List.length_reverse]
  · rw [hrules, List.length_reverse, hlength]
    exact SyntaxError.reason_eq_iff.symm
  · rw [SyntaxError.statement?_report hne, Option.map_eq_some_iff]
    simp only [SyntaxError.statement?_eq_some_iff]
    constructor
    · rintro ⟨statement, ⟨hmem, hinnermost⟩, hname⟩
      exact ⟨statement, hmem, hname, hinnermost⟩
    · rintro ⟨statement, hmem, hname, hinnermost⟩
      exact ⟨statement, ⟨hmem, hinnermost⟩, hname⟩
  · rw [SyntaxError.statement?_report hne, Option.map_eq_none_iff]
    exact SyntaxError.statement?_eq_none_iff

/-- The words of `class A { function void f() { while (x) { let y = ; } } }`. -/
def wordsOfMissingTerm : List Word :=
  [⟨.keyword, "class"⟩, ⟨.identifier, "A"⟩, ⟨.symbol, "\x7b"⟩, ⟨.keyword, "function"⟩,
    ⟨.keyword, "void"⟩, ⟨.identifier, "f"⟩, ⟨.symbol, "("⟩, ⟨.symbol, ")"⟩, ⟨.symbol, "\x7b"⟩,
    ⟨.keyword, "while"⟩, ⟨.symbol, "("⟩, ⟨.identifier, "x"⟩, ⟨.symbol, ")"⟩, ⟨.symbol, "\x7b"⟩,
    ⟨.keyword, "let"⟩, ⟨.identifier, "y"⟩, ⟨.symbol, "="⟩, ⟨.symbol, ";"⟩, ⟨.symbol, "\x7d"⟩,
    ⟨.symbol, "\x7d"⟩, ⟨.symbol, "\x7d"⟩]

/-- The error at the semicolon. -/
def errorOfMissingTerm : SyntaxError where
  cause := .expectedTerm
  index := 17
  token := some ⟨.symbol, ";", {}⟩
  rules := [.unit, .subroutineDecl, .subroutineBody, .statementList, .whileStmt, .statementList,
    .letStmt, .expression, .term]

theorem chain_of_missing_term :
    Tree.ofTokens (wordsOfMissingTerm.map Word.token) = .error (.rejected errorOfMissingTerm) ∧
    errorOfMissingTerm.rules.IsChain Production.Encloses ∧
    errorOfMissingTerm.rules.length ≤ 257 ∧
    errorOfMissingTerm.report.statement? = some "letStmt" := by
  have h : Tree.ofTokens (wordsOfMissingTerm.map Word.token) =
      .error (.rejected errorOfMissingTerm) := by decide +kernel
  obtain ⟨-, -, -, hpath, hlength, -, hstatement, -⟩ := chain_of_error_is_path h
  refine ⟨h, hpath, hlength, (hstatement "letStmt").mpr ?_⟩
  exact ⟨.letStmt, by decide, rfl, errorOfMissingTerm.rules.take 6, [.expression, .term], rfl,
    by decide⟩

end JackSyntax
