import JackSyntax.Proofs.Parsing.Lockstep

/-!
# Errors stand at the first impossible token

Where matching stops, the tokens before can still be completed to a unit, and the token there cannot
follow them in any unit.

## The model

* `Rule.fruitful`: the rule derives something, when the productions in `known` do.
* `Rule.completable`: the second part of every sequence is fruitful, so a rejected first part can be
  completed.

## Results

* `Reads.viable`: what was passed before a rejection is the start of a derivation.
* **`error_at_first_impossible_token`**: a rejected unit is rejected there.
-/

namespace JackSyntax

open Ebnf Session

/-! ## Every production derives something -/

/-- A word of each terminal. -/
def Terminal.word : Terminal → Word
  | keyword text => ⟨.keyword, text⟩
  | symbol text => ⟨.symbol, text⟩
  | identifier => ⟨.identifier, "x"⟩
  | integerConstant => ⟨.integerConstant, "0"⟩
  | stringConstant => ⟨.stringConstant, ""⟩

theorem Terminal.terminal_word (t : Terminal) : t.word.terminal = t := by
  cases t <;> rfl

/-- The rule derives something, when the productions in `known` do. -/
def Rule.fruitful (known : Production → Bool) : Rule → Bool
  | empty | probe | finish | many _ _ => true
  | take expected => !expected.terminals.isEmpty
  | nest production => known production
  | seq a b => a.fruitful known && b.fruitful known
  | branch _ yes no => yes.fruitful known || no.fruitful known
  | refuse => false

/-- The production derives something of at most the given height. -/
def Production.fruitful : Nat → Production → Bool
  | 0, _ => false
  | height + 1, production => (Grammar.rule production).fruitful (fruitful height)

/-- Something is derived. -/
def Ebnf.Derivable (e : Ebnf) : Prop :=
  ∃ n w ts, Derives Grammar.matched e n w ts

theorem derivable_of_fruitful {known : Production → Bool} {rule : Rule}
    (hknown : ∀ production, known production = true → Derivable (.nonterminal production))
    (h : rule.fruitful known = true) : rule.ebnf.Derivable := by
  induction rule with
  | empty | probe | finish => exact ⟨0, [], [], .empty⟩
  | many => exact ⟨0, [], [], .done⟩
  | take expected =>
    cases ht : expected.terminals with
    | nil => simp [Rule.fruitful, ht] at h
    | cons t more =>
      have hmem : t.word.terminal ∈ expected.terminals := by
        rw [t.terminal_word, ht]
        exact List.mem_cons_self
      exact ⟨0, [t.word], [t.word.leaf], derives_take_iff.mpr ⟨t.word, hmem, rfl, rfl, rfl⟩⟩
  | nest production => exact hknown production h
  | seq a b iha ihb =>
    rw [Rule.fruitful, Bool.and_eq_true] at h
    obtain ⟨m, v, ts, ha⟩ := iha h.1
    obtain ⟨n, w, us, hb⟩ := ihb h.2
    exact ⟨max m n, v ++ w, ts ++ us, .seq ha hb⟩
  | branch next yes no ihyes ihno =>
    rw [Rule.fruitful, Bool.or_eq_true] at h
    rcases h with h | h
    · obtain ⟨n, w, ts, hd⟩ := ihyes h
      exact ⟨n, w, ts, .left hd⟩
    · obtain ⟨n, w, ts, hd⟩ := ihno h
      exact ⟨n, w, ts, .right hd⟩
  | refuse => cases h

theorem fruitful_all (production : Production) : production.fruitful 8 = true := by
  cases production <;> decide

/-- Every production derives something. -/
theorem derivable_nonterminal (production : Production) :
    Derivable (.nonterminal production) := by
  suffices h : ∀ height (production : Production), production.fruitful height = true →
      Derivable (.nonterminal production) from h 8 production (fruitful_all production)
  intro height
  induction height with
  | zero => intro production h; cases h
  | succ height ih =>
    intro production h
    obtain ⟨n, w, ts, hd⟩ := derivable_of_fruitful ih h
    exact ⟨n + 1, w, production.wrap ts, .nonterminal production hd⟩

theorem Rule.derivable {rule : Rule} (h : rule.fruitful (fun _ => true) = true) :
    rule.ebnf.Derivable :=
  derivable_of_fruitful (fun production _ => derivable_nonterminal production) h

/-! ## What was passed can be completed -/

/-- The second part of every sequence is fruitful. -/
def Rule.completable : Rule → Bool
  | seq a b => a.completable && b.completable && b.fruitful fun _ => true
  | branch _ yes no => yes.completable && no.completable
  | many _ item => item.completable
  | empty | take _ | nest _ | probe | refuse | finish => true

set_option maxRecDepth 4000 in
theorem completable_rule (production : Production) :
    (Grammar.rule production).completable = true := by
  cases production <;> decide

variable {room : Nat} {enclosing : List Production} {rule : Rule} {input rest : List Word}

/-- **What was passed before a rejection** is nothing, or the start of what the rule derives. -/
theorem Reads.viable {cause : SyntaxCause} {chain : List Production}
    (h : Reads room enclosing rule input (.rejected cause chain) rest)
    (hrule : rule.completable = true) :
    ∃ passed, input = passed ++ rest ∧
      (passed = [] ∨ ∃ n more ts, Derives Grammar.matched rule.ebnf n (passed ++ more) ts) := by
  generalize ho : Outcome.rejected cause chain = outcome at h
  induction h with
  | miss | tooDeep | refuse | trailing => exact ⟨[], rfl, .inl rfl⟩
  | @nest _ _ production _ _ _ _ ih =>
    obtain ⟨passed, hin, hpassed⟩ :=
      ih (completable_rule production) (Outcome.map_eq_rejected_iff.mp ho.symm).symm
    refine ⟨passed, hin, hpassed.imp_right fun ⟨n, more, ts, hd⟩ => ?_⟩
    exact ⟨n + 1, more, production.wrap ts, .nonterminal production hd⟩
  | seq first _ _ ih =>
    simp only [Rule.completable, Bool.and_eq_true] at hrule
    obtain ⟨m, v, -, rfl, hv⟩ := first.derives
    obtain ⟨w, rfl, hw⟩ := ih hrule.1.2 (Outcome.map_eq_rejected_iff.mp ho.symm).symm
    refine ⟨v ++ w, by rw [List.append_assoc], .inr ?_⟩
    rcases hw with rfl | ⟨n, more, us, hd⟩
    · obtain ⟨n, more, us, hd⟩ := Rule.derivable hrule.2
      exact ⟨_, more, _, by rw [List.append_nil]; exact .seq hv hd⟩
    · exact ⟨_, more, _, by rw [List.append_assoc]; exact .seq hv hd⟩
  | seqRejected _ ih =>
    simp only [Rule.completable, Bool.and_eq_true] at hrule
    obtain ⟨passed, hin, hpassed⟩ := ih hrule.1.1 ho
    refine ⟨passed, hin, hpassed.imp_right fun ⟨m, more, ts, hd⟩ => ?_⟩
    obtain ⟨n, last, us, hlast⟩ := Rule.derivable hrule.2
    exact ⟨_, more ++ last, _, by rw [← List.append_assoc]; exact .seq hd hlast⟩
  | yes _ _ ih =>
    rw [Rule.completable, Bool.and_eq_true] at hrule
    obtain ⟨passed, hin, hpassed⟩ := ih hrule.1 ho
    exact ⟨passed, hin, hpassed.imp_right fun ⟨n, more, ts, hd⟩ => ⟨n, more, ts, .left hd⟩⟩
  | no _ _ ih =>
    rw [Rule.completable, Bool.and_eq_true] at hrule
    obtain ⟨passed, hin, hpassed⟩ := ih hrule.2 ho
    exact ⟨passed, hin, hpassed.imp_right fun ⟨n, more, ts, hd⟩ => ⟨n, more, ts, .right hd⟩⟩
  | turn _ first _ _ ih =>
    obtain ⟨m, v, -, rfl, hv⟩ := first.derives
    obtain ⟨w, rfl, hw⟩ := ih hrule (Outcome.map_eq_rejected_iff.mp ho.symm).symm
    refine ⟨v ++ w, by rw [List.append_assoc], .inr ?_⟩
    rcases hw with rfl | ⟨n, more, us, hd⟩
    · exact ⟨_, [], _, by rw [List.append_nil]; exact .more hv .done⟩
    · exact ⟨_, more, _, by rw [List.append_assoc]; exact .more hv hd⟩
  | turnRejected _ _ ih =>
    obtain ⟨passed, hin, hpassed⟩ := ih hrule ho
    refine ⟨passed, hin, hpassed.imp_right fun ⟨n, more, ts, hd⟩ => ?_⟩
    exact ⟨_, more ++ [], _, by rw [← List.append_assoc]; exact .more hd .done⟩
  | _ => cases ho

/-! ## Errors of a unit -/

/-- What an error of a unit tells, and how its tokens were read. -/
theorem reads_of_ofTokens_error {tokens : List Token} {error : SyntaxError}
    (h : Tree.ofTokens tokens = .error (.rejected error)) :
    ∃ chain, error.index ≤ tokens.length ∧ error.token = tokens[error.index]? ∧
      error.rules = chain.reverse ∧
      Reads 256 [] (.nest .unit) (tokens.map Token.word) (.rejected error.cause chain)
        ((tokens.drop error.index).map Token.word) := by
  obtain ⟨after, h⟩ := Tree.ofTokens_eq_error_iff.mp h
  obtain ⟨passed, cause, chain, hpass, herror, hread⟩ := reads_of_parse_error h
  obtain rfl := Failure.rejected.inj herror
  have hindex : after.cursor.taken = passed.length := hpass.taken.trans (Nat.zero_add _)
  have hwords := hpass.words
  rw [words_ofList] at hwords hread
  have hrest : after.words = (tokens.drop passed.length).map Token.word := by
    rw [List.map_drop, hwords, List.drop_left' rfl]
  have hlength : passed.length ≤ tokens.length := by
    rw [← tokens.length_map Token.word, hwords, List.length_append]
    exact Nat.le_add_right _ _
  refine ⟨chain, ?_, ?_, rfl, ?_⟩
  · rwa [hindex]
  · simp only [Cursor.peek, hpass.tokens, hindex]
    exact List.getElem?_toArray
  · rwa [hindex, ← hrest]

/-- A derivation of a unit that starts like the input, up to the word where the input was rejected,
would have been rejected there too. -/
theorem not_derives_of_reads_rejected {cause : SyntaxCause} {chain : List Production}
    {passed : List Word} {word : Word} {rest : List Word}
    (h : Reads room enclosing (.nest .unit) (passed ++ word :: rest) (.rejected cause chain)
      (word :: rest))
    (hdeep : cause ≠ .tooDeep) {height : Nat} {more : List Word} {trees : List Tree} :
    ¬ Derives Grammar.published (.nonterminal .unit) height (passed ++ word :: more) trees := by
  intro hd
  have hnext : lookahead (word :: more) = lookahead (word :: rest) := rfl
  obtain ⟨outcome, hread, -⟩ := h.lockstep (Nat.le_max_left room height)
    (fun _ chain hchain => hdeep (by cases hchain; rfl)) rfl rfl hnext
  have hend := hread.deterministic (.of_derives_unit hd (Nat.le_max_right room height))
  cases hend.2

/-- **The first impossible token.** A unit that is rejected is rejected at a token of the list or at
its end. The tokens before start a unit, however deep it nests. Unless the productions nest too
deep, no unit starts with them and the token itself. -/
theorem error_at_first_impossible_token {tokens : List Token} {error : SyntaxError}
    (h : Tree.ofTokens tokens = .error (.rejected error)) :
    error.index ≤ tokens.length ∧
    error.token = tokens[error.index]? ∧
    (error.token = none ↔ error.index = tokens.length) ∧
    (∃ more height tree, Derives Grammar.published (.nonterminal .unit) height
      ((tokens.take error.index).map Token.word ++ more) [tree]) ∧
    (error.reason ≠ "Nesting too deep" → error.index < tokens.length →
      ∀ more height trees, ¬ Derives Grammar.published (.nonterminal .unit) height
        ((tokens.take (error.index + 1)).map Token.word ++ more) trees) := by
  obtain ⟨chain, hle, htoken, -, hread⟩ := reads_of_ofTokens_error h
  have hwords : tokens.map Token.word = (tokens.take error.index).map Token.word ++
      (tokens.drop error.index).map Token.word := by
    rw [← List.map_append, List.take_append_drop]
  rw [hwords] at hread
  refine ⟨hle, htoken, ?_, ?_, ?_⟩
  · rw [htoken, List.getElem?_eq_none_iff]
    omega
  · obtain ⟨passed, hin, hpassed⟩ := hread.viable rfl
    obtain rfl := List.append_cancel_right hin
    suffices hd : ∃ height more trees, Derives Grammar.matched (.nonterminal .unit) height
        ((tokens.take error.index).map Token.word ++ more) trees by
      obtain ⟨height, more, trees, hd⟩ := hd
      have hd := (Grammar.published_derives_nonterminal_iff (by decide)).mpr hd
      obtain ⟨tree, rfl⟩ := hd.unit_trees
      exact ⟨more, height, tree, hd⟩
    rcases hpassed with hnil | hd
    · rw [hnil]
      exact derivable_nonterminal .unit
    · exact hd
  · intro hreason hless more height trees hd
    have hdeep : error.cause ≠ .tooDeep := fun hcause =>
      hreason (by rw [SyntaxError.reason, hcause])
    rw [List.take_succ_eq_append_getElem hless, List.map_append, List.append_assoc] at hd
    rw [List.drop_eq_getElem_cons hless, List.map_cons] at hread
    exact not_derives_of_reads_rejected hread hdeep hd

/-- The fields of a class without the name of the first. -/
theorem nameless_field_is_impossible :
    Tree.ofTokens (fieldsOfA.eraseIdx 5) = .error (.rejected
      ⟨.expected .identifier, 5, some ⟨.symbol, ",", ⟨1, 22⟩⟩, [.unit, .fieldDecl]⟩) ∧
    5 < (fieldsOfA.eraseIdx 5).length ∧
    ∀ more height trees, ¬ Derives Grammar.published (.nonterminal .unit) height
      (((fieldsOfA.eraseIdx 5).take 6).map Token.word ++ more) trees := by
  have h : Tree.ofTokens (fieldsOfA.eraseIdx 5) = .error (.rejected
      ⟨.expected .identifier, 5, some ⟨.symbol, ",", ⟨1, 22⟩⟩, [.unit, .fieldDecl]⟩) := by
    decide +kernel
  obtain ⟨-, -, -, -, himpossible⟩ := error_at_first_impossible_token h
  exact ⟨h, by decide, himpossible (by decide) (by decide)⟩

end JackSyntax
