import JackSyntax.Proofs.Parsing.Ending
import JackSyntax.Proofs.Parsing.Lockstep

/-!
# Two runs of a production

A run of a production depends on the terminals that it passes and on the next one. What stands
behind the cursor, what comes further on, where the cursor stands, and whether a token may be
returned have no influence; nor have the texts of names and constants, except that the tree shows
them.

## The model

* `Token.SameForm`: tokens of one kind, with one text if they are keywords or symbols.

## Results

* `Session.alike_runs`: two sessions that agree in the terminals up to the next one.
* **`one_token_of_lookahead`**: when they agree in the words, they end in the same way.
* **`names_are_ignored`**: when all tokens have the same form, either both lists are a unit, with
  trees that differ in free texts only, or both are rejected at the same place.
-/

namespace JackSyntax

open Session

/-! ## Inputs that agree up to the next terminal -/

/-- What agrees in one element more agrees so far, and in the next element or in having none. -/
theorem take_and_getElem?_of_take_succ {α : Type} {xs ys : List α} {n : Nat}
    (h : xs.take (n + 1) = ys.take (n + 1)) : xs.take n = ys.take n ∧ xs[n]? = ys[n]? := by
  constructor
  · have hshort := congrArg (List.take n) h
    rwa [List.take_take, List.take_take, Nat.min_eq_left (Nat.le_succ n)] at hshort
  · have hnext := congrArg (·[n]?) h
    simpa only [List.getElem?_take_of_lt (Nat.lt_succ_self n)] using hnext

/-- What agrees in one terminal more than was passed is cut in the same place. -/
theorem exists_split_of_agree {words words' passed rest : List Word}
    (hwords : words = passed ++ rest)
    (hagree : (words'.take (passed.length + 1)).map Word.terminal =
      (words.take (passed.length + 1)).map Word.terminal) :
    ∃ rest', words' = words'.take passed.length ++ rest' ∧
      (words'.take passed.length).map Word.terminal = passed.map Word.terminal ∧
      lookahead rest' = lookahead rest := by
  rw [List.map_take, List.map_take] at hagree
  obtain ⟨hsame, hnext⟩ := take_and_getElem?_of_take_succ hagree
  refine ⟨words'.drop passed.length, (List.take_append_drop _ _).symm, ?_, ?_⟩
  · rwa [← List.map_take, ← List.map_take, hwords, List.take_left' rfl] at hsame
  · rw [List.getElem?_map, List.getElem?_map] at hnext
    unfold lookahead
    rw [List.head?_drop, hnext, hwords, List.getElem?_append_right (Nat.le_refl _), Nat.sub_self,
      List.head?_eq_getElem?]

/-- **Two sessions that agree in the terminals** that a production passes in the first of them, and
in the next one, match it with the same outcome up to the free texts. -/
theorem Session.alike_runs {production : Production} {first second after : Session}
    {outcome : Outcome} {passed : List Word} (henclosing : second.enclosing = first.enclosing)
    (hread : Reads first.room first.enclosing (.nest production) first.words outcome after.words)
    (hpass : first.Passes passed after)
    (hagree : (second.words.take (passed.length + 1)).map Word.terminal =
      (first.words.take (passed.length + 1)).map Word.terminal) :
    ∃ outcome' passed' last, nested second.room production second = outcome'.result last ∧
      Reads second.room second.enclosing (.nest production) second.words outcome' last.words ∧
      second.Passes passed' last ∧ passed' = second.words.take passed.length ∧
      passed'.length = passed.length ∧
      outcome'.map Tree.eraseAll = outcome.map Tree.eraseAll := by
  obtain ⟨rest', hcut, hsame, hnext⟩ := exists_split_of_agree hpass.words hagree
  have hroom : second.room = first.room := by rw [room, room, henclosing]
  obtain ⟨outcome', hread', hsimilar⟩ := hread.lockstep (Nat.le_refl _)
    (fun h => absurd h (Nat.lt_irrefl _)) hpass.words hsame hnext
  rw [← hcut, ← hroom, ← henclosing] at hread'
  obtain ⟨_, passed', last, hrun, hread'', hpass'⟩ := nested_answers second.room production second
  obtain ⟨rfl, hrest⟩ := hread''.deterministic hread'
  have hpassed : passed' = second.words.take passed.length :=
    List.append_cancel_right (hpass'.words.symm.trans (hrest.symm ▸ hcut))
  refine ⟨_, passed', last, hrun, hread'', hpass', hpassed, ?_, hsimilar⟩
  rw [hpassed, ← List.length_map Word.terminal, hsame, List.length_map]

/-! ## One token of lookahead -/

/-- The leaves of what was matched are the words that were passed. -/
theorem Reads.leavesAll {room : Nat} {enclosing : List Production} {rule : Rule}
    {passed rest : List Word} {trees : List Tree}
    (h : Reads room enclosing rule (passed ++ rest) (.matched trees) rest) :
    Tree.leavesAll trees = passed.map Word.shown := by
  obtain ⟨height, words, -, hwords, hderives⟩ := h.derives
  obtain rfl := List.append_cancel_right hwords
  exact hderives.leavesAll

/-- Outcomes that are alike are equal when the same words were passed: they are the leaves. -/
theorem Reads.outcome_eq {room room' : Nat} {enclosing enclosing' : List Production}
    {rule rule' : Rule} {passed rest rest' : List Word} {outcome outcome' : Outcome}
    (h : Reads room enclosing rule (passed ++ rest) outcome rest)
    (h' : Reads room' enclosing' rule' (passed ++ rest') outcome' rest')
    (hsimilar : outcome'.map Tree.eraseAll = outcome.map Tree.eraseAll) : outcome' = outcome := by
  cases outcome with
  | matched trees =>
    obtain ⟨trees', rfl, herase⟩ := Outcome.map_eq_matched_iff.mp hsimilar
    have hleaves : Tree.leavesAll trees' = Tree.leavesAll trees := by
      rw [h.leavesAll, h'.leavesAll]
    rw [Tree.eq_of_eraseAll_of_leavesAll herase hleaves]
  | rejected cause chain => exact Outcome.map_eq_rejected_iff.mp hsimilar

/-- **Two sessions that agree in the words** that a production passes in the first of them, and in
the next one, match it with the same outcome and pass the same words. -/
theorem Session.same_runs {production : Production} {first second after : Session}
    {outcome : Outcome} {passed : List Word} (henclosing : second.enclosing = first.enclosing)
    (hread : Reads first.room first.enclosing (.nest production) first.words outcome after.words)
    (hpass : first.Passes passed after)
    (hagree : second.words.take (passed.length + 1) = first.words.take (passed.length + 1)) :
    ∃ last, nested second.room production second = outcome.result last ∧
      second.Passes passed last := by
  obtain ⟨outcome', passed', last, hrun, hread', hpass', hpassed, -, hsimilar⟩ :=
    alike_runs henclosing hread hpass (congrArg (List.map Word.terminal) hagree)
  have hsame := (take_and_getElem?_of_take_succ hagree).1
  rw [← hpassed, hpass.words, List.take_left' rfl] at hsame
  subst hsame
  rw [hpass.words] at hread
  rw [hpass'.words] at hread'
  obtain rfl := hread.outcome_eq hread' hsimilar
  exact ⟨last, hrun, hpass'⟩

/-- The cursors of two sessions that pass the same words keep their distance. -/
theorem Session.Passes.position_eq {first second after last : Session} {passed : List Word}
    (h : first.Passes passed after) (h' : second.Passes passed last) :
    last.cursor.position =
      after.cursor.position + (second.cursor.position - first.cursor.position) := by
  have htaken := h.taken
  have htaken' := h'.taken
  unfold Cursor.position
  omega

theorem Session.getElem?_words (session : Session) (index : Nat) :
    session.words[index]? = session.cursor.remaining[index]?.map Token.word :=
  List.getElem?_map

/-- **One token of lookahead, and nothing behind.** Let a production end, by matching or by an
error, `count` tokens further on. Then it ends in the same way wherever these words and the next one
stand in front of a cursor (or the same words up to the end): with the same node, or with an error
for the same cause, in the same productions, at the same word, and with the cursor as many tokens
further on. What was passed before, what comes behind the next token, and whether a token may be
returned have no influence. Where the tokens agree in their places too, the error tells the same
token. -/
theorem one_token_of_lookahead {production : Production} {first second after : Session}
    {count : Nat} (henclosing : second.enclosing = first.enclosing)
    (hcount : after.cursor.taken = first.cursor.taken + count)
    (hagree : second.words.take (count + 1) = first.words.take (count + 1)) :
    (∀ tree, parse production first = .ok tree after →
      ∃ last, parse production second = .ok tree last ∧
        last.cursor.position =
          after.cursor.position + (second.cursor.position - first.cursor.position)) ∧
    ∀ failure, parse production first = .error failure after →
      ∃ error error' last, failure = .rejected error ∧
        parse production second = .error (.rejected error') last ∧
        last.cursor.position =
          after.cursor.position + (second.cursor.position - first.cursor.position) ∧
        error'.cause = error.cause ∧ error'.production = error.production ∧
        error'.rules = error.rules ∧
        (error'.index : Int) =
          error.index + (second.cursor.position - first.cursor.position) ∧
        error'.token.map Token.word = error.token.map Token.word ∧
        (second.cursor.remaining.take (count + 1) = first.cursor.remaining.take (count + 1) →
          error'.token = error.token) := by
  have hlength : ∀ {passed}, first.Passes passed after → passed.length = count := fun hpass =>
    Nat.add_left_cancel (hpass.taken.symm.trans hcount)
  refine ⟨fun tree htree => ?_, fun failure hfailure => ?_⟩
  · obtain ⟨children, rfl, hnested⟩ := parse_eq_ok_iff_wrap.mp htree
    obtain ⟨passed, hpass, hread⟩ := reads_of_nested_ok hnested
    obtain rfl := hlength hpass
    obtain ⟨last, hrun, hpass'⟩ := same_runs henclosing hread hpass hagree
    exact ⟨last, parse_eq_ok_iff_wrap.mpr ⟨children, rfl, hrun⟩, hpass.position_eq hpass'⟩
  · obtain ⟨passed, cause, chain, hpass, rfl, hread⟩ := reads_of_parse_error hfailure
    obtain rfl := hlength hpass
    obtain ⟨last, hrun, hpass'⟩ := same_runs henclosing hread hpass hagree
    have hposition := hpass.position_eq hpass'
    refine ⟨_, _, last, rfl, parse_eq_error_iff.mpr hrun, hposition, rfl, rfl, rfl, ?_, ?_,
      fun htokens => ?_⟩
    · unfold Cursor.position at hposition ⊢
      simp only
      omega
    · have hnext := (take_and_getElem?_of_take_succ hagree).2
      rw [getElem?_words, getElem?_words] at hnext
      rw [hpass.peek_eq, hpass'.peek_eq, hnext]
    · have hnext := (take_and_getElem?_of_take_succ htokens).2
      rw [hpass.peek_eq, hpass'.peek_eq, hnext]

/-- The fields of a class are matched from the fourth token on, and in the same way at the start of
another list, where a token may be returned; with the name of the first field missing they are
rejected in the same way. -/
theorem fields_are_matched_anywhere :
    (Session.parse .fieldDecl ⟨⟨fieldsOfA.toArray, 3, false⟩, []⟩ =
        .ok memberOfA ⟨⟨fieldsOfA.toArray, 9, true⟩, []⟩ ∧
      ∃ last, Session.parse .fieldDecl ⟨⟨(fieldsOfA.drop 3).toArray, 0, true⟩, []⟩ =
        .ok memberOfA last ∧ last.cursor.position = 5) ∧
    ∃ error error' last, Session.parse .fieldDecl ⟨⟨(fieldsOfA.eraseIdx 5).toArray, 3, false⟩, []⟩ =
        .error (.rejected error) ⟨⟨(fieldsOfA.eraseIdx 5).toArray, 5, true⟩, []⟩ ∧
      Session.parse .fieldDecl ⟨⟨((fieldsOfA.eraseIdx 5).drop 3).toArray, 0, true⟩, []⟩ =
        .error (.rejected error') last ∧
      last.cursor.position = 1 ∧ error'.rules = error.rules ∧
      (error'.index : Int) = error.index - 3 ∧ error'.token = error.token := by
  have hmatched : Session.parse .fieldDecl ⟨⟨fieldsOfA.toArray, 3, false⟩, []⟩ =
      .ok memberOfA ⟨⟨fieldsOfA.toArray, 9, true⟩, []⟩ :=
    Session.parse_eq_ok_of_same rfl (by decide +kernel) (by decide +kernel)
  have hrejected : Session.parse .fieldDecl ⟨⟨(fieldsOfA.eraseIdx 5).toArray, 3, false⟩, []⟩ =
      .error (.rejected ⟨.expected .identifier, 5, some ⟨.symbol, ",", ⟨1, 22⟩⟩, [.fieldDecl]⟩)
        ⟨⟨(fieldsOfA.eraseIdx 5).toArray, 5, true⟩, []⟩ := by decide +kernel
  have hfields : (Session.words ⟨⟨(fieldsOfA.drop 3).toArray, 0, true⟩, []⟩).take (6 + 1) =
    (Session.words ⟨⟨fieldsOfA.toArray, 3, false⟩, []⟩).take (6 + 1) := rfl
  have hnameless :
      (Cursor.remaining ⟨((fieldsOfA.eraseIdx 5).drop 3).toArray, 0, true⟩).take (2 + 1) =
      (Cursor.remaining ⟨(fieldsOfA.eraseIdx 5).toArray, 3, false⟩).take (2 + 1) := rfl
  have hwords :
      (Session.words ⟨⟨((fieldsOfA.eraseIdx 5).drop 3).toArray, 0, true⟩, []⟩).take (2 + 1) =
      (Session.words ⟨⟨(fieldsOfA.eraseIdx 5).toArray, 3, false⟩, []⟩).take (2 + 1) :=
    congrArg (List.map Token.word) hnameless
  constructor
  · obtain ⟨last, hlast, hposition⟩ :=
      (one_token_of_lookahead (by rfl) (by rfl) hfields).1 _ hmatched
    exact ⟨hmatched, last, hlast, hposition⟩
  · obtain ⟨error, error', last, herror, hlast, hposition, -, -, hrules, hindex, -, htoken⟩ :=
      (one_token_of_lookahead (by rfl) (by rfl) hwords).2 _ hrejected
    obtain rfl := Failure.rejected.inj herror
    exact ⟨_, error', last, hrejected, hlast, hposition, hrules, hindex, htoken hnameless⟩

/-! ## Names, values and places -/

/-- Tokens of one kind, with one text if they are keywords or symbols. -/
def Token.SameForm (first second : Token) : Prop :=
  first.kind = second.kind ∧
    (first.kind = .keyword ∨ first.kind = .symbol → first.text = second.text)

theorem Token.sameForm_iff {first second : Token} :
    first.SameForm second ↔ first.word.terminal = second.word.terminal := by
  obtain ⟨kind, text, place⟩ := first
  obtain ⟨kind', text', place'⟩ := second
  cases kind <;> cases kind' <;> simp [SameForm, word, Word.terminal]

/-- **Names, values and places are ignored.** When two lists of tokens have the same forms, either
both are a unit, with trees that differ in the texts of names and constants only, or both are
rejected for the same cause, at the same index, in the same productions and the same statement. -/
theorem names_are_ignored {first second : List Token}
    (h : List.Forall₂ Token.SameForm first second) :
    (∃ tree tree', Tree.ofTokens first = .ok tree ∧ Tree.ofTokens second = .ok tree' ∧
      tree'.erase = tree.erase) ∨
    ∃ error error', Tree.ofTokens first = .error (.rejected error) ∧
      Tree.ofTokens second = .error (.rejected error') ∧ error'.cause = error.cause ∧
      error'.index = error.index ∧ error'.report.production = error.report.production ∧
      error'.report.rules = error.report.rules ∧
      error'.report.statement? = error.report.statement? := by
  have hterminals : (second.map Token.word).map Word.terminal =
      (first.map Token.word).map Word.terminal := by
    induction h with
    | nil => rfl
    | cons hform _ ih =>
      simp only [List.map_cons, ih, Token.sameForm_iff.mp hform]
  have henclosing : (Session.ofList second).enclosing = (Session.ofList first).enclosing := rfl
  obtain ⟨outcome, passed, after, hrun, hread, hpass⟩ :=
    nested_answers (Session.ofList first).room .unit (Session.ofList first)
  have hagree : ((Session.ofList second).words.take (passed.length + 1)).map Word.terminal =
      ((Session.ofList first).words.take (passed.length + 1)).map Word.terminal := by
    rw [words_ofList, words_ofList, List.map_take, List.map_take, hterminals]
  obtain ⟨outcome', passed', last, hrun', -, hpass', -, hlength, hsimilar⟩ :=
    alike_runs henclosing hread hpass hagree
  cases outcome with
  | matched trees =>
    obtain ⟨trees', rfl, herase⟩ := Outcome.map_eq_matched_iff.mp hsimilar
    obtain ⟨children, rfl⟩ := exists_wrap_of_nested hrun
    obtain ⟨children', rfl⟩ := exists_wrap_of_nested hrun'
    refine .inl ⟨_, _, Tree.ofTokens_eq_ok_iff.mpr ⟨after, parse_eq_ok_iff_wrap.mpr ⟨_, rfl, hrun⟩⟩,
      Tree.ofTokens_eq_ok_iff.mpr ⟨last, parse_eq_ok_iff_wrap.mpr ⟨_, rfl, hrun'⟩⟩, ?_⟩
    exact (List.cons.inj herase).1
  | rejected cause chain =>
    obtain rfl := Outcome.map_eq_rejected_iff.mp hsimilar
    refine .inr ⟨_, _, Tree.ofTokens_eq_error_iff.mpr ⟨after, parse_eq_error_iff.mpr hrun⟩,
      Tree.ofTokens_eq_error_iff.mpr ⟨last, parse_eq_error_iff.mpr hrun'⟩, rfl, ?_, rfl, rfl, rfl⟩
    have htaken := hpass.taken
    have htaken' := hpass'.taken
    exact htaken'.trans ((congrArg (0 + ·) hlength).trans htaken.symm)

/-- The tokens of `class A { field int x, y; }` with other names, at no place. The names are spelled
like words and marks of the grammar. -/
def fieldsRenamed : List Token :=
  [⟨.keyword, "class", {}⟩, ⟨.identifier, "else", {}⟩, ⟨.symbol, "\x7b", {}⟩,
    ⟨.keyword, "field", {}⟩, ⟨.keyword, "int", {}⟩, ⟨.identifier, "(", {}⟩, ⟨.symbol, ",", {}⟩,
    ⟨.identifier, "int", {}⟩, ⟨.symbol, ";", {}⟩, ⟨.symbol, "\x7d", {}⟩]

/-- The class is matched under other names as well; without the name of the first field both lists
are rejected at the same index. -/
theorem names_of_fields_are_ignored :
    (List.Forall₂ Token.SameForm fieldsOfA fieldsRenamed ∧ Tree.ofTokens fieldsOfA = .ok treeOfA ∧
      ∃ tree', Tree.ofTokens fieldsRenamed = .ok tree' ∧ tree'.erase = treeOfA.erase) ∧
    List.Forall₂ Token.SameForm (fieldsOfA.eraseIdx 5) (fieldsRenamed.eraseIdx 5) ∧
      ∃ error', Tree.ofTokens (fieldsRenamed.eraseIdx 5) = .error (.rejected error') ∧
        error'.cause = .expected .identifier ∧ error'.index = 5 ∧
        error'.report.production = "fieldDecl" ∧ error'.report.rules = ["unit", "fieldDecl"] ∧
        error'.report.statement? = none := by
  have hmatched : Tree.ofTokens fieldsOfA = .ok treeOfA :=
    ofTokens_of_derives fieldsOfA_derived (by decide)
  have hrejected : Tree.ofTokens (fieldsOfA.eraseIdx 5) = .error (.rejected
      ⟨.expected .identifier, 5, some ⟨.symbol, ",", ⟨1, 22⟩⟩, [.unit, .fieldDecl]⟩) := by
    decide +kernel
  have hforms : List.Forall₂ Token.SameForm fieldsOfA fieldsRenamed := by
    simp [fieldsOfA, fieldsRenamed, Token.SameForm]
  have hforms' : List.Forall₂ Token.SameForm (fieldsOfA.eraseIdx 5) (fieldsRenamed.eraseIdx 5) := by
    simp [fieldsOfA, fieldsRenamed, Token.SameForm]
  refine ⟨⟨hforms, hmatched, ?_⟩, hforms', ?_⟩
  · rcases names_are_ignored hforms with ⟨tree, tree', h, h', herase⟩ | ⟨error, error', h, -⟩
    · obtain rfl := Except.ok.inj (hmatched.symm.trans h)
      exact ⟨tree', h', herase⟩
    · cases hmatched.symm.trans h
  · rcases names_are_ignored hforms' with
      ⟨tree, tree', h, -⟩ | ⟨error, error', h, h', hcause, hindex, hproduction, hrules, hstatement⟩
    · cases hrejected.symm.trans h
    · obtain rfl := Failure.rejected.inj (Except.error.inj (hrejected.symm.trans h))
      refine ⟨error', h', hcause, hindex, hproduction, hrules, hstatement.trans ?_⟩
      decide

end JackSyntax
