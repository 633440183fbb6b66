import JackSyntax.Proofs.Grammar.Lookahead

/-!
# Reading a word list by a rule

Matching as a relation on word lists, without cursor and session. `Reads room enclosing rule input
outcome rest` holds when matching `rule` on `input` ends with `outcome` before `rest`; `enclosing`
lists the open productions, innermost first, and `room` more may be opened.

## Results

* **`Reads.deterministic`**: rule and input determine outcome and rest.
* `Reads.suffix`: what is left is a suffix of the input.
* **`Reads.derives`**: what was matched is derived, by a derivation no higher than the room, and the
  trees are those of the derivation.
* **`Reads.of_derives`**: a derivation that is no higher than the room is matched when the rule is
  predictive before what comes next.
* **`Reads.tooDeep_of_derives`**: one that is higher is rejected as too deep.
-/

namespace JackSyntax

open Ebnf

/-- How matching ends: with trees, or at a token that cannot stand there. -/
inductive Outcome where
  | matched (trees : List Tree)
  | rejected (cause : SyntaxCause) (enclosing : List Production)

/-- The outcome with other trees. -/
def Outcome.map (f : List Tree → List Tree) : Outcome → Outcome
  | matched trees => matched (f trees)
  | rejected cause enclosing => rejected cause enclosing

theorem Outcome.map_eq_matched_iff {f : List Tree → List Tree} {outcome : Outcome}
    {trees : List Tree} :
    outcome.map f = .matched trees ↔ ∃ us, outcome = .matched us ∧ f us = trees := by
  cases outcome <;> simp [map]

theorem Outcome.map_eq_rejected_iff {f : List Tree → List Tree} {outcome : Outcome}
    {cause : SyntaxCause} {enclosing : List Production} :
    outcome.map f = .rejected cause enclosing ↔ outcome = .rejected cause enclosing := by
  cases outcome <;> simp [map]

/-- **Matching as a relation.** -/
inductive Reads :
    Nat → List Production → Rule → List Word → Outcome → List Word → Prop
  | empty {room enclosing input} : Reads room enclosing .empty input (.matched []) input
  | probe {room enclosing input} : Reads room enclosing .probe input (.matched []) input
  | take {room enclosing expected} {word : Word} {rest}
      (h : expected.admits (some word.terminal) = true) :
      Reads room enclosing (.take expected) (word :: rest) (.matched [word.leaf]) rest
  | miss {room enclosing expected input} (h : expected.admits (lookahead input) = false) :
      Reads room enclosing (.take expected) input (.rejected (.expected expected) enclosing) input
  | tooDeep {enclosing production input} :
      Reads 0 enclosing (.nest production) input (.rejected .tooDeep (production :: enclosing))
        input
  | nest {room enclosing production input outcome rest}
      (h : Reads room (production :: enclosing) (Grammar.rule production) input outcome rest) :
      Reads (room + 1) enclosing (.nest production) input (outcome.map production.wrap) rest
  | seq {room enclosing a b input trees middle outcome rest}
      (first : Reads room enclosing a input (.matched trees) middle)
      (second : Reads room enclosing b middle outcome rest) :
      Reads room enclosing (.seq a b) input (outcome.map (trees ++ ·)) rest
  | seqRejected {room enclosing a b input cause chain rest}
      (first : Reads room enclosing a input (.rejected cause chain) rest) :
      Reads room enclosing (.seq a b) input (.rejected cause chain) rest
  | yes {room enclosing next yes no input outcome rest}
      (hnext : next.admits (lookahead input) = true)
      (h : Reads room enclosing yes input outcome rest) :
      Reads room enclosing (.branch next yes no) input outcome rest
  | no {room enclosing next yes no input outcome rest}
      (hnext : next.admits (lookahead input) = false)
      (h : Reads room enclosing no input outcome rest) :
      Reads room enclosing (.branch next yes no) input outcome rest
  | stop {room enclosing next item input} (hnext : next.admits (lookahead input) = false) :
      Reads room enclosing (.many next item) input (.matched []) input
  | turn {room enclosing next item input trees middle outcome rest}
      (hnext : next.admits (lookahead input) = true)
      (first : Reads room enclosing item input (.matched trees) middle)
      (more : Reads room enclosing (.many next item) middle outcome rest) :
      Reads room enclosing (.many next item) input (outcome.map (trees ++ ·)) rest
  | turnRejected {room enclosing next item input cause chain rest}
      (hnext : next.admits (lookahead input) = true)
      (first : Reads room enclosing item input (.rejected cause chain) rest) :
      Reads room enclosing (.many next item) input (.rejected cause chain) rest
  | refuse {room enclosing input} :
      Reads room enclosing .refuse input (.rejected .expectedTerm enclosing) input
  | finish {room enclosing} : Reads room enclosing .finish [] (.matched []) []
  | trailing {room enclosing word rest} :
      Reads room enclosing .finish (word :: rest) (.rejected .trailing enclosing) (word :: rest)

variable {room : Nat} {enclosing : List Production} {rule : Rule} {input rest : List Word}
  {outcome : Outcome} {trees : List Tree}

namespace Reads

/-- What is left is a suffix of the input. -/
theorem suffix (h : Reads room enclosing rule input outcome rest) : rest <:+ input := by
  induction h with
  | take => exact List.suffix_cons _ _
  | nest _ ih | seqRejected _ ih | yes _ _ ih | no _ _ ih | turnRejected _ _ ih => exact ih
  | seq _ _ ihfirst ihsecond | turn _ _ _ ihfirst ihsecond => exact ihsecond.trans ihfirst
  | _ => exact List.suffix_refl _

/-- **Rule and input determine outcome and rest.** -/
theorem deterministic (h : Reads room enclosing rule input outcome rest) :
    ∀ {outcome' rest'}, Reads room enclosing rule input outcome' rest' →
      outcome = outcome' ∧ rest = rest' := by
  induction h with
  | empty | probe | tooDeep | refuse | finish | trailing =>
    intro _ _ h'
    cases h'
    exact ⟨rfl, rfl⟩
  | take h =>
    intro _ _ h'
    cases h' with
    | take => exact ⟨rfl, rfl⟩
    | miss hmiss => cases h.symm.trans hmiss
  | miss hmiss =>
    intro _ _ h'
    cases h' with
    | take h => cases h.symm.trans hmiss
    | miss => exact ⟨rfl, rfl⟩
  | nest _ ih =>
    intro _ _ h'
    cases h' with
    | nest h =>
      obtain ⟨rfl, rfl⟩ := ih h
      exact ⟨rfl, rfl⟩
  | seq _ _ ihfirst ihsecond =>
    intro _ _ h'
    cases h' with
    | seq first second =>
      obtain ⟨heq, rfl⟩ := ihfirst first
      cases heq
      obtain ⟨rfl, rfl⟩ := ihsecond second
      exact ⟨rfl, rfl⟩
    | seqRejected first => cases (ihfirst first).1
  | seqRejected _ ih =>
    intro _ _ h'
    cases h' with
    | seq first => cases (ih first).1
    | seqRejected first => exact ih first
  | yes hnext _ ih =>
    intro _ _ h'
    cases h' with
    | yes _ h => exact ih h
    | no hnext' => cases hnext.symm.trans hnext'
  | no hnext _ ih =>
    intro _ _ h'
    cases h' with
    | yes hnext' => cases hnext'.symm.trans hnext
    | no _ h => exact ih h
  | stop hnext =>
    intro _ _ h'
    cases h' with
    | stop => exact ⟨rfl, rfl⟩
    | turn hnext' => cases hnext'.symm.trans hnext
    | turnRejected hnext' => cases hnext'.symm.trans hnext
  | turn hnext _ _ ihfirst ihmore =>
    intro _ _ h'
    cases h' with
    | stop hnext' => cases hnext.symm.trans hnext'
    | turn _ first more =>
      obtain ⟨heq, rfl⟩ := ihfirst first
      cases heq
      obtain ⟨rfl, rfl⟩ := ihmore more
      exact ⟨rfl, rfl⟩
    | turnRejected _ first => cases (ihfirst first).1
  | turnRejected hnext _ ih =>
    intro _ _ h'
    cases h' with
    | stop hnext' => cases hnext.symm.trans hnext'
    | turn _ first => cases (ih first).1
    | turnRejected _ first => exact ih first

/-! ## Reading and deriving -/

/-- **What was matched is derived**, no higher than the room. -/
theorem derives (h : Reads room enclosing rule input (.matched trees) rest) :
    ∃ height words, height ≤ room ∧ input = words ++ rest ∧
      Derives Grammar.matched rule.ebnf height words trees := by
  generalize ho : Outcome.matched trees = outcome at h
  induction h generalizing trees with
  | empty | probe | finish =>
    cases ho
    exact ⟨0, [], Nat.zero_le _, rfl, .empty⟩
  | @take _ _ _ word _ h =>
    cases ho
    have hmem := TokenClass.admits_some_iff.mp h
    exact ⟨0, [word], Nat.zero_le _, rfl, derives_take_iff.mpr ⟨word, hmem, rfl, rfl, rfl⟩⟩
  | nest _ ih =>
    obtain ⟨us, rfl, rfl⟩ := Outcome.map_eq_matched_iff.mp ho.symm
    obtain ⟨height, words, hle, rfl, h⟩ := ih rfl
    exact ⟨height + 1, words, Nat.succ_le_succ hle, rfl, .nonterminal _ h⟩
  | seq _ _ ihfirst ihsecond =>
    obtain ⟨us, rfl, rfl⟩ := Outcome.map_eq_matched_iff.mp ho.symm
    obtain ⟨m, v, hm, rfl, hv⟩ := ihfirst rfl
    obtain ⟨n, w, hn, rfl, hw⟩ := ihsecond rfl
    exact ⟨max m n, v ++ w, Nat.max_le.mpr ⟨hm, hn⟩, by rw [List.append_assoc], .seq hv hw⟩
  | yes _ _ ih =>
    obtain ⟨height, words, hle, rfl, h⟩ := ih ho
    exact ⟨height, words, hle, rfl, .left h⟩
  | no _ _ ih =>
    obtain ⟨height, words, hle, rfl, h⟩ := ih ho
    exact ⟨height, words, hle, rfl, .right h⟩
  | stop =>
    cases ho
    exact ⟨0, [], Nat.zero_le _, rfl, .done⟩
  | turn _ _ _ ihfirst ihmore =>
    obtain ⟨us, rfl, rfl⟩ := Outcome.map_eq_matched_iff.mp ho.symm
    obtain ⟨m, v, hm, rfl, hv⟩ := ihfirst rfl
    obtain ⟨n, w, hn, rfl, hw⟩ := ihmore rfl
    exact ⟨max m n, v ++ w, Nat.max_le.mpr ⟨hm, hn⟩, by rw [List.append_assoc], .more hv hw⟩
  | _ => cases ho

/-- A rule that is not nullable takes a word when it matches. -/
theorem length_lt (h : Reads room enclosing rule input (.matched trees) rest)
    (hrule : rule.nullable = false) : rest.length < input.length := by
  obtain ⟨_, words, -, rfl, hd⟩ := h.derives
  cases words with
  | nil => cases (nullable_of_derives hd).symm.trans hrule
  | cons word words =>
    rw [List.length_append, List.length_cons]
    omega

/-- **A derivation is matched** when it is no higher than the room and the next token decides every
choice of the rule. -/
theorem of_derives {height : Nat} {words : List Word} {behind : List (Option Terminal)}
    (h : Derives Grammar.matched rule.ebnf height words trees) (hle : height ≤ room)
    (hrule : rule.predictive behind = true) (hrest : lookahead rest ∈ behind) :
    Reads room enclosing rule (words ++ rest) (.matched trees) rest := by
  induction h using Rule.derives_induction generalizing room enclosing rest behind with
  | empty => exact .empty
  | probe => exact .probe
  | finish =>
    have hend : lookahead rest = none := by simpa using List.all_eq_true.mp hrule _ hrest
    cases rest with
    | nil => exact .finish
    | cons word rest => cases hend
  | take hmem => exact .take (TokenClass.admits_some_iff.mpr hmem)
  | @nest production n w ts body ih =>
    obtain ⟨room, rfl⟩ : ∃ k, room = k + 1 := ⟨room - 1, by omega⟩
    exact .nest (ih (by omega) (predictive_rule production) (lookahead_mem_follow hrule hrest))
  | seq first second ihfirst ihsecond =>
    obtain ⟨ha, hb⟩ := Rule.predictive_seq_iff.mp hrule
    rw [List.append_assoc]
    exact .seq (ihfirst (by omega) ha (lookahead_mem_starts second hrest))
      (ihsecond (by omega) hb hrest)
  | yes h ih =>
    obtain ⟨hnext, hyes⟩ := admits_of_derives_yes hrule h hrest
    exact .yes hnext (ih hle hyes hrest)
  | no h ih =>
    obtain ⟨hnext, hno⟩ := not_admits_of_derives_no hrule h hrest
    exact .no hnext (ih hle hno hrest)
  | stop => exact .stop (not_admits_of_many hrule hrest)
  | turn first more ihfirst ihmore =>
    have hmore := lookahead_mem_starts more hrest
    obtain ⟨hnext, hitem⟩ := admits_of_derives_item hrule first hmore
    rw [List.append_assoc]
    exact .turn hnext (ihfirst (by omega) hitem hmore) (ihmore (by omega) hrule hrest)

/-- **A derivation that is higher than the room** is rejected as too deep, under the same
conditions: what stands in front of the production that cannot be opened is matched. -/
theorem tooDeep_of_derives {height : Nat} {words : List Word} {behind : List (Option Terminal)}
    (h : Derives Grammar.matched rule.ebnf height words trees) (hless : room < height)
    (hrule : rule.predictive behind = true) (hrest : lookahead rest ∈ behind) :
    ∃ chain left, Reads room enclosing rule (words ++ rest) (.rejected .tooDeep chain) left := by
  induction h using Rule.derives_induction generalizing room enclosing rest behind with
  | empty | probe | finish | take | stop => exact absurd hless (Nat.not_lt_zero room)
  | @nest production n w ts body ih =>
    cases room with
    | zero => exact ⟨_, _, .tooDeep⟩
    | succ room =>
      obtain ⟨chain, left, h⟩ := ih (Nat.lt_of_succ_lt_succ hless) (predictive_rule production)
        (lookahead_mem_follow hrule hrest)
      exact ⟨chain, left, .nest h⟩
  | @seq a b m n v w ts us first second ihfirst ihsecond =>
    obtain ⟨ha, hb⟩ := Rule.predictive_seq_iff.mp hrule
    have hsecond := lookahead_mem_starts second hrest
    rw [List.append_assoc]
    -- the first part is too high, or it is matched and the second part is
    by_cases hdeep : room < m
    · obtain ⟨chain, left, h⟩ := ihfirst hdeep ha hsecond
      exact ⟨chain, left, .seqRejected h⟩
    · have hmatched : Reads room enclosing a (v ++ (w ++ rest)) (.matched ts) (w ++ rest) :=
        .of_derives first (Nat.not_lt.mp hdeep) ha hsecond
      have hlater : room < n := by omega
      obtain ⟨chain, left, h⟩ := ihsecond hlater hb hrest
      exact ⟨chain, left, .seq hmatched h⟩
  | yes h ih =>
    obtain ⟨hnext, hyes⟩ := admits_of_derives_yes hrule h hrest
    obtain ⟨chain, left, h⟩ := ih hless hyes hrest
    exact ⟨chain, left, .yes hnext h⟩
  | no h ih =>
    obtain ⟨hnext, hno⟩ := not_admits_of_derives_no hrule h hrest
    obtain ⟨chain, left, h⟩ := ih hless hno hrest
    exact ⟨chain, left, .no hnext h⟩
  | @turn next item m n v w ts us first more ihfirst ihmore =>
    have hmore := lookahead_mem_starts more hrest
    obtain ⟨hnext, hitem⟩ := admits_of_derives_item hrule first hmore
    rw [List.append_assoc]
    by_cases hdeep : room < m
    · obtain ⟨chain, left, h⟩ := ihfirst hdeep hitem hmore
      exact ⟨chain, left, .turnRejected hnext h⟩
    · have hmatched : Reads room enclosing item (v ++ (w ++ rest)) (.matched ts) (w ++ rest) :=
        .of_derives first (Nat.not_lt.mp hdeep) hitem hmore
      have hlater : room < n := by omega
      obtain ⟨chain, left, h⟩ := ihmore hlater hrule hrest
      exact ⟨chain, left, .turn hnext hmatched h⟩

end Reads

end JackSyntax
