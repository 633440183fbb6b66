import JackSyntax.Proofs.Parsing.Simulation
import JackSyntax.Proofs.Runs

/-!
# Matching is derivation

A production is matched exactly where the published grammar derives it.

## Results

* **`matched_production_is_derived`** (soundness): what is matched from any cursor is a derivation
  of the production, its leaves are the tokens passed, and no chain of nested productions is longer
  than 256. A unit ends with the last token.
* **`derived_unit_is_matched`** (completeness): the tree of every derivation of a unit with no
  longer chain is the tree that its tokens give, so there are no two such trees.
-/

namespace JackSyntax

open Ebnf Session

/-! ## The leaves of a derivation -/

theorem Tree.leavesAll_append (ts us : List Tree) :
    Tree.leavesAll (ts ++ us) = Tree.leavesAll ts ++ Tree.leavesAll us := by
  induction ts with
  | nil => rfl
  | cons t ts ih => simp only [List.cons_append, Tree.leavesAll, ih, List.append_assoc]

theorem Production.leavesAll_wrap (production : Production) (ts : List Tree) :
    Tree.leavesAll (production.wrap ts) = Tree.leavesAll ts := by
  rw [wrap]
  split
  · simp only [Tree.leavesAll, Tree.leaves, List.append_nil]
  · rfl

/-- The kind and the text of a word, as a leaf shows them. -/
def Word.shown (word : Word) : String × String :=
  (word.kind.tag, word.text)

/-- **The leaves of a derivation are its words**, from left to right. -/
theorem Ebnf.Derives.leavesAll {grammar : Production → Ebnf} {e : Ebnf} {n : Nat} {w : List Word}
    {ts : List Tree} (h : Derives grammar e n w ts) : Tree.leavesAll ts = w.map Word.shown := by
  induction h with
  | terminal word => rfl
  | nonterminal production _ ih => rw [production.leavesAll_wrap, ih]
  | empty | done => rfl
  | seq _ _ ihfirst ihsecond | more _ _ ihfirst ihsecond =>
    rw [Tree.leavesAll_append, ihfirst, ihsecond, List.map_append]
  | left _ ih | right _ ih => exact ih

/-! ## Soundness -/

/-- The words of the tokens between the cursors of two sessions. -/
def Session.between (before after : Session) : List Word :=
  (before.cursor.tokens.extract before.cursor.taken after.cursor.taken).toList.map Token.word

theorem Session.Passes.between_eq {before after : Session} {passed : List Word}
    (h : before.Passes passed after) : before.between after = passed := by
  have hlen : after.cursor.taken - before.cursor.taken = passed.length := by
    rw [h.taken, Nat.add_sub_cancel_left]
  have htake : before.between after = before.words.take passed.length := by
    rw [Session.between, Session.words, Cursor.remaining, Array.toList_extract,
      List.extract_eq_take_drop, hlen, List.map_take]
  rw [htake, h.words, List.take_left']
  rfl

/-- A sequence that matches has matched both parts. -/
theorem Reads.split {room : Nat} {enclosing : List Production} {a b : Rule}
    {input rest : List Word} {trees : List Tree}
    (h : Reads room enclosing (.seq a b) input (.matched trees) rest) :
    ∃ ts middle us, Reads room enclosing a input (.matched ts) middle ∧
      Reads room enclosing b middle (.matched us) rest := by
  generalize ho : Outcome.matched trees = outcome at h
  cases h with
  | seq first second =>
    obtain ⟨us, rfl, -⟩ := Outcome.map_eq_matched_iff.mp ho.symm
    exact ⟨_, _, us, first, second⟩
  | seqRejected => cases ho

/-- A unit is matched up to the end of the input. -/
theorem Reads.unit_rest {room : Nat} {enclosing : List Production} {input rest : List Word}
    {trees : List Tree}
    (h : Reads room enclosing (Grammar.rule .unit) input (.matched trees) rest) : rest = [] := by
  obtain ⟨_, _, _, -, h⟩ := h.split
  obtain ⟨_, _, _, -, h⟩ := h.split
  obtain ⟨_, _, _, -, h⟩ := h.split
  obtain ⟨_, _, _, -, h⟩ := h.split
  obtain ⟨_, _, _, -, h⟩ := h.split
  obtain ⟨_, _, _, hfinish, hempty⟩ := h.split
  cases hfinish
  cases hempty
  rfl

theorem Reads.unit_nest_rest {room : Nat} {enclosing : List Production} {input rest : List Word}
    {trees : List Tree} (h : Reads room enclosing (.nest .unit) input (.matched trees) rest) :
    rest = [] := by
  generalize ho : Outcome.matched trees = outcome at h
  cases h with
  | tooDeep => cases ho
  | nest hrule =>
    obtain ⟨us, rfl, -⟩ := Outcome.map_eq_matched_iff.mp ho.symm
    exact hrule.unit_rest

theorem Session.words_ofList (tokens : List Token) :
    (Session.ofList tokens).words = tokens.map Token.word := by
  simp [Session.ofList, Session.words, Cursor.ofList, Cursor.remaining]

theorem Session.room_of_enclosing_nil {session : Session} (h : session.enclosing = []) :
    session.room = 256 := by
  rw [Session.room, h]
  rfl

/-- A production with a tag is not a call. -/
theorem Production.ne_call_of_tag {production : Production} (htag : production.tag?.isSome = true) :
    production ≠ .call := by
  rintro rfl
  cases htag

theorem Tree.ofTokens_eq_ok_iff {tokens : List Token} {tree : Tree} :
    Tree.ofTokens tokens = .ok tree ↔
      ∃ after, Session.parse .unit (.ofList tokens) = .ok tree after := by
  rw [Tree.ofTokens]
  split <;> rename_i h <;> simp [h]

theorem Tree.ofTokens_eq_error_iff {tokens : List Token} {failure : Failure} :
    Tree.ofTokens tokens = .error failure ↔
      ∃ after, Session.parse .unit (.ofList tokens) = .error failure after := by
  rw [Tree.ofTokens]
  split <;> rename_i h <;> simp [h]

/-- A tree without foreign values is found out by comparing with it. -/
theorem Tree.eq_ok_of_same {ε : Type} {x : Except ε Tree} {tree : Tree}
    (hproper : tree.isProper = true) (h : x.toOption.any tree.same = true) : x = .ok tree := by
  cases x with
  | error fault => cases h
  | ok found => rw [eq_of_same hproper h]

theorem Session.parse_eq_ok_of_same {production : Production} {before after : Session} {tree : Tree}
    (hproper : tree.isProper = true)
    (h : (outcome (Session.parse production before)).toOption.any tree.same = true)
    (hleft : finalState (Session.parse production before) = after) :
    Session.parse production before = .ok tree after :=
  eq_ok_of_outcome (Tree.eq_ok_of_same hproper h) hleft

/-- **Soundness.** Whatever production is matched, from whatever cursor and with no production open:
it derives the words of the tokens passed by a derivation whose chains of nested productions are no
longer than 256, and the leaves of the tree are those words. A unit takes all tokens that are
left. -/
theorem matched_production_is_derived :
    (∀ {production : Production} {before after : Session} {tree : Tree},
      production.tag?.isSome = true → before.enclosing = [] →
      Session.parse production before = .ok tree after →
      (∃ height ≤ 256,
        Derives Grammar.published (.nonterminal production) height (before.between after) [tree]) ∧
      tree.leaves = (before.between after).map Word.shown ∧
      after.cursor.tokens = before.cursor.tokens ∧
      after.cursor.taken = before.cursor.taken + (before.between after).length ∧
      (production = .unit → after.cursor.taken = after.cursor.tokens.size)) ∧
    ∀ {tokens : List Token} {tree : Tree}, Tree.ofTokens tokens = .ok tree →
      ∃ height ≤ 256,
        Derives Grammar.published (.nonterminal .unit) height (tokens.map Token.word) [tree] := by
  constructor
  · intro production before after tree htag hstart h
    obtain ⟨passed, hpass, hread⟩ := reads_of_parse_ok htag h
    obtain ⟨height, words, hle, hwords, hd⟩ := hread.derives
    obtain rfl : passed = words := List.append_cancel_right (hpass.words.symm.trans hwords)
    rw [room_of_enclosing_nil hstart] at hle
    rw [hpass.between_eq]
    refine ⟨⟨height, hle, ?_⟩, ?_, hpass.tokens, hpass.taken, ?_⟩
    · exact (Grammar.published_derives_nonterminal_iff (Production.ne_call_of_tag htag)).mpr hd
    · simpa only [Tree.leavesAll, List.append_nil] using hd.leavesAll
    · rintro rfl
      -- something is taken and nothing is left, so the cursor stood before the last token
      have hleft := before.left_eq_length_words
      have hless := hread.length_lt rfl
      rw [hpass.words, hread.unit_nest_rest, List.append_nil] at hleft hless
      rw [hpass.tokens, hpass.taken, ← hleft, Cursor.left]
      rw [← hleft, Cursor.left, List.length_nil] at hless
      omega
  · intro tokens tree h
    obtain ⟨after, h⟩ := Tree.ofTokens_eq_ok_iff.mp h
    obtain ⟨passed, hpass, hread⟩ := reads_of_parse_ok rfl h
    obtain ⟨height, words, hle, hwords, hd⟩ := hread.derives
    rw [hread.unit_nest_rest, List.append_nil, words_ofList] at hwords
    subst hwords
    exact ⟨height, hle,
      (Grammar.published_derives_nonterminal_iff (by decide)).mpr hd⟩

/-- The tokens of `class A { field int x, y; }`. -/
def fieldsOfA : List Token :=
  [⟨.keyword, "class", ⟨1, 1⟩⟩, ⟨.identifier, "A", ⟨1, 7⟩⟩, ⟨.symbol, "\x7b", ⟨1, 9⟩⟩,
    ⟨.keyword, "field", ⟨1, 11⟩⟩, ⟨.keyword, "int", ⟨1, 17⟩⟩, ⟨.identifier, "x", ⟨1, 21⟩⟩,
    ⟨.symbol, ",", ⟨1, 22⟩⟩, ⟨.identifier, "y", ⟨1, 24⟩⟩, ⟨.symbol, ";", ⟨1, 25⟩⟩,
    ⟨.symbol, "\x7d", ⟨1, 27⟩⟩]

/-- The tree of its only member. -/
def memberOfA : Tree :=
  .node "classVarDec" [.leaf "keyword" "field", .leaf "keyword" "int", .leaf "identifier" "x",
    .leaf "symbol" ",", .leaf "identifier" "y", .leaf "symbol" ";"]

/-- The tree of the class. -/
def treeOfA : Tree :=
  .node "class" [.leaf "keyword" "class", .leaf "identifier" "A", .leaf "symbol" "\x7b", memberOfA,
    .leaf "symbol" "\x7d"]

/-- The member is matched from the fourth token on, the class from the first. -/
theorem matched_fields_are_derived :
    (Session.parse .fieldDecl ⟨⟨fieldsOfA.toArray, 3, false⟩, []⟩ =
        .ok memberOfA ⟨⟨fieldsOfA.toArray, 9, true⟩, []⟩ ∧
      ∃ height ≤ 256, Derives Grammar.published (.nonterminal .fieldDecl) height
        (((fieldsOfA.drop 3).take 6).map Token.word) [memberOfA]) ∧
    Tree.ofTokens fieldsOfA = .ok treeOfA ∧
      ∃ height ≤ 256, Derives Grammar.published (.nonterminal .unit) height
        (fieldsOfA.map Token.word) [treeOfA] := by
  have hmember : Session.parse .fieldDecl ⟨⟨fieldsOfA.toArray, 3, false⟩, []⟩ =
      .ok memberOfA ⟨⟨fieldsOfA.toArray, 9, true⟩, []⟩ :=
    parse_eq_ok_of_same rfl (by decide +kernel) (by decide +kernel)
  have hunit : Tree.ofTokens fieldsOfA = .ok treeOfA :=
    Tree.eq_ok_of_same rfl (by decide +kernel)
  have hbetween : Session.between ⟨⟨fieldsOfA.toArray, 3, false⟩, []⟩
      ⟨⟨fieldsOfA.toArray, 9, true⟩, []⟩ = ((fieldsOfA.drop 3).take 6).map Token.word := rfl
  have hd := (matched_production_is_derived.1 rfl rfl hmember).1
  rw [hbetween] at hd
  exact ⟨⟨hmember, hd⟩, hunit, matched_production_is_derived.2 hunit⟩

/-! ## Completeness -/

/-- A derivation of a unit builds one node. -/
theorem Ebnf.Derives.unit_trees {words : List Word} {n : Nat} {ts : List Tree}
    (h : Derives Grammar.published (.nonterminal .unit) n words ts) : ∃ tree, ts = [tree] := by
  obtain ⟨_, trees, -, -, rfl⟩ := derives_nonterminal_iff.mp h
  exact ⟨.node "class" trees, rfl⟩

/-- A derivation of a unit is read up to the end of its words. -/
theorem Reads.of_derives_unit {room height : Nat} {enclosing : List Production}
    {words : List Word} {trees : List Tree}
    (h : Derives Grammar.published (.nonterminal .unit) height words trees) (hle : height ≤ room) :
    Reads room enclosing (.nest .unit) words (.matched trees) [] := by
  have hd : Derives Grammar.matched (Rule.nest .unit).ebnf height words trees :=
    (Grammar.published_derives_nonterminal_iff (by decide)).mp h
  have hrule : (Rule.nest .unit).predictive [none] = true := by decide
  have hread : Reads room enclosing (.nest .unit) (words ++ []) (.matched trees) [] :=
    .of_derives hd hle hrule List.mem_cons_self
  rwa [List.append_nil] at hread

/-- A word at no place. -/
def Word.token (word : Word) : Token :=
  ⟨word.kind, word.text, {}⟩

theorem Word.map_word_map_token (words : List Word) :
    (words.map Word.token).map Token.word = words := by
  rw [List.map_map]
  exact List.map_id words

theorem ofTokens_of_derives {tokens : List Token} {height : Nat} {tree : Tree}
    (h : Derives Grammar.published (.nonterminal .unit) height (tokens.map Token.word) [tree])
    (hle : height ≤ 256) : Tree.ofTokens tokens = .ok tree := by
  have hread : Reads (Session.ofList tokens).room (Session.ofList tokens).enclosing (.nest .unit)
      (Session.ofList tokens).words (.matched [tree]) [] := by
    rw [words_ofList]
    exact .of_derives_unit h hle
  obtain ⟨after, hparse, -⟩ := parse_eq_ok_of_reads rfl hread
  exact Tree.ofTokens_eq_ok_iff.mpr ⟨after, hparse⟩

/-- **Completeness and unambiguity.** Every derivation of a unit whose chains of nested productions
are no longer than 256 builds one tree, and that is the tree its tokens give. So a word list has no
two such derivations with different trees. -/
theorem derived_unit_is_matched :
    (∀ {tokens : List Token} {height : Nat} {trees : List Tree},
      Derives Grammar.published (.nonterminal .unit) height (tokens.map Token.word) trees →
      height ≤ 256 → ∃ tree, trees = [tree] ∧ Tree.ofTokens tokens = .ok tree) ∧
    ∀ {words : List Word} {m n : Nat} {ts us : List Tree},
      Derives Grammar.published (.nonterminal .unit) m words ts → m ≤ 256 →
      Derives Grammar.published (.nonterminal .unit) n words us → n ≤ 256 → ts = us := by
  constructor
  · intro tokens height trees h hle
    obtain ⟨tree, rfl⟩ := h.unit_trees
    exact ⟨tree, rfl, ofTokens_of_derives h hle⟩
  · intro words m n ts us hts hm hus hn
    obtain ⟨t, rfl⟩ := hts.unit_trees
    obtain ⟨u, rfl⟩ := hus.unit_trees
    rw [← Word.map_word_map_token words] at hts hus
    have htu := (ofTokens_of_derives hts hm).symm.trans (ofTokens_of_derives hus hn)
    rw [Except.ok.inj htu]

theorem memberOfA_derived :
    Derives Grammar.published (.nonterminal .fieldDecl) 2
      (((fieldsOfA.drop 3).take 6).map Token.word) [memberOfA] := by
  have hfield : Derives Grammar.published
      (.oneOf [Grammar.keyword "static", Grammar.keyword "field"]) 0 [⟨.keyword, "field"⟩]
      [.leaf "keyword" "field"] :=
    .right (.left (.terminal ⟨.keyword, "field"⟩))
  have htype : Derives Grammar.published (.nonterminal .type) 1 [⟨.keyword, "int"⟩]
      [.leaf "keyword" "int"] :=
    .nonterminal .type (.left (.terminal ⟨.keyword, "int"⟩))
  have hmore : Derives Grammar.published (.star (.all [Grammar.symbol ",", Grammar.identifier])) 0
      [⟨.symbol, ","⟩, ⟨.identifier, "y"⟩] [.leaf "symbol" ",", .leaf "identifier" "y"] :=
    .more (.seq (.terminal ⟨.symbol, ","⟩) (.seq (.terminal ⟨.identifier, "y"⟩) .empty)) .done
  exact .nonterminal .fieldDecl (.seq hfield (.seq htype (.seq (.terminal ⟨.identifier, "x"⟩)
    (.seq hmore (.seq (.terminal ⟨.symbol, ";"⟩) .empty)))))

/-- A derivation of `class A { field int x, y; }`, three productions high. -/
theorem fieldsOfA_derived :
    Derives Grammar.published (.nonterminal .unit) 3 (fieldsOfA.map Token.word) [treeOfA] := by
  have hmember : Derives Grammar.published (.star Grammar.memberDecl) 2
      (((fieldsOfA.drop 3).take 6).map Token.word ++ []) ([memberOfA] ++ []) :=
    .more (.left memberOfA_derived) .done
  exact .nonterminal .unit (.seq (.terminal ⟨.keyword, "class"⟩)
    (.seq (.terminal ⟨.identifier, "A"⟩) (.seq (.terminal ⟨.symbol, "\x7b"⟩)
      (.seq hmember (.seq (.terminal ⟨.symbol, "\x7d"⟩) .empty)))))

theorem derived_fields_are_matched :
    Derives Grammar.published (.nonterminal .unit) 3 (fieldsOfA.map Token.word) [treeOfA] ∧
      3 ≤ 256 ∧ Tree.ofTokens fieldsOfA = .ok treeOfA ∧
      ∀ {n us}, Derives Grammar.published (.nonterminal .unit) n (fieldsOfA.map Token.word) us →
        n ≤ 256 → [treeOfA] = us := by
  refine ⟨fieldsOfA_derived, by decide, ?_, derived_unit_is_matched.2 fieldsOfA_derived (by decide)⟩
  obtain ⟨tree, htree, h⟩ := derived_unit_is_matched.1 fieldsOfA_derived (by decide)
  rw [h, (List.cons.inj htree).1]

end JackSyntax
