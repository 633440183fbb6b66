import JackSyntax.Proofs.Parsing.Exactness

/-!
# Reading in lockstep

Reading sees a word only as a terminal: the text of a name or a constant decides nothing and is
copied into the tree. It sees the terminals that it passes and the next one, and no more.

## The model

* `Tree.erase`: the tree without the texts that are free, those of names and constants.
* `Outcome.verdict`: how reading ends, without the trees.

## Results

* `Tree.eq_of_erase_of_leaves`: without its free texts a tree still tells where its leaves go.
* **`Reads.lockstep`**: an input that starts with the terminals that were passed, and goes on with
  the next one, is read with the same outcome up to the free texts.
-/

namespace JackSyntax

open Ebnf

/-! ## Trees without free texts -/

/-- The classes of tokens whose text the grammar leaves free. -/
def TokenKind.free : List TokenKind :=
  [identifier, integerConstant, stringConstant]

namespace Tree

mutual

/-- The tree without the texts of names and constants. -/
def erase : Tree → Tree
  | leaf kind text => leaf kind (if kind ∈ TokenKind.free.map TokenKind.tag then "" else text)
  | node tag children => node tag (eraseAll children)
  | foreign value => foreign value

/-- The trees without the texts of names and constants. -/
def eraseAll : List Tree → List Tree
  | [] => []
  | tree :: rest => tree.erase :: eraseAll rest

end

theorem eraseAll_append (ts us : List Tree) : eraseAll (ts ++ us) = eraseAll ts ++ eraseAll us := by
  induction ts with
  | nil => rfl
  | cons t ts ih => simp only [List.cons_append, eraseAll, ih]

mutual

theorem length_leaves_erase : ∀ tree : Tree, tree.erase.leaves.length = tree.leaves.length
  | leaf _ _ => rfl
  | node _ children => length_leavesAll_eraseAll children
  | foreign _ => rfl

theorem length_leavesAll_eraseAll :
    ∀ trees : List Tree, (leavesAll (eraseAll trees)).length = (leavesAll trees).length
  | [] => rfl
  | tree :: rest => by
    simp only [eraseAll, leavesAll, List.length_append, length_leaves_erase tree,
      length_leavesAll_eraseAll rest]

end

mutual

/-- **A tree is told by its leaves and what is left of it without the free texts.** -/
theorem eq_of_erase_of_leaves :
    ∀ {t u : Tree}, t.erase = u.erase → t.leaves = u.leaves → t = u
  | leaf _ _, leaf _ _, _, hleaves => by simpa [leaves] using hleaves
  | node _ ts, node _ us, herase, hleaves => by
    obtain ⟨htag, hchildren⟩ := node.inj herase
    rw [htag, eq_of_eraseAll_of_leavesAll hchildren hleaves]
  | foreign _, foreign _, herase, _ => herase

theorem eq_of_eraseAll_of_leavesAll :
    ∀ {ts us : List Tree}, eraseAll ts = eraseAll us → leavesAll ts = leavesAll us → ts = us
  | [], [], _, _ => rfl
  | t :: ts, u :: us, herase, hleaves => by
    obtain ⟨hfirst, hrest⟩ := List.cons.inj herase
    -- the first trees have as many leaves as each other, so the leaves are cut at the same place
    have hlength : t.leaves.length = u.leaves.length := by
      rw [← length_leaves_erase t, hfirst, length_leaves_erase]
    obtain ⟨hleaf, hleaves⟩ := List.append_inj hleaves hlength
    rw [eq_of_erase_of_leaves hfirst hleaf, eq_of_eraseAll_of_leavesAll hrest hleaves]

end

end Tree

/-- Words of one terminal have the same leaf. -/
theorem Word.erase_leaf_congr {v w : Word} (h : v.terminal = w.terminal) :
    v.leaf.erase = w.leaf.erase := by
  obtain ⟨kind, text⟩ := v
  obtain ⟨kind', text'⟩ := w
  cases kind <;> cases kind' <;> simp_all [terminal, leaf, Tree.erase, TokenKind.free]

theorem Production.eraseAll_wrap_congr (production : Production) {ts us : List Tree}
    (h : Tree.eraseAll ts = Tree.eraseAll us) :
    Tree.eraseAll (production.wrap ts) = Tree.eraseAll (production.wrap us) := by
  unfold wrap
  split
  · simp only [Tree.eraseAll, Tree.erase, h]
  · exact h

/-! ## Outcomes -/

/-- How matching ends, without the trees. -/
def Outcome.verdict : Outcome → Option (SyntaxCause × List Production)
  | matched _ => none
  | rejected cause enclosing => some (cause, enclosing)

@[simp] theorem Outcome.verdict_map (f : List Tree → List Tree) (outcome : Outcome) :
    (outcome.map f).verdict = outcome.verdict := by
  cases outcome <;> rfl

/-- Outcomes that are alike stay so, when alike trees are made of their trees. -/
theorem Outcome.erase_map_congr {first second : Outcome} {f g : List Tree → List Tree}
    (h : first.map Tree.eraseAll = second.map Tree.eraseAll)
    (hfg : ∀ {ts us}, Tree.eraseAll ts = Tree.eraseAll us →
      Tree.eraseAll (f ts) = Tree.eraseAll (g us)) :
    (first.map f).map Tree.eraseAll = (second.map g).map Tree.eraseAll := by
  cases first with
  | matched ts =>
    obtain ⟨us, rfl, hus⟩ := Outcome.map_eq_matched_iff.mp h.symm
    exact congrArg matched (hfg hus.symm)
  | rejected cause chain =>
    obtain rfl := Outcome.map_eq_rejected_iff.mp h.symm
    rfl

theorem Outcome.erase_append_congr {first second : Outcome} {ts us : List Tree}
    (h : first.map Tree.eraseAll = second.map Tree.eraseAll)
    (htrees : Tree.eraseAll ts = Tree.eraseAll us) :
    (first.map (ts ++ ·)).map Tree.eraseAll = (second.map (us ++ ·)).map Tree.eraseAll := by
  refine Outcome.erase_map_congr h fun hmore => ?_
  rw [Tree.eraseAll_append, Tree.eraseAll_append, htrees, hmore]

/-! ## Inputs with the same terminals -/

theorem lookahead_append_congr {v w rest rest' : List Word}
    (h : v.map Word.terminal = w.map Word.terminal) (hrest : lookahead rest = lookahead rest') :
    lookahead (v ++ rest) = lookahead (w ++ rest') := by
  cases v with
  | nil =>
    obtain rfl : w = [] := by simpa using h.symm
    exact hrest
  | cons head tail =>
    cases w with
    | nil => cases h
    | cons head' tail' =>
      rw [List.map_cons, List.map_cons] at h
      exact congrArg some (List.cons.inj h).1

theorem eq_nil_of_same_terminals {rest passed passed' : List Word} (hin : rest = passed ++ rest)
    (hsame : passed'.map Word.terminal = passed.map Word.terminal) : passed' = [] := by
  obtain rfl : passed = [] := List.self_eq_append_left.mp hin
  exact List.map_eq_nil_iff.mp hsame

/-- Words with the same terminals are cut where the words passed are cut. -/
theorem exists_split_of_same_terminals {rest v w passed passed' : List Word}
    (hin : v ++ (w ++ rest) = passed ++ rest)
    (hsame : passed'.map Word.terminal = passed.map Word.terminal) :
    ∃ v' w', passed' = v' ++ w' ∧ v'.map Word.terminal = v.map Word.terminal ∧
      w'.map Word.terminal = w.map Word.terminal := by
  rw [← List.append_assoc] at hin
  rw [← List.append_cancel_right hin, List.map_append] at hsame
  exact List.map_eq_append_iff.mp hsame

/-! ## Reading -/

variable {room : Nat} {enclosing : List Production} {rule : Rule} {input rest : List Word}
  {outcome : Outcome}

/-- **Reading in lockstep.** An input that starts with the terminals that were passed, and goes on
with the terminal that came next, is read with the same outcome, up to the free texts. More room
changes nothing unless the productions nested too deep. -/
theorem Reads.lockstep (h : Reads room enclosing rule input outcome rest) :
    ∀ {room' : Nat}, room ≤ room' →
      (room < room' → ∀ chain, outcome.verdict ≠ some (.tooDeep, chain)) →
      ∀ {passed passed' rest' : List Word}, input = passed ++ rest →
      passed'.map Word.terminal = passed.map Word.terminal → lookahead rest' = lookahead rest →
      ∃ outcome', Reads room' enclosing rule (passed' ++ rest') outcome' rest' ∧
        outcome'.map Tree.eraseAll = outcome.map Tree.eraseAll := by
  induction h with
  | empty =>
    intro _ _ _ passed passed' rest' hin hsame _
    obtain rfl := eq_nil_of_same_terminals hin hsame
    exact ⟨_, .empty, rfl⟩
  | probe =>
    intro _ _ _ passed passed' rest' hin hsame _
    obtain rfl := eq_nil_of_same_terminals hin hsame
    exact ⟨_, .probe, rfl⟩
  | @take _ _ _ word rest h =>
    intro _ _ _ passed passed' rest' hin hsame _
    obtain rfl : passed = [word] := List.append_cancel_right (hin.symm.trans (by rfl))
    obtain ⟨word', rfl, hword⟩ := List.map_eq_singleton_iff.mp hsame
    rw [← hword] at h
    refine ⟨_, .take h, ?_⟩
    simp only [Outcome.map, Tree.eraseAll, Word.erase_leaf_congr hword]
  | miss h =>
    intro _ _ _ passed passed' rest' hin hsame hnext
    obtain rfl := eq_nil_of_same_terminals hin hsame
    rw [← hnext] at h
    exact ⟨_, .miss h, rfl⟩
  | tooDeep =>
    intro room' _ hdeep passed passed' rest' hin hsame _
    obtain rfl := eq_nil_of_same_terminals hin hsame
    obtain rfl : room' = 0 := Nat.eq_zero_of_not_pos fun hroom => hdeep hroom _ rfl
    exact ⟨_, .tooDeep, rfl⟩
  | @nest _ _ production _ _ _ _ ih =>
    intro room' hroom hdeep passed passed' rest' hin hsame hnext
    obtain ⟨k, rfl⟩ : ∃ k, room' = k + 1 := ⟨room' - 1, by omega⟩
    rw [Outcome.verdict_map] at hdeep
    obtain ⟨outcome', h', hsimilar⟩ := ih (Nat.le_of_succ_le_succ hroom)
      (fun hless => hdeep (Nat.succ_lt_succ hless)) hin hsame hnext
    exact ⟨_, .nest h', Outcome.erase_map_congr hsimilar production.eraseAll_wrap_congr⟩
  | seq first second ihfirst ihsecond =>
    intro room' hroom hdeep passed passed' rest' hin hsame hnext
    rw [Outcome.verdict_map] at hdeep
    obtain ⟨w, rfl⟩ := second.suffix
    obtain ⟨v, rfl⟩ := first.suffix
    obtain ⟨v', w', rfl, hv, hw⟩ := exists_split_of_same_terminals hin hsame
    obtain ⟨first', hfirst, hmatched⟩ := ihfirst hroom (fun _ _ h => by cases h) rfl hv
      (lookahead_append_congr hw hnext)
    obtain ⟨ts, rfl, hts⟩ := Outcome.map_eq_matched_iff.mp hmatched
    obtain ⟨second', hsecond, hsimilar⟩ := ihsecond hroom hdeep rfl hw hnext
    rw [List.append_assoc]
    exact ⟨_, .seq hfirst hsecond, Outcome.erase_append_congr hsimilar hts⟩
  | seqRejected _ ih =>
    intro room' hroom hdeep passed passed' rest' hin hsame hnext
    obtain ⟨outcome', h', hsimilar⟩ := ih hroom hdeep hin hsame hnext
    obtain rfl := Outcome.map_eq_rejected_iff.mp hsimilar
    exact ⟨_, .seqRejected h', rfl⟩
  | yes hadmits _ ih =>
    intro room' hroom hdeep passed passed' rest' hin hsame hnext
    obtain ⟨outcome', h', hsimilar⟩ := ih hroom hdeep hin hsame hnext
    rw [hin, ← lookahead_append_congr hsame hnext] at hadmits
    exact ⟨_, .yes hadmits h', hsimilar⟩
  | no hadmits _ ih =>
    intro room' hroom hdeep passed passed' rest' hin hsame hnext
    obtain ⟨outcome', h', hsimilar⟩ := ih hroom hdeep hin hsame hnext
    rw [hin, ← lookahead_append_congr hsame hnext] at hadmits
    exact ⟨_, .no hadmits h', hsimilar⟩
  | stop hadmits =>
    intro _ _ _ passed passed' rest' hin hsame hnext
    obtain rfl := eq_nil_of_same_terminals hin hsame
    rw [← hnext] at hadmits
    exact ⟨_, .stop hadmits, rfl⟩
  | turn hadmits first more ihfirst ihmore =>
    intro room' hroom hdeep passed passed' rest' hin hsame hnext
    rw [Outcome.verdict_map] at hdeep
    rw [hin, ← lookahead_append_congr hsame hnext] at hadmits
    obtain ⟨w, rfl⟩ := more.suffix
    obtain ⟨v, rfl⟩ := first.suffix
    obtain ⟨v', w', rfl, hv, hw⟩ := exists_split_of_same_terminals hin hsame
    obtain ⟨first', hfirst, hmatched⟩ := ihfirst hroom (fun _ _ h => by cases h) rfl hv
      (lookahead_append_congr hw hnext)
    obtain ⟨ts, rfl, hts⟩ := Outcome.map_eq_matched_iff.mp hmatched
    obtain ⟨more', hmore, hsimilar⟩ := ihmore hroom hdeep rfl hw hnext
    rw [List.append_assoc] at hadmits ⊢
    exact ⟨_, .turn hadmits hfirst hmore, Outcome.erase_append_congr hsimilar hts⟩
  | turnRejected hadmits _ ih =>
    intro room' hroom hdeep passed passed' rest' hin hsame hnext
    obtain ⟨outcome', h', hsimilar⟩ := ih hroom hdeep hin hsame hnext
    obtain rfl := Outcome.map_eq_rejected_iff.mp hsimilar
    rw [hin, ← lookahead_append_congr hsame hnext] at hadmits
    exact ⟨_, .turnRejected hadmits h', rfl⟩
  | refuse =>
    intro _ _ _ passed passed' rest' hin hsame _
    obtain rfl := eq_nil_of_same_terminals hin hsame
    exact ⟨_, .refuse, rfl⟩
  | finish =>
    intro _ _ _ passed passed' rest' hin hsame hnext
    obtain rfl := eq_nil_of_same_terminals hin hsame
    obtain rfl : rest' = [] := by simpa [lookahead] using hnext
    exact ⟨_, .finish, rfl⟩
  | trailing =>
    intro _ _ _ passed passed' rest' hin hsame hnext
    obtain rfl := eq_nil_of_same_terminals hin hsame
    cases rest' with
    | nil => cases hnext
    | cons => exact ⟨_, .trailing, rfl⟩

end JackSyntax
