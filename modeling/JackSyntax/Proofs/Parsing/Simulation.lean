import JackSyntax.Proofs.Parsing.Reading

/-!
# Sessions read their words

A session sees the words that its cursor has not passed. Matching a rule in a session ends as the
relation `Reads` says of these words, whatever else is in the session; the cursor is never misused.

## The model

* `Session.words`: what the cursor of a session has not passed.
* `Session.Passes before passed after`: from `before` to `after` the cursor passed these words, and
  nothing else changed but its permission to return a token.
* `Rule.steady behind rule`: every probe stands behind a token (`behind`: one was taken before the
  rule), and no item of a repetition may be empty.

## Results

* **`run_answers`**: matching a steady rule ends with an outcome that `Reads` allows. An error tells
  the index and the token where the cursor stands.
* **`nested_answers`**: the same for a production matched on its own.
-/

namespace JackSyntax

/-! ## Classes of tokens and classes of terminals -/

theorem TokenClass.accepts_eq (what : TokenClass) (token : Token) :
    what.accepts token = what.admits (some token.word.terminal) := by
  rw [Bool.eq_iff_iff, admits_some_iff]
  obtain ⟨kind, text, place⟩ := token
  cases what <;> cases kind <;>
    simp [accepts, terminals, Token.isKeyword, Token.isSymbol, Token.word, Word.terminal]

/-! ## The words of a session -/

namespace Session

/-- The words not yet passed. -/
def words (session : Session) : List Word :=
  session.cursor.remaining.map Token.word

/-- The session one token further on. -/
def next (session : Session) : Session :=
  { session with
    cursor := { session.cursor with taken := session.cursor.taken + 1, returnable := true } }

/-- From one session to another the cursor passed some words. -/
structure Passes (before : Session) (passed : List Word) (after : Session) : Prop where
  tokens : after.cursor.tokens = before.cursor.tokens
  enclosing : after.enclosing = before.enclosing
  words : before.words = passed ++ after.words
  taken : after.cursor.taken = before.cursor.taken + passed.length

theorem Passes.refl (session : Session) : session.Passes [] session :=
  ⟨rfl, rfl, rfl, rfl⟩

theorem Passes.trans {first second third : Session} {v w : List Word}
    (h : first.Passes v second) (h' : second.Passes w third) : first.Passes (v ++ w) third where
  tokens := h'.tokens.trans h.tokens
  enclosing := h'.enclosing.trans h.enclosing
  words := by rw [h.words, h'.words, List.append_assoc]
  taken := by rw [h'.taken, h.taken, List.length_append, Nat.add_assoc]

/-- At the end nothing is left; elsewhere the next token is the first word. -/
theorem peek_cases (session : Session) :
    (session.cursor.peek = none ∧ session.words = []) ∨
      ∃ token, session.cursor.peek = some token ∧
        session.words = token.word :: session.next.words := by
  by_cases h : session.cursor.taken < session.cursor.tokens.size
  · right
    refine ⟨session.cursor.tokens[session.cursor.taken], ?_, ?_⟩
    · exact Array.getElem?_eq_getElem h
    · simp only [words, next, Cursor.remaining]
      rw [List.drop_eq_getElem_cons (by simpa using h), List.map_cons, Array.getElem_toList]
  · left
    constructor
    · exact Array.getElem?_eq_none (Nat.le_of_not_lt h)
    · rw [words, Cursor.remaining, List.drop_eq_nil_of_le (by simpa using h), List.map_nil]

theorem passes_next {session : Session} {token : Token}
    (h : session.words = token.word :: session.next.words) :
    session.Passes [token.word] session.next :=
  ⟨rfl, rfl, h, rfl⟩

theorem nextIs_eq (session : Session) (what : TokenClass) :
    session.nextIs what = what.admits (lookahead session.words) := by
  rw [nextIs]
  rcases session.peek_cases with ⟨hpeek, hwords⟩ | ⟨token, hpeek, hwords⟩
  · rw [hpeek, hwords, lookahead_nil]
    rfl
  · rw [hpeek, hwords, lookahead_cons]
    exact what.accepts_eq token

theorem left_eq_length_words (session : Session) :
    session.cursor.left = session.words.length := by
  rw [Cursor.left_eq_length_remaining, words, List.length_map]

theorem hasNext_eq (session : Session) :
    session.cursor.hasNext = (lookahead session.words).isSome := by
  rcases session.peek_cases with ⟨hpeek, hwords⟩ | ⟨token, hpeek, hwords⟩
  · rw [hwords, lookahead_nil, Option.isSome_none, Bool.eq_false_iff, ne_eq, Cursor.hasNext_iff]
    simp [hpeek]
  · rw [hwords, lookahead_cons, Option.isSome_some, Cursor.hasNext_iff]
    exact ⟨token, hpeek⟩

/-! ## Steps of a session -/

theorem advance_eq_ok {session : Session} {token : Token}
    (hpeek : session.cursor.peek = some token) :
    onCursor Cursor.advance session = .ok token session.next := by
  simp only [onCursor, Cursor.advance, hpeek]
  rfl

theorem pushback_next {session : Session} (htaken : 0 < session.cursor.taken) :
    onCursor Cursor.pushback session.next =
      .ok () { session with cursor := { session.cursor with returnable := false } } := by
  have hguard :
      (session.next.cursor.returnable && decide (1 < session.next.cursor.taken)) = true := by
    simp [next, htaken]
  simp only [onCursor, Cursor.pushback, hguard, if_true]
  rfl

theorem take_eq_ok {session : Session} {expected : TokenClass} {token : Token}
    (hnext : session.nextIs expected = true) (hpeek : session.cursor.peek = some token) :
    take expected session = .ok [token.word.leaf] session.next := by
  rw [take, if_pos hnext]
  simp only [bind, EStateM.bind, advance_eq_ok hpeek, pure, EStateM.pure]
  rfl

/-- Stepping onto a token and back leaves the words as they are, behind another token. -/
theorem probe_eq_ok {session : Session} (htaken : 0 < session.cursor.taken) :
    ∃ after, probe session = .ok [] after ∧ session.Passes [] after := by
  rcases session.peek_cases with ⟨hpeek, hwords⟩ | ⟨token, hpeek, hwords⟩
  · have hend : session.cursor.hasNext = false := by rw [hasNext_eq, hwords]; rfl
    refine ⟨session, ?_, .refl session⟩
    rw [probe, if_neg (by rw [hend]; exact Bool.false_ne_true)]
  · have hnext : session.cursor.hasNext = true := by rw [hasNext_eq, hwords]; rfl
    refine ⟨{ session with cursor := { session.cursor with returnable := false } }, ?_,
      ⟨rfl, rfl, rfl, rfl⟩⟩
    rw [probe, if_pos hnext]
    simp only [bind, EStateM.bind, discard, Functor.discard, Functor.mapConst, Function.comp_apply,
      EStateM.map, advance_eq_ok hpeek, pushback_next htaken, pure, EStateM.pure]

end Session

/-! ## Steady rules -/

/-- Every probe stands behind a token, and no item of a repetition may be empty. -/
def Rule.steady (behind : Bool) : Rule → Bool
  | probe => behind
  | seq a b => a.steady behind && b.steady (behind || !a.nullable)
  | branch _ yes no => yes.steady behind && no.steady behind
  | many _ item => !item.nullable && item.steady behind
  | empty | take _ | nest _ | refuse | finish => true

set_option maxRecDepth 4000 in
theorem steady_rule (production : Production) :
    (Grammar.rule production).steady false = true := by
  cases production <;> decide

/-! ## Matching is reading -/

/-- The result of an outcome in the session where matching stopped. -/
def Outcome.result (after : Session) : Outcome → EStateM.Result Failure Session (List Tree)
  | matched trees => .ok trees after
  | rejected cause enclosing =>
    .error (.rejected ⟨cause, after.cursor.taken, after.cursor.peek, enclosing.reverse⟩) after

namespace Session

/-- How nested productions are matched when `room` of them may be opened. -/
def nested (room : Nat) (production : Production) : Matching (List Tree) := do
  return production.wrap (← forest room production)

/-- A step ends in a session with an outcome that the relation allows. -/
def Answers (room : Nat) (rule : Rule) (step : Matching (List Tree)) (before : Session) : Prop :=
  ∃ outcome passed after, step before = outcome.result after ∧
    Reads room before.enclosing rule before.words outcome after.words ∧
    before.Passes passed after

theorem answers_take (room : Nat) (expected : TokenClass) (before : Session) :
    Answers room (.take expected) (take expected) before := by
  cases hnext : before.nextIs expected with
  | true =>
    rcases before.peek_cases with ⟨hpeek, hwords⟩ | ⟨token, hpeek, hwords⟩
    · rw [nextIs_eq, hwords] at hnext
      cases hnext
    · refine ⟨.matched [token.word.leaf], [token.word], before.next, take_eq_ok hnext hpeek, ?_,
        passes_next hwords⟩
      rw [nextIs_eq, hwords, lookahead_cons] at hnext
      rw [hwords]
      exact .take hnext
  | false =>
    refine ⟨.rejected (.expected expected) before.enclosing, [], before, ?_, ?_, .refl before⟩
    · rw [take, if_neg (by rw [hnext]; exact Bool.false_ne_true)]
      rfl
    · exact .miss (by rw [← nextIs_eq, hnext])

/-- A step after another, for a rule that reads one part and then another. -/
theorem Answers.andThen {room : Nat} {a b rule : Rule} {f g : Matching (List Tree)}
    {before : Session} (hf : Answers room a f before)
    (hg : ∀ {trees passed middle}, before.Passes passed middle →
      Reads room before.enclosing a before.words (.matched trees) middle.words →
      Answers room b g middle)
    (hmatched : ∀ {trees middle outcome rest},
      Reads room before.enclosing a before.words (.matched trees) middle →
      Reads room before.enclosing b middle outcome rest →
      Reads room before.enclosing rule before.words (outcome.map (trees ++ ·)) rest)
    (hrejected : ∀ {cause chain rest},
      Reads room before.enclosing a before.words (.rejected cause chain) rest →
      Reads room before.enclosing rule before.words (.rejected cause chain) rest) :
    Answers room rule (do return (← f) ++ (← g)) before := by
  obtain ⟨outcome, passed, middle, hrun, hread, hpass⟩ := hf
  cases outcome with
  | rejected cause chain =>
    refine ⟨.rejected cause chain, passed, middle, ?_, hrejected hread, hpass⟩
    simp only [bind, EStateM.bind, hrun, Outcome.result]
  | matched trees =>
    obtain ⟨outcome, passed', after, hrun', hread', hpass'⟩ := hg hpass hread
    rw [hpass.enclosing] at hread'
    refine ⟨outcome.map (trees ++ ·), passed ++ passed', after, ?_, hmatched hread hread',
      hpass.trans hpass'⟩
    cases outcome <;>
      simp only [bind, EStateM.bind, pure, EStateM.pure, hrun, hrun', Outcome.result, Outcome.map]

theorem repeatWhile_of_nextIs {next : TokenClass} {before : Session}
    (hnext : before.nextIs next = true) (step : Matching (List Tree)) (limit : Nat) :
    repeatWhile next step (limit + 1) before =
      (do return (← step) ++ (← repeatWhile next step limit)) before := by
  simp only [repeatWhile, hnext, if_true]

theorem repeatWhile_of_not_nextIs {next : TokenClass} {before : Session}
    (hnext : before.nextIs next = false) (step : Matching (List Tree)) (limit : Nat) :
    repeatWhile next step (limit + 1) before = .ok [] before := by
  simp only [repeatWhile, hnext, Bool.false_eq_true, if_false]

/-- A repetition, with at least as many turns allowed as words are left. -/
theorem answers_repeatWhile {room : Nat} {next : TokenClass} {item : Rule} {behind : Bool}
    {step : Matching (List Tree)} (hnull : item.nullable = false)
    (hitem : ∀ {before}, (behind = true → 0 < before.cursor.taken) →
      Answers room item step before) :
    ∀ (limit : Nat) {before : Session}, before.words.length ≤ limit →
      (behind = true → 0 < before.cursor.taken) →
      Answers room (.many next item) (repeatWhile next step limit) before
  | 0, before, hlimit, _ => by
    have hwords : before.words = [] := List.eq_nil_of_length_eq_zero (Nat.le_zero.mp hlimit)
    exact ⟨.matched [], [], before, rfl, .stop (by rw [hwords]; rfl), .refl before⟩
  | limit + 1, before, hlimit, hbehind => by
    cases hnext : before.nextIs next with
    | false =>
      exact ⟨.matched [], [], before, repeatWhile_of_not_nextIs hnext step limit,
        .stop (by rw [← nextIs_eq, hnext]), .refl before⟩
    | true =>
      have hadmits : next.admits (lookahead before.words) = true := by rw [← nextIs_eq, hnext]
      have hturn : Answers room (.many next item)
          (do return (← step) ++ (← repeatWhile next step limit)) before := by
        refine (hitem hbehind).andThen (fun hpass hread => ?_) (.turn hadmits)
          (.turnRejected hadmits)
        have hless := hread.length_lt hnull
        refine answers_repeatWhile hnull hitem limit (by omega) fun h => ?_
        rw [hpass.taken]
        exact Nat.add_pos_left (hbehind h) _
      rw [Answers, repeatWhile_of_nextIs hnext]
      exact hturn

theorem answers_nested_zero (production : Production) (before : Session) :
    Answers 0 (.nest production) (nested 0 production) before :=
  ⟨.rejected .tooDeep (production :: before.enclosing), [], before, rfl, .tooDeep, .refl before⟩

theorem answers_nested_succ {room : Nat} {production : Production}
    (hrule : ∀ before,
      Answers room (Grammar.rule production) ((Grammar.rule production).run (nested room)) before)
    (before : Session) :
    Answers (room + 1) (.nest production) (nested (room + 1) production) before := by
  obtain ⟨outcome, passed, after, hrun, hread, hpass⟩ :=
    hrule { before with enclosing := production :: before.enclosing }
  refine ⟨outcome.map production.wrap, passed,
    { after with enclosing := after.enclosing.tail }, ?_, .nest hread,
    ⟨hpass.tokens, by rw [hpass.enclosing]; rfl, hpass.words, hpass.taken⟩⟩
  have hrun' : forest (room + 1) production before = inside production
    ((Grammar.rule production).run (nested room)) before := rfl
  simp only [nested, bind, EStateM.bind, hrun', inside, hrun]
  cases outcome <;> rfl

/-- Matching a steady rule, when nested productions are matched as the relation says. -/
theorem run_answers_of_nested {room : Nat}
    (hnest : ∀ production before, Answers room (.nest production) (nested room production) before)
    (rule : Rule) {behind : Bool} {before : Session} (hsteady : rule.steady behind = true)
    (hbehind : behind = true → 0 < before.cursor.taken) :
    Answers room rule (rule.run (nested room)) before := by
  induction rule generalizing behind before with
  | empty => exact ⟨.matched [], [], before, rfl, .empty, .refl before⟩
  | probe =>
    obtain ⟨after, hrun, hpass⟩ := probe_eq_ok (hbehind hsteady)
    have hwords : before.words = after.words := hpass.words
    exact ⟨.matched [], [], after, hrun, by rw [hwords]; exact .probe, hpass⟩
  | take expected => exact answers_take room expected before
  | nest production => exact hnest production before
  | seq a b iha ihb =>
    rw [Rule.steady, Bool.and_eq_true] at hsteady
    refine (iha hsteady.1 hbehind).andThen (fun hpass hread => ihb hsteady.2 fun h => ?_) .seq
      .seqRejected
    rw [hpass.taken]
    rcases Bool.or_eq_true_iff.mp h with h | h
    · exact Nat.add_pos_left (hbehind h) _
    · have hless := hread.length_lt (by simpa using h)
      rw [hpass.words, List.length_append] at hless
      omega
  | branch next yes no ihyes ihno =>
    rw [Rule.steady, Bool.and_eq_true] at hsteady
    cases hnext : before.nextIs next with
    | true =>
      obtain ⟨outcome, passed, after, hrun, hread, hpass⟩ := ihyes hsteady.1 hbehind
      refine ⟨outcome, passed, after, ?_, .yes (by rw [← nextIs_eq, hnext]) hread, hpass⟩
      rw [← hrun]
      simp only [Rule.run, hnext, if_true]
    | false =>
      obtain ⟨outcome, passed, after, hrun, hread, hpass⟩ := ihno hsteady.2 hbehind
      refine ⟨outcome, passed, after, ?_, .no (by rw [← nextIs_eq, hnext]) hread, hpass⟩
      rw [← hrun]
      simp only [Rule.run, hnext, Bool.false_eq_true, if_false]
  | many next item ih =>
    simp only [Rule.steady, Bool.and_eq_true, Bool.not_eq_true'] at hsteady
    exact answers_repeatWhile hsteady.1 (fun h => ih hsteady.2 h) before.cursor.left
      (Nat.le_of_eq before.left_eq_length_words.symm) hbehind
  | refuse =>
    exact ⟨.rejected .expectedTerm before.enclosing, [], before, rfl, .refuse, .refl before⟩
  | finish =>
    have hhas := before.hasNext_eq
    cases hwords : before.words with
    | nil =>
      refine ⟨.matched [], [], before, ?_, by rw [hwords]; exact .finish, .refl before⟩
      rw [hwords] at hhas
      simp only [Rule.run, hhas]
      rfl
    | cons word rest =>
      refine ⟨.rejected .trailing before.enclosing, [], before, ?_,
        by rw [hwords]; exact .trailing, .refl before⟩
      rw [hwords] at hhas
      simp only [Rule.run, hhas]
      rfl

/-- **Matching a steady rule ends as the relation says.** -/
theorem run_answers (room : Nat) (rule : Rule) {behind : Bool} {before : Session}
    (hsteady : rule.steady behind = true) (hbehind : behind = true → 0 < before.cursor.taken) :
    Answers room rule (rule.run (nested room)) before := by
  induction room generalizing rule behind before with
  | zero =>
    exact run_answers_of_nested (fun production => answers_nested_zero production) rule hsteady
      hbehind
  | succ room ih =>
    exact run_answers_of_nested (fun production => answers_nested_succ fun before =>
      ih _ (steady_rule production) (fun h => absurd h Bool.false_ne_true)) rule hsteady hbehind

/-! ## A production on its own -/

/-- The productions that a session can still open. -/
def room (session : Session) : Nat :=
  Vocabulary.deepestNesting - session.enclosing.length

theorem parse_eq_ok_iff {production : Production} (htag : production.tag?.isSome = true)
    {before after : Session} {tree : Tree} :
    parse production before = .ok tree after ↔
      nested before.room production before = .ok [tree] after := by
  obtain ⟨tag, htag⟩ := Option.isSome_iff_exists.mp htag
  simp only [parse, nested, room, bind, EStateM.bind, pure, EStateM.pure, Production.wrap, htag]
  cases forest (Vocabulary.deepestNesting - before.enclosing.length) production before <;> simp

theorem parse_eq_error_iff {production : Production} {before after : Session} {failure : Failure} :
    parse production before = .error failure after ↔
      nested before.room production before = .error failure after := by
  simp only [parse, nested, room, bind, EStateM.bind, pure, EStateM.pure]
  cases forest (Vocabulary.deepestNesting - before.enclosing.length) production before <;> simp

/-- **A production matched on its own ends as the relation says.** -/
theorem nested_answers (room : Nat) (production : Production) (before : Session) :
    Answers room (.nest production) (nested room production) before :=
  have hsteady : (Rule.nest production).steady false = true := rfl
  run_answers room (.nest production) hsteady fun h => absurd h Bool.false_ne_true

/-- A nested production that matches has read the words that were passed. -/
theorem reads_of_nested_ok {production : Production} {before after : Session} {trees : List Tree}
    (h : nested before.room production before = .ok trees after) :
    ∃ passed, before.Passes passed after ∧
      Reads before.room before.enclosing (.nest production) before.words (.matched trees)
        after.words := by
  obtain ⟨outcome, passed, last, hrun, hread, hpass⟩ :=
    nested_answers before.room production before
  rw [h] at hrun
  cases outcome with
  | matched trees =>
    obtain ⟨rfl, rfl⟩ := EStateM.Result.ok.inj hrun
    exact ⟨passed, hpass, hread⟩
  | rejected cause chain => cases hrun

/-- A production that matches has read the words that were passed. -/
theorem reads_of_parse_ok {production : Production} (htag : production.tag?.isSome = true)
    {before after : Session} {tree : Tree} (h : parse production before = .ok tree after) :
    ∃ passed, before.Passes passed after ∧
      Reads before.room before.enclosing (.nest production) before.words (.matched [tree])
        after.words :=
  reads_of_nested_ok ((parse_eq_ok_iff htag).mp h)

/-- A production that is rejected has read the words that were passed, and the error tells where
the cursor stands. -/
theorem reads_of_parse_error {production : Production} {before after : Session}
    {failure : Failure} (h : parse production before = .error failure after) :
    ∃ passed cause chain, before.Passes passed after ∧
      failure = .rejected ⟨cause, after.cursor.taken, after.cursor.peek, chain.reverse⟩ ∧
      Reads before.room before.enclosing (.nest production) before.words (.rejected cause chain)
        after.words := by
  obtain ⟨outcome, passed, last, hrun, hread, hpass⟩ :=
    nested_answers before.room production before
  rw [parse_eq_error_iff.mp h] at hrun
  cases outcome with
  | matched trees => cases hrun
  | rejected cause chain =>
    obtain ⟨rfl, rfl⟩ := EStateM.Result.error.inj hrun
    exact ⟨passed, cause, chain, hpass, rfl, hread⟩

/-- A production matches what the relation reads. -/
theorem parse_eq_ok_of_reads {production : Production} (htag : production.tag?.isSome = true)
    {before : Session} {tree : Tree} {rest : List Word}
    (h : Reads before.room before.enclosing (.nest production) before.words (.matched [tree])
      rest) :
    ∃ after, parse production before = .ok tree after ∧ after.words = rest := by
  obtain ⟨outcome, passed, after, hrun, hread, -⟩ := nested_answers before.room production before
  obtain ⟨rfl, hrest⟩ := hread.deterministic h
  exact ⟨after, (parse_eq_ok_iff htag).mpr hrun, hrest⟩

/-- A production is rejected as the relation says. -/
theorem parse_eq_error_of_reads {production : Production} {before : Session} {cause : SyntaxCause}
    {chain : List Production} {rest : List Word}
    (h : Reads before.room before.enclosing (.nest production) before.words (.rejected cause chain)
      rest) :
    ∃ after, parse production before =
      .error (.rejected ⟨cause, after.cursor.taken, after.cursor.peek, chain.reverse⟩) after := by
  obtain ⟨outcome, passed, after, hrun, hread, -⟩ := nested_answers before.room production before
  obtain ⟨rfl, -⟩ := hread.deterministic h
  exact ⟨after, parse_eq_error_iff.mpr hrun⟩

end Session

end JackSyntax
