import JackSyntax.Proofs.Grammar.Published

/-!
# One token decides

What a rule can start with, what can stand behind a production, and the check that the next token
tells the choices of a rule apart.

## The model

* `lookahead input`: the terminal of the next word, `none` at the end of the input.
* `Rule.nullable`, `Rule.first`: the rule may derive nothing, and the terminals of first words.
  The tables `Production.nullable`, `Production.first` and `Production.follow` give both, and what
  may come next, for a nested production.
* `Rule.predictive behind rule`: every choice inside `rule` is decided by the next token when
  `behind` lists what may come behind it.

## Results

* `nullable_of_derives`, **`lookahead_mem_starts`**: the tables cover all derivations.
* **`predictive_rule`**: the rule of every production is predictive before its follow table.
* `admits_of_derives_yes`, `admits_of_derives_item`, …: what the next token decides in front of what
  a predictive rule derives.
-/

namespace JackSyntax

open Ebnf

/-! ## What comes next -/

/-- The terminal of the next word. -/
def lookahead (input : List Word) : Option Terminal :=
  input.head?.map Word.terminal

/-- The next terminal belongs to the class. -/
def TokenClass.admits (what : TokenClass) : Option Terminal → Bool
  | some t => what.terminals.contains t
  | none => false

@[simp] theorem lookahead_nil : lookahead [] = none := rfl

@[simp] theorem lookahead_cons (word : Word) (rest : List Word) :
    lookahead (word :: rest) = some word.terminal := rfl

theorem TokenClass.admits_some_iff {what : TokenClass} {t : Terminal} :
    what.admits (some t) = true ↔ t ∈ what.terminals := by
  simp [admits]

/-! ## The tables -/

namespace Production

/-- The production may derive no word. -/
def nullable : Production → Bool
  | paramList | statementList | argList => true
  | _ => false

/-- The terminals that start a term. -/
def termStart : List Terminal :=
  TokenClass.constant.terminals ++ Vocabulary.keywordConstants.map .keyword ++
    Vocabulary.unaryOperators.map .symbol ++ [.symbol "(", .identifier]

/-- The terminals that an instance of the production can start with. -/
def first : Production → List Terminal
  | unit => [.keyword "class"]
  | fieldDecl => Vocabulary.fieldKeywords.map .keyword
  | type | paramList => TokenClass.typeName.terminals
  | subroutineDecl => Vocabulary.subroutineKeywords.map .keyword
  | subroutineBody => [.symbol "\x7b"]
  | localVarDecl => [.keyword "var"]
  | statementList => Vocabulary.statementKeywords.map .keyword
  | letStmt => [.keyword "let"]
  | ifStmt => [.keyword "if"]
  | whileStmt => [.keyword "while"]
  | doStmt => [.keyword "do"]
  | returnStmt => [.keyword "return"]
  | expression | term | argList => termStart
  | call => [.symbol ".", .symbol "("]

/-- What stands behind a statement. -/
def statementFollow : List (Option Terminal) :=
  some (.symbol "\x7d") :: Vocabulary.statementKeywords.map fun word => some (.keyword word)

/-- What stands behind an expression. -/
def expressionFollow : List (Option Terminal) :=
  [")", "]", ";", ","].map fun mark => some (.symbol mark)

/-- What can stand behind an instance of the production, `none` for the end of the input. -/
def follow : Production → List (Option Terminal)
  | unit => [none]
  | fieldDecl | subroutineDecl | subroutineBody =>
    some (.symbol "\x7d") ::
      (Vocabulary.fieldKeywords ++ Vocabulary.subroutineKeywords).map fun word =>
        some (.keyword word)
  | type => [some .identifier]
  | paramList | argList => [some (.symbol ")")]
  | localVarDecl => some (.keyword "var") :: statementFollow
  | statementList => [some (.symbol "\x7d")]
  | letStmt | ifStmt | whileStmt | doStmt | returnStmt => statementFollow
  | expression => expressionFollow
  | term | call =>
    expressionFollow ++ Vocabulary.binaryOperators.map fun mark => some (.symbol mark)

end Production

namespace Rule

/-- The rule may derive no word. -/
def nullable : Rule → Bool
  | empty | many _ _ | probe | finish => true
  | take _ | refuse => false
  | nest production => production.nullable
  | seq first second => first.nullable && second.nullable
  | branch _ yes no => yes.nullable || no.nullable

/-- The terminals that a word list of the rule can start with. -/
def first : Rule → List Terminal
  | empty | probe | refuse | finish => []
  | take expected => expected.terminals
  | nest production => production.first
  | seq a b => if a.nullable then a.first ++ b.first else a.first
  | branch _ yes no => yes.first ++ no.first
  | many _ item => item.first

/-- What the next token can be where the rule starts, with `behind` for what comes behind it. -/
def starts (behind : List (Option Terminal)) (rule : Rule) : List (Option Terminal) :=
  rule.first.map some ++ if rule.nullable then behind else []

/-- **The next token decides every choice of the rule.** -/
def predictive (behind : List (Option Terminal)) : Rule → Bool
  | empty | take _ | probe | refuse => true
  | nest production => behind.all production.follow.contains
  | seq a b => a.predictive (b.starts behind) && b.predictive behind
  | branch next yes no =>
    (yes.starts behind).all next.admits && (no.starts behind).all (!next.admits ·) &&
      yes.predictive behind && no.predictive behind
  | many next item =>
    !item.nullable && (item.first.map some).all next.admits && behind.all (!next.admits ·) &&
      item.predictive (item.first.map some ++ behind)
  | finish => behind.all Option.isNone

end Rule

/-! ## Induction on derivations of rules -/

theorem derives_take_iff {expected : TokenClass} {n : Nat} {w : List Word} {ts : List Tree} :
    Derives Grammar.matched (Rule.take expected).ebnf n w ts ↔
      ∃ word : Word, word.terminal ∈ expected.terminals ∧ n = 0 ∧ w = [word] ∧
        ts = [word.leaf] := by
  simp only [Rule.ebnf, derives_oneOf_iff, List.mem_map, exists_exists_and_eq_and,
    derives_terminal_iff]
  constructor
  · rintro ⟨_, hmem, word, rfl, h⟩
    exact ⟨word, hmem, h⟩
  · rintro ⟨word, hmem, h⟩
    exact ⟨_, hmem, word, rfl, h⟩

/-- **Induction on derivations**, with one case for each way to read a rule. -/
theorem Rule.derives_induction
    {motive : ∀ (rule : Rule) (n : Nat) (w : List Word) (ts : List Tree),
      Derives Grammar.matched rule.ebnf n w ts → Prop}
    (empty : motive .empty 0 [] [] .empty) (probe : motive .probe 0 [] [] .empty)
    (finish : motive .finish 0 [] [] .empty)
    (take : ∀ {expected} {word : Word} (h : word.terminal ∈ expected.terminals),
      motive (.take expected) 0 [word] [word.leaf]
        (derives_take_iff.mpr ⟨word, h, rfl, rfl, rfl⟩))
    (nest : ∀ {production n w ts}
      (body : Derives Grammar.matched (Grammar.matched production) n w ts),
      motive (Grammar.rule production) n w ts body →
      motive (.nest production) (n + 1) w (production.wrap ts) (.nonterminal production body))
    (seq : ∀ {a b : Rule} {m n v w ts us} (first : Derives Grammar.matched a.ebnf m v ts)
      (second : Derives Grammar.matched b.ebnf n w us), motive a m v ts first →
      motive b n w us second → motive (.seq a b) (max m n) (v ++ w) (ts ++ us) (.seq first second))
    (yes : ∀ {next} {yes no : Rule} {n w ts} (h : Derives Grammar.matched yes.ebnf n w ts),
      motive yes n w ts h → motive (.branch next yes no) n w ts (.left h))
    (no : ∀ {next} {yes no : Rule} {n w ts} (h : Derives Grammar.matched no.ebnf n w ts),
      motive no n w ts h → motive (.branch next yes no) n w ts (.right h))
    (stop : ∀ {next item}, motive (.many next item) 0 [] [] .done)
    (turn : ∀ {next} {item : Rule} {m n v w ts us}
      (first : Derives Grammar.matched item.ebnf m v ts)
      (rest : Derives Grammar.matched (Rule.many next item).ebnf n w us), motive item m v ts first →
      motive (.many next item) n w us rest →
      motive (.many next item) (max m n) (v ++ w) (ts ++ us) (.more first rest))
    {rule : Rule} {n : Nat} {w : List Word} {ts : List Tree}
    (h : Derives Grammar.matched rule.ebnf n w ts) : motive rule n w ts h := by
  -- a nested production makes the height smaller, every other step the rule
  suffices hbound : ∀ bound (rule : Rule) {n w ts}, n ≤ bound →
      (h : Derives Grammar.matched rule.ebnf n w ts) → motive rule n w ts h from
    hbound n rule (Nat.le_refl n) h
  intro bound
  induction bound using Nat.strongRecOn with
  | _ bound ihbound =>
  intro rule
  induction rule with
  | empty =>
    intro n w ts _ h
    obtain ⟨rfl, rfl, rfl⟩ := derives_empty_iff.mp h
    exact empty
  | probe =>
    intro n w ts _ h
    obtain ⟨rfl, rfl, rfl⟩ := derives_empty_iff.mp h
    exact probe
  | finish =>
    intro n w ts _ h
    obtain ⟨rfl, rfl, rfl⟩ := derives_empty_iff.mp h
    exact finish
  | refuse =>
    intro n w ts _ h
    exact absurd h not_derives_never
  | take expected =>
    intro n w ts _ h
    obtain ⟨word, hmem, rfl, rfl, rfl⟩ := derives_take_iff.mp h
    exact take hmem
  | nest production =>
    intro n w ts hle h
    obtain ⟨height, trees, hbody, rfl, rfl⟩ := derives_nonterminal_iff.mp h
    exact nest hbody (ihbound height hle _ (Nat.le_refl height) hbody)
  | seq a b iha ihb =>
    intro n w ts hle h
    obtain ⟨_, _, _, _, _, _, ha, hb, rfl, rfl, rfl⟩ := derives_seq_iff.mp h
    exact seq ha hb (iha (by omega) ha) (ihb (by omega) hb)
  | branch next first second ihfirst ihsecond =>
    intro n w ts hle h
    rcases derives_alt_iff.mp h with h | h
    · exact yes h (ihfirst hle h)
    · exact no h (ihsecond hle h)
  | many next item ih =>
    intro n w ts hle h
    have hrest := Derives.star_induction
      (motive := fun m v us => m ≤ bound →
        ∃ h : Derives Grammar.matched (Rule.many next item).ebnf m v us,
          motive (.many next item) m v us h)
      (fun _ => ⟨.done, stop⟩)
      (fun hitem ihrest hle => by
        obtain ⟨hrest, hmotive⟩ := ihrest (by omega)
        exact ⟨.more hitem hrest, turn hitem hrest (ih (by omega) hitem) hmotive⟩) h hle
    exact hrest.2

/-! ## The tables are closed under the rules -/

set_option maxRecDepth 4000 in
theorem nullable_rule (production : Production) :
    (Grammar.rule production).nullable = true → production.nullable = true := by
  cases production <;> decide

set_option maxRecDepth 4000 in
theorem first_rule (production : Production) :
    ∀ t ∈ (Grammar.rule production).first, t ∈ production.first := by
  cases production <;> decide

set_option maxRecDepth 4000 in
/-- **The rule of every production is predictive.** -/
theorem predictive_rule (production : Production) :
    (Grammar.rule production).predictive production.follow = true := by
  cases production <;> decide

/-! ## The tables cover all derivations -/

theorem nullable_of_derives {rule : Rule} {n : Nat} {ts : List Tree}
    (h : Derives Grammar.matched rule.ebnf n [] ts) : rule.nullable = true := by
  generalize hw : ([] : List Word) = w at h
  induction h using Rule.derives_induction with
  | empty | probe | finish | stop | turn => rfl
  | take => exact absurd hw (by simp)
  | nest _ ih => exact nullable_rule _ (ih hw)
  | seq _ _ iha ihb =>
    obtain ⟨ha, hb⟩ := List.nil_eq_append_iff.mp hw
    simp only [Rule.nullable, iha ha.symm, ihb hb.symm, Bool.and_self]
  | yes _ ih => simp only [Rule.nullable, ih hw, Bool.true_or]
  | no _ ih => simp only [Rule.nullable, ih hw, Bool.or_true]

theorem mem_first_of_derives {rule : Rule} {n : Nat} {word : Word} {w : List Word}
    {ts : List Tree} (h : Derives Grammar.matched rule.ebnf n (word :: w) ts) :
    word.terminal ∈ rule.first := by
  generalize hw : word :: w = v at h
  induction h using Rule.derives_induction generalizing w with
  | empty | probe | finish | stop => exact absurd hw (by simp)
  | take hmem =>
    obtain ⟨rfl, -⟩ := List.cons.inj hw
    exact hmem
  | nest _ ih => exact first_rule _ _ (ih hw)
  | @seq a b _ _ v _ _ _ ha _ iha ihb =>
    rw [Rule.first]
    cases v with
    | nil =>
      rw [if_pos (nullable_of_derives ha)]
      exact List.mem_append_right _ (ihb hw)
    | cons head tail =>
      obtain ⟨rfl, -⟩ := List.cons.inj hw
      split
      · exact List.mem_append_left _ (iha rfl)
      · exact iha rfl
  | yes _ ih => exact List.mem_append_left _ (ih hw)
  | no _ ih => exact List.mem_append_right _ (ih hw)
  | @turn _ item _ _ v _ _ _ _ _ ihitem ihrest =>
    cases v with
    | nil => exact ihrest hw
    | cons head tail =>
      obtain ⟨rfl, -⟩ := List.cons.inj hw
      exact ihitem rfl

/-- **Where a rule starts, the next token is one of its `starts`.** -/
theorem lookahead_mem_starts {rule : Rule} {n : Nat} {w rest : List Word} {ts : List Tree}
    {behind : List (Option Terminal)} (h : Derives Grammar.matched rule.ebnf n w ts)
    (hrest : lookahead rest ∈ behind) : lookahead (w ++ rest) ∈ rule.starts behind := by
  cases w with
  | nil =>
    rw [Rule.starts, if_pos (nullable_of_derives h)]
    exact List.mem_append_right _ hrest
  | cons word w =>
    exact List.mem_append_left _ (List.mem_map_of_mem (mem_first_of_derives h))

/-! ## What a predictive rule decides -/

section Predictive

variable {behind : List (Option Terminal)} {production : Production} {a b yes no item : Rule}
  {next : TokenClass} {n : Nat} {w rest : List Word} {ts : List Tree}

theorem lookahead_mem_follow (hrule : (Rule.nest production).predictive behind = true)
    (hrest : lookahead rest ∈ behind) : lookahead rest ∈ production.follow := by
  simpa using List.all_eq_true.mp hrule _ hrest

theorem Rule.predictive_seq_iff :
    (Rule.seq a b).predictive behind = true ↔
      a.predictive (b.starts behind) = true ∧ b.predictive behind = true := by
  rw [Rule.predictive, Bool.and_eq_true]

/-- In front of what the first branch derives, the next token chooses that branch. -/
theorem admits_of_derives_yes (hrule : (Rule.branch next yes no).predictive behind = true)
    (h : Derives Grammar.matched yes.ebnf n w ts) (hrest : lookahead rest ∈ behind) :
    next.admits (lookahead (w ++ rest)) = true ∧ yes.predictive behind = true := by
  simp only [Rule.predictive, Bool.and_eq_true] at hrule
  exact ⟨List.all_eq_true.mp hrule.1.1.1 _ (lookahead_mem_starts h hrest), hrule.1.2⟩

/-- In front of what the second branch derives, the next token does not choose the first. -/
theorem not_admits_of_derives_no (hrule : (Rule.branch next yes no).predictive behind = true)
    (h : Derives Grammar.matched no.ebnf n w ts) (hrest : lookahead rest ∈ behind) :
    next.admits (lookahead (w ++ rest)) = false ∧ no.predictive behind = true := by
  simp only [Rule.predictive, Bool.and_eq_true] at hrule
  have hnext := List.all_eq_true.mp hrule.1.1.2 _ (lookahead_mem_starts h hrest)
  exact ⟨by simpa using hnext, hrule.2⟩

/-- What comes behind a repetition does not start another turn. -/
theorem not_admits_of_many (hrule : (Rule.many next item).predictive behind = true)
    (hrest : lookahead rest ∈ behind) : next.admits (lookahead rest) = false := by
  simp only [Rule.predictive, Bool.and_eq_true] at hrule
  simpa using List.all_eq_true.mp hrule.1.2 _ hrest

/-- In front of an item, the next token starts another turn. -/
theorem admits_of_derives_item (hrule : (Rule.many next item).predictive behind = true)
    (h : Derives Grammar.matched item.ebnf n w ts)
    (hrest : lookahead rest ∈ (Rule.many next item).starts behind) :
    next.admits (lookahead (w ++ rest)) = true ∧
      item.predictive ((Rule.many next item).starts behind) = true := by
  simp only [Rule.predictive, Bool.and_eq_true, Bool.not_eq_true'] at hrule
  obtain ⟨⟨⟨hnull, hadmits⟩, -⟩, hitem⟩ := hrule
  have hfirst := lookahead_mem_starts h hrest
  simp only [Rule.starts, hnull, Bool.false_eq_true, if_false, List.append_nil] at hfirst
  exact ⟨List.all_eq_true.mp hadmits _ hfirst, hitem⟩

end Predictive

end JackSyntax
