import JackSyntax.Session
import Mathlib.Data.List.Dedup

/-!
# Derivations in an extended context-free grammar

A grammar gives every production an expression: terminals, productions, sequences, alternatives and
repetitions. A derivation of an expression has a word list, the trees it builds, and a **height**,
the length of its longest chain of nested productions.

## The model

* `Terminal`: what a grammar can tell of a token. Keywords and symbols are told by their text, the
  other tokens by their kind alone.
* `Derives grammar e height words trees`: `e` derives `words` and builds `trees`.

## Results

* `derives_seq_iff`, `derives_alt_iff`, …: the inversion of each constructor; a repetition has
  `Derives.star_induction`.
* **`derives_products_iff`**: an expression derives what one of its `products` derives, a product
  being a sequence without alternatives. So two expressions with the same products derive the same
  (`SameProducts.derives_iff`), which is decidable for closed expressions.
-/

namespace JackSyntax

/-! ## Terminals -/

/-- A token as a grammar sees it. -/
inductive Terminal where
  | keyword (text : String)
  | symbol (text : String)
  | identifier
  | integerConstant
  | stringConstant
deriving DecidableEq, Repr

/-- The terminal that a word is an instance of. -/
def Word.terminal (word : Word) : Terminal :=
  match word.kind with
  | .keyword => .keyword word.text
  | .symbol => .symbol word.text
  | .identifier => .identifier
  | .integerConstant => .integerConstant
  | .stringConstant => .stringConstant

/-- The leaf of a word. -/
def Word.leaf (word : Word) : Tree :=
  .leaf word.kind.tag word.text

/-- A token without its place. -/
def Token.word (token : Token) : Word :=
  ⟨token.kind, token.text⟩

/-! ## Expressions and derivations -/

/-- The right-hand side of a production. -/
inductive Ebnf where
  | terminal (terminal : Terminal)
  | nonterminal (production : Production)
  | empty
  /-- No derivation at all. -/
  | never
  | seq (first second : Ebnf)
  | alt (first second : Ebnf)
  | star (item : Ebnf)
deriving DecidableEq, Repr

namespace Ebnf

/-- All of them in order. -/
def all (parts : List Ebnf) : Ebnf :=
  parts.foldr seq empty

/-- One of them. -/
def oneOf (choices : List Ebnf) : Ebnf :=
  choices.foldr alt never

/-- The expression or nothing. -/
def opt (e : Ebnf) : Ebnf :=
  alt e empty

/-- **Derivations.** A production adds one to the height of its right-hand side and wraps its
trees. -/
inductive Derives (grammar : Production → Ebnf) :
    Ebnf → Nat → List Word → List Tree → Prop
  | terminal (word : Word) : Derives grammar (.terminal word.terminal) 0 [word] [word.leaf]
  | nonterminal (production : Production) {height : Nat} {words : List Word} {trees : List Tree}
      (body : Derives grammar (grammar production) height words trees) :
      Derives grammar (.nonterminal production) (height + 1) words (production.wrap trees)
  | empty : Derives grammar .empty 0 [] []
  | seq {a b : Ebnf} {m n : Nat} {v w : List Word} {ts us : List Tree}
      (first : Derives grammar a m v ts) (second : Derives grammar b n w us) :
      Derives grammar (.seq a b) (max m n) (v ++ w) (ts ++ us)
  | left {a b : Ebnf} {n : Nat} {w : List Word} {ts : List Tree}
      (chosen : Derives grammar a n w ts) : Derives grammar (.alt a b) n w ts
  | right {a b : Ebnf} {n : Nat} {w : List Word} {ts : List Tree}
      (chosen : Derives grammar b n w ts) : Derives grammar (.alt a b) n w ts
  | done {a : Ebnf} : Derives grammar (.star a) 0 [] []
  | more {a : Ebnf} {m n : Nat} {v w : List Word} {ts us : List Tree}
      (item : Derives grammar a m v ts) (rest : Derives grammar (.star a) n w us) :
      Derives grammar (.star a) (max m n) (v ++ w) (ts ++ us)

variable {grammar : Production → Ebnf} {a b c e : Ebnf} {n : Nat} {w : List Word}
  {ts : List Tree}

/-! ### Inversion -/

theorem derives_terminal_iff {t : Terminal} :
    Derives grammar (.terminal t) n w ts ↔
      ∃ word : Word, word.terminal = t ∧ n = 0 ∧ w = [word] ∧ ts = [word.leaf] := by
  constructor
  · intro h
    cases h with
    | terminal word => exact ⟨word, rfl, rfl, rfl, rfl⟩
  · rintro ⟨word, rfl, rfl, rfl, rfl⟩
    exact .terminal word

theorem derives_nonterminal_iff {production : Production} :
    Derives grammar (.nonterminal production) n w ts ↔
      ∃ height trees, Derives grammar (grammar production) height w trees ∧
        n = height + 1 ∧ ts = production.wrap trees := by
  constructor
  · intro h
    cases h with
    | nonterminal _ body => exact ⟨_, _, body, rfl, rfl⟩
  · rintro ⟨height, trees, body, rfl, rfl⟩
    exact .nonterminal production body

theorem derives_empty_iff : Derives grammar .empty n w ts ↔ n = 0 ∧ w = [] ∧ ts = [] := by
  constructor
  · intro h
    cases h
    exact ⟨rfl, rfl, rfl⟩
  · rintro ⟨rfl, rfl, rfl⟩
    exact .empty

theorem not_derives_never : ¬ Derives grammar .never n w ts := nofun

theorem derives_seq_iff :
    Derives grammar (.seq a b) n w ts ↔
      ∃ m k v u ps qs, Derives grammar a m v ps ∧ Derives grammar b k u qs ∧
        n = max m k ∧ w = v ++ u ∧ ts = ps ++ qs := by
  constructor
  · intro h
    cases h with
    | seq first second => exact ⟨_, _, _, _, _, _, first, second, rfl, rfl, rfl⟩
  · rintro ⟨m, k, v, u, ps, qs, first, second, rfl, rfl, rfl⟩
    exact .seq first second

theorem derives_alt_iff :
    Derives grammar (.alt a b) n w ts ↔ Derives grammar a n w ts ∨ Derives grammar b n w ts := by
  constructor
  · intro h
    cases h with
    | left chosen => exact .inl chosen
    | right chosen => exact .inr chosen
  · rintro (h | h)
    · exact .left h
    · exact .right h

/-- Induction on the items of a repetition. -/
theorem Derives.star_induction {motive : Nat → List Word → List Tree → Prop}
    (done : motive 0 [] [])
    (more : ∀ {m n v w ts us}, Derives grammar a m v ts → motive n w us →
      motive (max m n) (v ++ w) (ts ++ us))
    (h : Derives grammar (.star a) n w ts) : motive n w ts := by
  generalize hs : Ebnf.star a = s at h
  induction h with
  | done => exact done
  | more item _ _ ih =>
    cases hs
    exact more item (ih rfl)
  | _ => cases hs

/-- A repetition keeps its derivations when each item of at most their height keeps its own. -/
theorem Derives.star_map {grammar' : Production → Ebnf} {n : Nat}
    (hitem : ∀ {m v us}, m ≤ n → Derives grammar a m v us → Derives grammar' b m v us)
    (h : Derives grammar (.star a) n w ts) : Derives grammar' (.star b) n w ts := by
  refine Derives.star_induction (motive := fun m v us => m ≤ n → Derives grammar' (.star b) m v us)
    (fun _ => .done) (fun {m k _ _ _ _} item ih hle => ?_) h (Nat.le_refl n)
  have hm : m ≤ n := Nat.le_trans (Nat.le_max_left m k) hle
  have hk : k ≤ n := Nat.le_trans (Nat.le_max_right m k) hle
  exact .more (hitem hm item) (ih hk)

/-! ### Sequences and alternatives of many parts -/

theorem derives_empty_seq_iff :
    Derives grammar (.seq .empty e) n w ts ↔ Derives grammar e n w ts := by
  simp [derives_seq_iff, derives_empty_iff]

theorem derives_seq_empty_iff :
    Derives grammar (.seq e .empty) n w ts ↔ Derives grammar e n w ts := by
  simp [derives_seq_iff, derives_empty_iff]

theorem derives_seq_assoc_iff :
    Derives grammar (.seq (.seq a b) c) n w ts ↔ Derives grammar (.seq a (.seq b c)) n w ts := by
  constructor
  · intro h
    obtain ⟨_, _, _, _, _, _, hab, hc, rfl, rfl, rfl⟩ := derives_seq_iff.mp h
    obtain ⟨_, _, _, _, _, _, ha, hb, rfl, rfl, rfl⟩ := derives_seq_iff.mp hab
    rw [Nat.max_assoc, List.append_assoc, List.append_assoc]
    exact .seq ha (.seq hb hc)
  · intro h
    obtain ⟨_, _, _, _, _, _, ha, hbc, rfl, rfl, rfl⟩ := derives_seq_iff.mp h
    obtain ⟨_, _, _, _, _, _, hb, hc, rfl, rfl, rfl⟩ := derives_seq_iff.mp hbc
    rw [← Nat.max_assoc, ← List.append_assoc, ← List.append_assoc]
    exact .seq (.seq ha hb) hc

theorem derives_seq_congr {a' b' : Ebnf}
    (ha : ∀ {n w ts}, Derives grammar a n w ts ↔ Derives grammar a' n w ts)
    (hb : ∀ {n w ts}, Derives grammar b n w ts ↔ Derives grammar b' n w ts) :
    Derives grammar (.seq a b) n w ts ↔ Derives grammar (.seq a' b') n w ts := by
  simp only [derives_seq_iff, ha, hb]

theorem derives_all_append_iff {first second : List Ebnf} :
    Derives grammar (all (first ++ second)) n w ts ↔
      Derives grammar (.seq (all first) (all second)) n w ts := by
  induction first generalizing n w ts with
  | nil => exact derives_empty_seq_iff.symm
  | cons head tail ih =>
    rw [all, all, List.cons_append, List.foldr_cons, List.foldr_cons, derives_seq_assoc_iff]
    exact derives_seq_congr Iff.rfl ih

theorem derives_oneOf_iff {choices : List Ebnf} :
    Derives grammar (oneOf choices) n w ts ↔ ∃ e ∈ choices, Derives grammar e n w ts := by
  induction choices with
  | nil => simp [oneOf, not_derives_never]
  | cons head tail ih =>
    rw [oneOf, List.foldr_cons, derives_alt_iff, List.exists_mem_cons_iff]
    exact or_congr Iff.rfl ih

/-! ## Products -/

/-- The sequences without alternatives that an expression stands for. The item of a repetition is
brought to the sum of its own. -/
def products : Ebnf → List (List Ebnf)
  | terminal t => [[terminal t]]
  | nonterminal production => [[nonterminal production]]
  | empty => [[]]
  | never => []
  | seq a b => a.products.flatMap fun first => b.products.map (first ++ ·)
  | alt a b => a.products ++ b.products
  | star a => [[star (oneOf (a.products.dedup.map all))]]

/-- Expressions with the same products, in any order. -/
def SameProducts (a b : Ebnf) : Prop :=
  (∀ product ∈ a.products, product ∈ b.products) ∧ ∀ product ∈ b.products, product ∈ a.products

instance (a b : Ebnf) : Decidable (SameProducts a b) :=
  inferInstanceAs (Decidable (_ ∧ _))

/-- **An expression derives what one of its products derives.** -/
theorem derives_products_iff :
    Derives grammar e n w ts ↔ ∃ product ∈ e.products, Derives grammar (all product) n w ts := by
  induction e generalizing n w ts with
  | terminal t => simp [products, all, derives_seq_empty_iff]
  | nonterminal production => simp [products, all, derives_seq_empty_iff]
  | empty => simp [products, all]
  | never => simp [products, not_derives_never]
  | seq a b iha ihb =>
    simp only [products, List.mem_flatMap, List.mem_map]
    constructor
    · intro h
      obtain ⟨_, _, _, _, _, _, ha, hb, rfl, rfl, rfl⟩ := derives_seq_iff.mp h
      obtain ⟨first, hfirst, ha⟩ := iha.mp ha
      obtain ⟨second, hsecond, hb⟩ := ihb.mp hb
      exact ⟨_, ⟨first, hfirst, second, hsecond, rfl⟩, derives_all_append_iff.mpr (.seq ha hb)⟩
    · rintro ⟨_, ⟨first, hfirst, second, hsecond, rfl⟩, h⟩
      obtain ⟨_, _, _, _, _, _, ha, hb, rfl, rfl, rfl⟩ :=
        derives_seq_iff.mp (derives_all_append_iff.mp h)
      exact .seq (iha.mpr ⟨first, hfirst, ha⟩) (ihb.mpr ⟨second, hsecond, hb⟩)
  | alt a b iha ihb =>
    rw [derives_alt_iff, iha, ihb]
    simp only [products, List.mem_append, or_and_right, exists_or]
  | star a ih =>
    have hitem : ∀ {n w ts}, Derives grammar (oneOf (a.products.dedup.map all)) n w ts ↔
        Derives grammar a n w ts := by
      intro n w ts
      rw [derives_oneOf_iff, ih]
      simp only [List.mem_map, List.mem_dedup, exists_exists_and_eq_and]
    simp only [products, List.mem_singleton, exists_eq_left, all, List.foldr_cons, List.foldr_nil,
      derives_seq_empty_iff]
    exact ⟨.star_map fun _ h => hitem.mpr h, .star_map fun _ h => hitem.mp h⟩

theorem SameProducts.derives_iff (h : SameProducts a b) :
    Derives grammar a n w ts ↔ Derives grammar b n w ts := by
  rw [derives_products_iff (e := a), derives_products_iff (e := b)]
  constructor
  · rintro ⟨product, hmem, hd⟩
    exact ⟨product, h.1 product hmem, hd⟩
  · rintro ⟨product, hmem, hd⟩
    exact ⟨product, h.2 product hmem, hd⟩

end Ebnf

end JackSyntax
