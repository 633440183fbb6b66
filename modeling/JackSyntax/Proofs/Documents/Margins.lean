import JackSyntax.Proofs.Documents.Recovery

/-!
# Margins that can be counted

A margin is laid out when its width is an index. Productions nest only so deep, and so do the tags
of a parse tree; so it is enough to look at the margin of the deepest line there can be.

## Results

* `Ebnf.Derives.depthInside_le`: the trees of a derivation are no deeper than the derivation is
  high.
* **`Tree.depth_le_of_ofTokens`**: how deep a parse tree is.
* `Document.isIndex_mul_of_le`: a margin that is less deep is less wide.
* `Document.fits_of_depth_le`, **`Document.fits_of_ofTokens`**: indentations that are laid out.
* `Document.exists_of_not_fits`: what is refused is an indentation with a margin that is no index.
* **`Artifacts.ofTokens_of_not_isIndex`**: an indentation that is no index itself is refused for any
  tokens.
-/

namespace JackSyntax

/-! ## The depth of a parse tree -/

theorem Tree.depthInside_append (ts us : List Tree) :
    depthInside (ts ++ us) = max (depthInside ts) (depthInside us) := by
  induction ts with
  | nil => simp only [List.nil_append, depthInside, Nat.zero_max]
  | cons tree rest ih => rw [List.cons_append, depthInside, depthInside, ih, Nat.max_assoc]

theorem Production.depthInside_wrap_le (production : Production) (ts : List Tree) :
    Tree.depthInside (production.wrap ts) ≤ Tree.depthInside ts + 1 := by
  unfold wrap
  split
  · simp only [Tree.depthInside, Tree.depth, Nat.max_zero, Nat.le_refl]
  · exact Nat.le_succ _

/-- The trees of a derivation are no deeper than the derivation is high. -/
theorem Ebnf.Derives.depthInside_le {grammar : Production → Ebnf} {e : Ebnf} {n : Nat}
    {w : List Word} {ts : List Tree} (h : Derives grammar e n w ts) :
    Tree.depthInside ts ≤ n + 1 := by
  induction h with
  | terminal word => exact Nat.le_refl 1
  | nonterminal production _ ih =>
    exact Nat.le_trans (production.depthInside_wrap_le _) (Nat.succ_le_succ ih)
  | empty | done => exact Nat.zero_le 1
  | seq _ _ ihfirst ihsecond | more _ _ ihfirst ihsecond =>
    rw [Tree.depthInside_append]
    omega
  | left _ ih | right _ ih => exact ih

/-- **A parse tree is no deeper than productions may be nested.** -/
theorem Tree.depth_le_of_ofTokens {tokens : List Token} {tree : Tree}
    (h : Tree.ofTokens tokens = .ok tree) : tree.depth ≤ Vocabulary.deepestNesting := by
  obtain ⟨height, hle, hd⟩ := derives_of_ofTokens h
  have hdepth := hd.depthInside_le
  rw [depthInside, depthInside, Nat.max_zero] at hdepth
  exact Nat.le_trans (Nat.le_of_succ_le_succ hdepth) hle

/-- The lines of a listing are directly inside its one tag. -/
theorem Document.depth_listingTree {tokens : List Token} (h : tokens ≠ []) :
    (listingTree tokens).depth = 1 := by
  have hinside : ∀ rest : List Token, Tree.depthInside (rest.map .ofToken) ≤ 1 := by
    intro rest
    induction rest with
    | nil => exact Nat.zero_le 1
    | cons token rest ih => exact Nat.max_le.mpr ⟨Nat.le_refl 1, ih⟩
  cases tokens with
  | nil => exact absurd rfl h
  | cons token rest => exact Nat.max_eq_left (hinside rest)

theorem Document.depth_listingTree_le (tokens : List Token) : (listingTree tokens).depth ≤ 1 := by
  cases tokens with
  | nil => exact Nat.zero_le 1
  | cons token rest => exact Nat.le_of_eq (depth_listingTree (List.cons_ne_nil token rest))

/-! ## Indentations that are laid out, or refused -/

namespace Document

variable {target : Target} {indent : Option Int} {tokens : List Token} {tree : Tree}

theorem isIndex_iff {number : Int} : isIndex number = true ↔
    -0x8000000000000000 ≤ number ∧ number < 0x8000000000000000 :=
  decide_eq_true_iff

/-- A margin that is less deep is less wide, to whichever side it goes. -/
theorem isIndex_mul_of_le {width : Int} {shallow deep : Nat} (h : isIndex (width * deep) = true)
    (hle : shallow ≤ deep) : isIndex (width * shallow) = true := by
  have hdepth : (shallow : Int) ≤ deep := Int.ofNat_le.mpr hle
  rw [isIndex_iff] at h ⊢
  rcases Int.le_total 0 width with hright | hleft
  · have hstart : 0 ≤ width * shallow := Int.mul_nonneg hright (Int.natCast_nonneg shallow)
    have hend := Int.mul_le_mul_of_nonneg_left hdepth hright
    omega
  · have hstart : width * shallow ≤ 0 := Int.mul_nonpos_of_nonpos_of_nonneg hleft
      (Int.natCast_nonneg shallow)
    have hend := Int.mul_le_mul_of_nonpos_left hleft hdepth
    omega

/-- Margins can be counted when the widest one can. -/
theorem fits_of_depth_le {deepest : Nat}
    (h : ∀ width, indent = some width → isIndex (width * deepest) = true) (hsome : 1 ≤ deepest)
    (hdepth : tree.depth ≤ deepest) : fits target indent tree = true := by
  cases indent with
  | none => cases target <;> rfl
  | some width =>
    cases target with
    | xml => exact isIndex_mul_of_le (h width rfl) hdepth
    | json =>
      have hstep := isIndex_mul_of_le (h width rfl) hsome
      rwa [Int.natCast_one, Int.mul_one] at hstep

/-- **Margins of both documents can be counted** when those of the deepest nesting can. -/
theorem fits_of_ofTokens (target : Target)
    (h : ∀ width, indent = some width → isIndex (width * Vocabulary.deepestNesting) = true)
    (htree : Tree.ofTokens tokens = .ok tree) :
    fits target indent (listingTree tokens) = true ∧ fits target indent tree = true :=
  ⟨fits_of_depth_le h (by decide) (Nat.le_trans (depth_listingTree_le tokens) (by decide)),
    fits_of_depth_le h (by decide) (Tree.depth_le_of_ofTokens htree)⟩

/-- When margins cannot be counted, the widest one cannot. -/
theorem exists_of_not_fits {deepest : Nat} (h : fits target indent tree = false)
    (hsome : 1 ≤ deepest) (hdepth : tree.depth ≤ deepest) :
    ∃ width, indent = some width ∧ isIndex (width * deepest) = false := by
  cases indent with
  | none => cases target <;> cases h
  | some width =>
    refine ⟨width, rfl, ?_⟩
    cases hwidest : isIndex (width * deepest) with
    | false => rfl
    | true =>
      rw [fits_of_depth_le (fun found hfound => Option.some.inj hfound ▸ hwidest) hsome hdepth] at h
      cases h

theorem checkMargins_eq_ok_iff {value : Unit} :
    checkMargins target indent tree = .ok value ↔ fits target indent tree = true := by
  unfold checkMargins
  split <;> simp [*]

theorem checkMargins_of_not_fits (h : fits target indent tree = false) :
    checkMargins target indent tree = .error (.refused .tooWide) := by
  rw [checkMargins, h, if_neg Bool.false_ne_true]

/-- The margins of a listing cannot be counted when those of its lines cannot. -/
theorem fits_listingTree_of_not_isIndex {width : Int} (target : Target)
    (h : isIndex width = false) (hsome : tokens ≠ []) :
    fits target (some width) (listingTree tokens) = false := by
  cases target with
  | json => exact h
  | xml =>
    rw [fits, depth_listingTree hsome, Int.natCast_one, Int.mul_one]
    exact h

end Document

namespace Artifacts

variable {target : Target} {indent : Option Int} {tokens : List Token}

theorem ofTokens_of_not_fits
    (h : Document.fits target indent (Document.listingTree tokens) = false) :
    ofTokens target indent tokens = .error (.unwritten (.refused .tooWide)) := by
  rw [ofTokens, Document.checkMargins_of_not_fits h]
  rfl

/-- **An indentation that is no index is refused**, whatever the tokens. -/
theorem ofTokens_of_not_isIndex {width : Int} (h : Document.isIndex width = false)
    (hsome : tokens ≠ []) :
    ofTokens target (some width) tokens = .error (.unwritten (.refused .tooWide)) :=
  ofTokens_of_not_fits (Document.fits_listingTree_of_not_isIndex target h hsome)

end Artifacts

/-- The first number that is no index. -/
example : Document.isIndex (-9223372036854775808) = true ∧
    Document.isIndex (-9223372036854775809) = false := by decide

end JackSyntax
