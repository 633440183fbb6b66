import JackSyntax.Document

/-!
# The artifacts of a source text

Every source text gives two documents, the listing of its tokens and its parse tree, or the first
reason why it does not.

Headlines:
* `Artifacts.ofTokens` writes both documents of a token list, as far as their margins can be
  counted.
* `Artifacts.ofSource` writes both documents of a source text.
-/

namespace JackSyntax

/-- Why a source text has no artifacts. -/
inductive SourceFault where
  | lexical (error : LexError)
  | unmatched (failure : Failure)
  | unwritten (fault : WalkFault)
deriving Repr

/-- The two documents of a source text. -/
structure Artifacts where
  listing : String
  tree : String
deriving DecidableEq, Repr

/-- The tree of a source text. -/
def Tree.ofSource (source : String) : Except SourceFault Tree :=
  match Token.scan source with
  | .error error => .error (.lexical error)
  | .ok tokens => (Tree.ofTokens tokens).mapError .unmatched

namespace Artifacts

/-- The documents of a token list. -/
def ofTokens (target : Target) (indent : Option Int) (tokens : List Token) :
    Except SourceFault Artifacts := do
  (Document.checkMargins target indent (Document.listingTree tokens)).mapError .unwritten
  let listing ← (Document.listing target indent tokens).mapError .unwritten
  let tree ← (Tree.ofTokens tokens).mapError .unmatched
  (Document.checkMargins target indent tree).mapError .unwritten
  let text ← (Document.ofTree target indent tree).mapError .unwritten
  return ⟨listing, text⟩

/-- The documents of a source text. -/
def ofSource (target : Target) (indent : Option Int) (source : String) :
    Except SourceFault Artifacts := do
  let tokens ← (Token.scan source).mapError .lexical
  ofTokens target indent tokens

end Artifacts

end JackSyntax
