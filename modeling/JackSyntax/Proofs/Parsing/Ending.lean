import JackSyntax.Proofs.Parsing.Simulation

/-!
# How matching a production ends

A production that is matched on its own, from any cursor, yields a node or is rejected. The cursor
is asked for nothing that it cannot give; it ends where it started or further on, in front of the
token that an error tells. What was open before is open again, nothing more and nothing less.

## Results

* `Session.parse_eq_ok_iff_wrap`: a production on its own yields a node of the children that it
  contributes inside another.
* `Session.Passes.peek_eq`: the next token where matching ended.
* **`production_ends_cleanly`**: the two ways in which it ends, and what is left of the session.
-/

namespace JackSyntax

open Session

/-- What a production contributes tells its children. -/
theorem Production.wrap_injective {production : Production} {ts us : List Tree}
    (h : production.wrap ts = production.wrap us) : ts = us := by
  unfold wrap at h
  cases htag : production.tag? with
  | none => simpa only [htag] using h
  | some tag => simpa [htag] using h

namespace Session

variable {production : Production} {before after : Session}

/-- What a nested production yields is made of its children. -/
theorem exists_wrap_of_nested {room : Nat} {trees : List Tree}
    (h : nested room production before = .ok trees after) :
    ∃ children, trees = production.wrap children := by
  simp only [nested, bind, EStateM.bind, pure, EStateM.pure] at h
  cases hforest : forest room production before with
  | ok children last =>
    rw [hforest] at h
    obtain ⟨rfl, -⟩ := EStateM.Result.ok.inj h
    exact ⟨children, rfl⟩
  | error failure last =>
    rw [hforest] at h
    cases h

/-- **A production on its own yields a node** of the children that it contributes elsewhere. -/
theorem parse_eq_ok_iff_wrap {tree : Tree} :
    parse production before = .ok tree after ↔
      ∃ children, tree = .node (production.tag?.getD production.name) children ∧
        nested before.room production before = .ok (production.wrap children) after := by
  simp only [parse, nested, room, bind, EStateM.bind, pure, EStateM.pure]
  cases forest (Vocabulary.deepestNesting - before.enclosing.length) production before with
  | ok children last =>
    constructor
    · intro h
      obtain ⟨rfl, rfl⟩ := EStateM.Result.ok.inj h
      exact ⟨children, rfl, rfl⟩
    · rintro ⟨_, rfl, h⟩
      obtain ⟨hwrap, rfl⟩ := EStateM.Result.ok.inj h
      rw [Production.wrap_injective hwrap]
  | error failure last => simp

/-- The next token where matching ended is the one behind those that were passed. -/
theorem Passes.peek_eq {passed : List Word} (h : before.Passes passed after) :
    after.cursor.peek = before.cursor.remaining[passed.length]? := by
  unfold Cursor.peek Cursor.remaining
  rw [h.tokens, h.taken, List.getElem?_drop, Array.getElem?_toList]

theorem Passes.position_le {passed : List Word} (h : before.Passes passed after) :
    before.cursor.position ≤ after.cursor.position := by
  have htaken := h.taken
  unfold Cursor.position
  omega

end Session

/-- **Every production ends cleanly.** From any cursor, also behind the last token, and whether or
not a token may be returned, matching yields a node or rejects the tokens; the cursor is never
misused. Either way the productions that were open before are open again (none, when there were
none), and the cursor has not moved back. An error tells the index behind the cursor and the token
there, if there is one. -/
theorem production_ends_cleanly (production : Production) (before : Session) :
    ∃ after,
      ((∃ children, parse production before =
          .ok (.node (production.tag?.getD production.name) children) after) ∨
        ∃ error, parse production before = .error (.rejected error) after ∧
          (error.index : Int) = after.cursor.position + 1 ∧
          error.token = after.cursor.tokens[error.index]?) ∧
      after.enclosing = before.enclosing ∧
      after.cursor.tokens = before.cursor.tokens ∧
      before.cursor.position ≤ after.cursor.position := by
  obtain ⟨outcome, passed, after, hrun, -, hpass⟩ := nested_answers before.room production before
  refine ⟨after, ?_, hpass.enclosing, hpass.tokens, hpass.position_le⟩
  cases outcome with
  | matched trees =>
    obtain ⟨children, rfl⟩ := exists_wrap_of_nested hrun
    exact .inl ⟨children, parse_eq_ok_iff_wrap.mpr ⟨children, rfl, hrun⟩⟩
  | rejected cause chain =>
    exact .inr ⟨_, parse_eq_error_iff.mpr hrun, (Int.sub_add_cancel _ 1).symm, rfl⟩

end JackSyntax
