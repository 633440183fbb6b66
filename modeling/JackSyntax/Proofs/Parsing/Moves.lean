import JackSyntax.Cursor
import JackSyntax.Proofs.Runs

/-!
# The moves of a cursor

Two calls move a cursor, one token forward and one back; the others only look, and what fails moves
nothing. So the calls that were served tell where a cursor stands and whether it may step back.

## The model

* `Cursor.Call`: what may be asked of a cursor. `Call.run` asks it, and yields an `Answer`.
* `Cursor.Journey`: a cursor with the calls that it has served. `Journey.times` counts them,
  `Journey.lastMove?` is the latest of those that move.
* `Journey.Tracks tokens journey`: what the served calls tell of a cursor over these tokens.

## Results

* `Call.run_cases`: all that a call can do.
* **`Tracks.step`**, `tracks_ofCalls`: one call, then all of them.
* **`cursor_counts_its_moves`**: a cursor over any tokens after any calls.
-/

namespace JackSyntax

namespace Cursor

/-! ## Calls -/

/-- A call on a cursor. -/
inductive Call where
  | advance
  | pushback
  | peek
  | current
  | hasNext
deriving DecidableEq, Repr

/-- What a call that is served answers. -/
inductive Answer where
  | token (token : Token)
  /-- The next token, if there is one. -/
  | ahead (token? : Option Token)
  | yesOrNo (yes : Bool)
  | nothing
deriving DecidableEq, Repr

/-- The call moves the cursor when it is served. -/
def Call.moves : Call → Bool
  | advance | pushback => true
  | peek | current | hasNext => false

/-- Makes a call. -/
def Call.run : Call → EStateM CursorFault Cursor Answer
  | advance => return .token (← Cursor.advance)
  | pushback => do
    Cursor.pushback
    return .nothing
  | peek => fun cursor => .ok (.ahead cursor.peek) cursor
  | current => fun cursor =>
    match cursor.current with
    | .ok token => .ok (.token token) cursor
    | .error fault => .error fault cursor
  | hasNext => fun cursor => .ok (.yesOrNo cursor.hasNext) cursor

variable {cursor after : Cursor} {token : Token}

theorem advance_eq_error (h : cursor.peek = none) :
    Cursor.advance cursor = .error (.nothingNext cursor.position) cursor := by
  rw [Cursor.advance, h]

theorem pushback_eq_ok_iff :
    Cursor.pushback cursor = .ok () after ↔ cursor.returnable = true ∧ 1 < cursor.taken ∧
      after = { cursor with taken := cursor.taken - 1, returnable := false } := by
  unfold Cursor.pushback
  cases cursor.returnable <;> by_cases h : 1 < cursor.taken <;> simp [h, eq_comm]

theorem pushback_eq_error (h : ∀ after, Cursor.pushback cursor ≠ .ok () after) :
    Cursor.pushback cursor = .error (.nothingToReturn cursor.position) cursor := by
  unfold Cursor.pushback at h ⊢
  split
  · rename_i hguard
    rw [if_pos hguard] at h
    exact absurd rfl (h _)
  · rfl

/-- **All that a call can do**: take the next token, return the last one, look, or fail. -/
theorem Call.run_cases (call : Call) (cursor : Cursor) :
    (∃ token, call = advance ∧ cursor.peek = some token ∧ call.run cursor =
      .ok (.token token) { cursor with taken := cursor.taken + 1, returnable := true }) ∨
    (call = pushback ∧ cursor.returnable = true ∧ 1 < cursor.taken ∧ call.run cursor =
      .ok .nothing { cursor with taken := cursor.taken - 1, returnable := false }) ∨
    (call.moves = false ∧ ∃ answer, call.run cursor = .ok answer cursor) ∨
    ∃ fault, call.run cursor = .error fault cursor := by
  cases call with
  | advance =>
    cases hpeek : cursor.peek with
    | none =>
      have hadvance := advance_eq_error hpeek
      refine .inr (.inr (.inr ⟨.nothingNext cursor.position, ?_⟩))
      simp only [run, bind, EStateM.bind, hadvance]
    | some token =>
      have hadvance := advance_eq_ok_iff.mpr ⟨hpeek, rfl⟩
      refine .inl ⟨token, rfl, rfl, ?_⟩
      simp only [run, bind, EStateM.bind, hadvance]
      rfl
  | pushback =>
    by_cases h : ∃ after, Cursor.pushback cursor = .ok () after
    · obtain ⟨after, hpushback⟩ := h
      obtain ⟨hreturnable, htaken, rfl⟩ := pushback_eq_ok_iff.mp hpushback
      refine .inr (.inl ⟨rfl, hreturnable, htaken, ?_⟩)
      simp only [run, bind, EStateM.bind, hpushback]
      rfl
    · have hpushback := pushback_eq_error (not_exists.mp h)
      refine .inr (.inr (.inr ⟨.nothingToReturn cursor.position, ?_⟩))
      simp only [run, bind, EStateM.bind, hpushback]
  | peek => exact .inr (.inr (.inl ⟨rfl, _, rfl⟩))
  | current =>
    cases hcurrent : cursor.current with
    | ok token => exact .inr (.inr (.inl ⟨rfl, .token token, by simp only [run, hcurrent]⟩))
    | error fault => exact .inr (.inr (.inr ⟨fault, by simp only [run, hcurrent]⟩))
  | hasNext => exact .inr (.inr (.inl ⟨rfl, _, rfl⟩))

/-- **A call that fails moves nothing.** -/
theorem Call.eq_of_run_eq_error {call : Call} {fault : CursorFault}
    (h : call.run cursor = .error fault after) : after = cursor := by
  rcases call.run_cases cursor with
    ⟨_, -, -, hrun⟩ | ⟨-, -, -, hrun⟩ | ⟨-, _, hrun⟩ | ⟨_, hrun⟩ <;> rw [hrun] at h <;> cases h
  rfl

/-- A call that only looks moves nothing. -/
theorem Call.finalState_run {call : Call} (h : call.moves = false) :
    finalState (call.run cursor) = cursor := by
  rcases call.run_cases cursor with
    ⟨_, rfl, -, -⟩ | ⟨rfl, -, -, -⟩ | ⟨-, _, hrun⟩ | ⟨_, hrun⟩
  · cases h
  · cases h
  · rw [hrun, finalState]
  · rw [hrun, finalState]

/-! ## Journeys -/

/-- A cursor and the calls that it has served, latest first, with their answers. -/
structure Journey where
  cursor : Cursor
  served : List (Call × Answer) := []

namespace Journey

/-- One more call. -/
def call (journey : Journey) (call : Call) : Journey :=
  match call.run journey.cursor with
  | .ok answer next => ⟨next, (call, answer) :: journey.served⟩
  | .error _ next => ⟨next, journey.served⟩

/-- The calls one after the other, on a new cursor. -/
def ofCalls (tokens : List Token) (calls : List Call) : Journey :=
  calls.foldl call { cursor := .ofList tokens }

/-- How often the call was served. -/
def times (journey : Journey) (call : Call) : Nat :=
  journey.served.countP (·.1 = call)

/-- The latest call that moved the cursor, with its answer. -/
def lastMove? (journey : Journey) : Option (Call × Answer) :=
  journey.served.find? (·.1.moves)

theorem times_served (journey : Journey) (next : Cursor) (call : Call) (answer : Answer)
    (move : Call) : times ⟨next, (call, answer) :: journey.served⟩ move =
      journey.times move + if call = move then 1 else 0 := by
  simp [times, List.countP_cons]

/-- What the served calls tell of the cursor. -/
structure Tracks (tokens : List Token) (journey : Journey) : Prop where
  tokens_eq : journey.cursor.tokens = tokens.toArray
  taken_le : journey.cursor.taken ≤ tokens.length
  times_advance : journey.times .advance = journey.cursor.taken + journey.times .pushback
  /-- The token taken last is the current one. -/
  lastMove_of_returnable : journey.cursor.returnable = true →
    ∃ token, journey.lastMove? = some (.advance, .token token) ∧
      ∃ before, journey.cursor.taken = before + 1 ∧ tokens[before]? = some token
  returnable_of_lastMove : ∀ {answer}, journey.lastMove? = some (.advance, answer) →
    journey.cursor.returnable = true

namespace Tracks

variable {tokens : List Token} {journey : Journey}

theorem peek_eq (h : Tracks tokens journey) :
    journey.cursor.peek = tokens[journey.cursor.taken]? := by
  rw [Cursor.peek, h.tokens_eq, List.getElem?_toArray]

/-- **One call**, served or not. -/
theorem step (h : Tracks tokens journey) (call : Call) : Tracks tokens (journey.call call) := by
  rcases call.run_cases journey.cursor with
    ⟨token, rfl, hpeek, hrun⟩ | ⟨rfl, -, htaken, hrun⟩ | ⟨hmoves, answer, hrun⟩ | ⟨fault, hrun⟩ <;>
    rw [Journey.call, hrun]
  · rw [h.peek_eq] at hpeek
    have hless := (List.getElem?_eq_some_iff.mp hpeek).1
    refine ⟨h.tokens_eq, hless, ?_, fun _ => ⟨token, rfl, _, rfl, hpeek⟩, fun _ => rfl⟩
    rw [times_served, times_served, if_pos rfl, if_neg nofun, h.times_advance]
    exact Nat.add_right_comm _ _ _
  · refine ⟨h.tokens_eq, Nat.le_trans (Nat.sub_le _ _) h.taken_le, ?_, nofun, nofun⟩
    rw [times_served, times_served, if_neg nofun, if_pos rfl, h.times_advance]
    show _ = journey.cursor.taken - 1 + _
    omega
  · -- what only looks is neither counted nor the latest move
    have hadvance : call ≠ .advance := by rintro rfl; cases hmoves
    have hpushback : call ≠ .pushback := by rintro rfl; cases hmoves
    have hlast : lastMove? ⟨journey.cursor, (call, answer) :: journey.served⟩ =
        journey.lastMove? := by simp [lastMove?, hmoves]
    refine ⟨h.tokens_eq, h.taken_le, ?_, ?_, ?_⟩
    · rw [times_served, times_served, if_neg hadvance, if_neg hpushback]
      exact h.times_advance
    · rw [hlast]
      exact h.lastMove_of_returnable
    · rw [hlast]
      exact h.returnable_of_lastMove
  · exact h

/-! ### What is tracked tells what the cursor does -/

theorem position_bounds (h : Tracks tokens journey) :
    -1 ≤ journey.cursor.position ∧ journey.cursor.position ≤ tokens.length - 1 := by
  have htaken := h.taken_le
  rw [Cursor.position]
  omega

theorem position_eq (h : Tracks tokens journey) :
    journey.cursor.position = journey.times .advance - journey.times .pushback - 1 := by
  have htimes := h.times_advance
  rw [Cursor.position]
  omega

theorem advance_at_end (h : Tracks tokens journey)
    (hlast : journey.cursor.position = tokens.length - 1) :
    Cursor.advance journey.cursor =
      .error (.nothingNext journey.cursor.position) journey.cursor := by
  refine advance_eq_error ?_
  rw [h.peek_eq, List.getElem?_eq_none_iff]
  rw [Cursor.position] at hlast
  omega

theorem advance_before_end (h : Tracks tokens journey)
    (hlast : journey.cursor.position ≠ tokens.length - 1) :
    ∃ token after, journey.cursor.peek = some token ∧
      Cursor.advance journey.cursor = .ok token after ∧
      after.position = journey.cursor.position + 1 := by
  have hless : journey.cursor.taken < tokens.length := by
    have htaken := h.taken_le
    rw [Cursor.position] at hlast
    omega
  have hpeek : journey.cursor.peek = some tokens[journey.cursor.taken] := by
    rw [h.peek_eq, List.getElem?_eq_getElem hless]
  refine ⟨_, _, hpeek, advance_eq_ok_iff.mpr ⟨hpeek, rfl⟩, ?_⟩
  simp only [Cursor.position]
  omega

theorem pushback_iff (h : Tracks tokens journey) :
    (∃ after, Cursor.pushback journey.cursor = .ok () after) ↔
      1 ≤ journey.cursor.position ∧ ∃ answer, journey.lastMove? = some (.advance, answer) := by
  rw [Cursor.position]
  constructor
  · rintro ⟨after, hpushback⟩
    obtain ⟨hreturnable, hmore, -⟩ := pushback_eq_ok_iff.mp hpushback
    obtain ⟨token, hmove, -⟩ := h.lastMove_of_returnable hreturnable
    exact ⟨by omega, _, hmove⟩
  · rintro ⟨hmore, answer, hmove⟩
    exact ⟨_, pushback_eq_ok_iff.mpr ⟨h.returnable_of_lastMove hmove, by omega, rfl⟩⟩

/-- A token that is returned is taken again, and all is as before. -/
theorem advance_of_pushback (h : Tracks tokens journey) (after : Cursor)
    (hpushback : Cursor.pushback journey.cursor = .ok () after) :
    after.position = journey.cursor.position - 1 ∧
      ∃ token, journey.lastMove? = some (.advance, .token token) ∧
        Cursor.advance after = .ok token journey.cursor := by
  obtain ⟨hreturnable, hmore, rfl⟩ := pushback_eq_ok_iff.mp hpushback
  obtain ⟨token, hmove, before, htaken, htoken⟩ := h.lastMove_of_returnable hreturnable
  have hbefore : journey.cursor.taken - 1 = before := by omega
  refine ⟨?_, token, hmove, advance_eq_ok_iff.mpr ⟨?_, ?_⟩⟩
  · simp only [Cursor.position]
    omega
  · rw [Cursor.peek, hbefore, h.tokens_eq, List.getElem?_toArray, htoken]
  · rw [hbefore, ← htaken, ← hreturnable]

end Tracks

/-- **All calls**, one after the other, on a new cursor. -/
theorem tracks_ofCalls (tokens : List Token) (calls : List Call) :
    Tracks tokens (ofCalls tokens calls) := by
  suffices h : ∀ journey, Tracks tokens journey → Tracks tokens (calls.foldl call journey) from
    h _ ⟨rfl, Nat.zero_le _, rfl, nofun, nofun⟩
  induction calls with
  | nil => exact fun _ h => h
  | cons call calls ih => exact fun journey h => ih _ (h.step call)

end Journey

end Cursor

open Cursor

/-- **A cursor after any calls**, those that fail among them. It stands on one of its tokens or
before the first, one further on for each token taken and one back for each returned. It takes the
token that it sees next, and fails to exactly on the last one. It returns a token exactly when it
stands behind the first and has moved last by taking one, and then takes the same token again. Calls
that fail, and calls that only look, change nothing. -/
theorem cursor_counts_its_moves (tokens : List Token) (calls : List Call) :
    let journey := Journey.ofCalls tokens calls
    let cursor := journey.cursor
    (-1 ≤ cursor.position ∧ cursor.position ≤ tokens.length - 1) ∧
    cursor.position = journey.times .advance - journey.times .pushback - 1 ∧
    (cursor.position = tokens.length - 1 →
      Cursor.advance cursor = .error (.nothingNext cursor.position) cursor) ∧
    (cursor.position ≠ tokens.length - 1 → ∃ token after, cursor.peek = some token ∧
      Cursor.advance cursor = .ok token after ∧ after.position = cursor.position + 1) ∧
    ((∃ after, Cursor.pushback cursor = .ok () after) ↔
      1 ≤ cursor.position ∧ ∃ answer, journey.lastMove? = some (.advance, answer)) ∧
    (∀ after, Cursor.pushback cursor = .ok () after → after.position = cursor.position - 1 ∧
      ∃ token, journey.lastMove? = some (.advance, .token token) ∧
        Cursor.advance after = .ok token cursor) ∧
    ((∀ after, Cursor.pushback cursor ≠ .ok () after) →
      Cursor.pushback cursor = .error (.nothingToReturn cursor.position) cursor) ∧
    (∀ (call : Call) fault after, call.run cursor = .error fault after → after = cursor) ∧
    (∀ call : Call, call.moves = false → finalState (call.run cursor) = cursor) := by
  intro journey cursor
  have h : Journey.Tracks tokens journey := Journey.tracks_ofCalls tokens calls
  exact ⟨h.position_bounds, h.position_eq, h.advance_at_end, h.advance_before_end,
    h.pushback_iff, h.advance_of_pushback, pushback_eq_error,
    fun _ _ _ => Call.eq_of_run_eq_error, fun _ => Call.finalState_run⟩

/-- A second token is not returned. -/
example (first second : Token) :
    (Journey.ofCalls [first, second] [.advance, .advance, .pushback, .pushback]).cursor.position =
      0 := by
  rfl

end JackSyntax
