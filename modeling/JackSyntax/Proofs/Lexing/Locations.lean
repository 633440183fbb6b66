import JackSyntax.Proofs.Lexing.Splitting
import JackSyntax.Proofs.Runs

/-!
# Where a reader is

A reader counts lines and columns one character at a time, and its operations move it by loops that
may stop anywhere. All of them only skip characters, so after any of them, failed or not, the place
is the one that the passed characters tell at once.

## The model

* `Reader.Operation`: what may be done with a reader, in any order. `Operation.leave` is the reader
  behind it, whether it has succeeded or failed.
* `Reader.Skips reading`: the operation leaves every reader some characters further on.
* `Reader.Located source reader`: the reader is inside this text, at the place behind what it has
  passed.

## Results

* `skip_skip`: skipping twice is skipping once.
* `skips_tokens`, **`Operation.skips`**: every operation only skips.
* **`Located.leave`**, `located_afterAll`: one operation, then all of them.
* **`reader_knows_its_place`**: a reader after any operations.
-/

namespace JackSyntax

namespace Reader

variable {reader : Reader}

/-! ## Skipping -/

theorem skip_eq_self (h : reader.ahead = []) (count : Nat) : reader.skip count = reader := by
  cases count with
  | zero => rfl
  | succ count => rw [skip, h]

theorem skip_skip (m n : Nat) (reader : Reader) :
    (reader.skip m).skip n = reader.skip (m + n) := by
  fun_induction skip m reader with
  | case1 => rw [Nat.zero_add]
  | case2 m reader h => rw [skip_eq_self h, skip_eq_self h]
  | case3 m reader c rest h ih => rw [ih, Nat.succ_add, skip, h]

/-- The operation leaves every reader some characters further on. -/
def Skips {α : Type} (reading : Reader → EStateM.Result LexError Reader α) : Prop :=
  ∀ reader, ∃ count, finalState (reading reader) = reader.skip count

theorem skips_advance : Skips advance := by
  intro reader
  unfold advance
  split
  · exact ⟨0, rfl⟩
  · exact ⟨1, rfl⟩

theorem skips_takeWhile (accept : Char → Bool) : Skips (takeWhile accept) :=
  fun _ => ⟨_, rfl⟩

theorem skips_skipGap : Skips skipGap := by
  intro reader
  unfold skipGap
  split
  · exact ⟨_, rfl⟩
  · exact ⟨_, rfl⟩

theorem skips_skipBlockComment : Skips skipBlockComment := by
  intro reader
  unfold skipBlockComment
  split
  · split
    · exact ⟨_, rfl⟩
    · exact ⟨_, rfl⟩
  · exact ⟨_, rfl⟩

/-- A lexeme is passed also when it is malformed. -/
theorem skips_read (shape : List Char → Lexeme) (start : Reader → Place) :
    Skips fun reader => read (shape reader.ahead) (start reader) reader := by
  intro reader
  refine ⟨(shape reader.ahead).length, ?_⟩
  cases hword : (shape reader.ahead).word with
  | ok word => simp only [read, hword, finalState]
  | error cause => simp only [read, hword, finalState]

theorem skips_nextToken : Skips nextToken := by
  intro reader
  obtain ⟨count, hgap⟩ := skips_skipGap reader
  cases hskip : skipGap reader with
  | error error stopped =>
    rw [hskip] at hgap
    exact ⟨count, by rw [nextToken, hskip]; exact hgap⟩
  | ok _ behind =>
    rw [hskip] at hgap
    cases hahead : behind.ahead with
    | nil => exact ⟨count, by simp only [nextToken, hskip, hahead]; exact hgap⟩
    | cons c rest =>
      obtain ⟨more, hread⟩ := skips_read (fun _ => lexemeAt c rest) place behind
      refine ⟨count + more, ?_⟩
      rw [← skip_skip, ← hgap, finalState, ← hread]
      cases hlexeme : read (lexemeAt c rest) behind.place behind with
      | ok token after => simp only [nextToken, hskip, hahead, hlexeme, finalState]
      | error error stopped => simp only [nextToken, hskip, hahead, hlexeme, finalState]

/-- One token after the other, up to the end or to the first that is malformed. -/
theorem skips_tokens : Skips tokens := by
  intro reader
  fun_induction tokens reader with
  | case1 reader error stopped hstep | case2 reader last hstep =>
    have hmoved := skips_nextToken reader
    rwa [hstep] at hmoved
  | case3 reader token following hstep rest last htokens ih
  | case4 reader token following hstep error stopped htokens ih =>
    have hmoved := skips_nextToken reader
    rw [hstep] at hmoved
    rw [htokens] at ih
    obtain ⟨count, hfollowing⟩ := hmoved
    obtain ⟨more, hlast⟩ := ih
    exact ⟨count + more, by rw [← skip_skip, ← hfollowing]; exact hlast⟩

/-! ## Operations -/

/-- What may be done with a reader. -/
inductive Operation where
  | peek (offset : Int)
  | atEnd
  | advance
  | takeWhile (accept : Char → Bool)
  | skipGap
  | skipBlockComment
  | readString
  | readInteger
  | readWord
  /-- A lexeme of any shape, for a token that is said to stand at any place. -/
  | read (shape : List Char → Lexeme) (start : Place)
  | nextToken
  | tokens

/-- The reader behind an operation, whether it has succeeded or failed. What only looks leaves the
reader alone. -/
def Operation.leave : Operation → Reader → Reader
  | peek _, reader | atEnd, reader => reader
  | advance, reader => finalState (Reader.advance reader)
  | takeWhile accept, reader => finalState (Reader.takeWhile accept reader)
  | skipGap, reader => finalState (Reader.skipGap reader)
  | skipBlockComment, reader => finalState (Reader.skipBlockComment reader)
  | readString, reader => finalState (Reader.readString reader)
  | readInteger, reader => finalState (Reader.readInteger reader)
  | readWord, reader => finalState (Reader.readWord reader)
  | read shape start, reader => finalState (Reader.read (shape reader.ahead) start reader)
  | nextToken, reader => finalState (Reader.nextToken reader)
  | tokens, reader => finalState (Reader.tokens reader)

/-- The operations one after the other, on a new reader. -/
def afterAll (source : String) (operations : List Operation) : Reader :=
  operations.foldl (fun reader operation => operation.leave reader) (.ofString source)

/-- **Every operation only skips.** -/
theorem Operation.skips (operation : Operation) (reader : Reader) :
    ∃ count, operation.leave reader = reader.skip count := by
  cases operation with
  | peek offset => exact ⟨0, rfl⟩
  | atEnd => exact ⟨0, rfl⟩
  | advance => exact skips_advance reader
  | takeWhile accept => exact skips_takeWhile accept reader
  | skipGap => exact skips_skipGap reader
  | skipBlockComment => exact skips_skipBlockComment reader
  | readString => exact skips_read .string place reader
  | readInteger => exact skips_read .integer place reader
  | readWord => exact skips_read .name place reader
  | read shape start => exact skips_read shape (fun _ => start) reader
  | nextToken => exact skips_nextToken reader
  | tokens => exact skips_tokens reader

/-! ## Places -/

/-- The reader is inside this text, at the place behind what it has passed. -/
structure Located (source : List Char) (reader : Reader) : Prop where
  source_eq : reader.source = source
  place_eq : reader.place = .behind reader.behind.reverse

namespace Located

variable {source : List Char}

theorem skip (h : Located source reader) (count : Nat) : Located source (reader.skip count) where
  source_eq := by rw [source_skip, h.source_eq]
  place_eq := by
    rw [place_skip, h.place_eq, Place.afterAll_behind, behind_skip, List.reverse_append,
      List.reverse_reverse]

/-- **One operation**, whether it has succeeded or failed. -/
theorem leave (h : Located source reader) (operation : Operation) :
    Located source (operation.leave reader) := by
  obtain ⟨count, hcount⟩ := operation.skips reader
  rw [hcount]
  exact h.skip count

/-- What was passed is the beginning of the text. -/
theorem take_position (h : Located source reader) :
    source.take reader.position = reader.behind.reverse := by
  rw [← h.source_eq, Reader.source, position, ← List.length_reverse, List.take_left]

theorem drop_position (h : Located source reader) :
    source.drop reader.position = reader.ahead := by
  rw [← h.source_eq, Reader.source, position, ← List.length_reverse, List.drop_left]

theorem position_le (h : Located source reader) : reader.position ≤ source.length := by
  rw [← h.source_eq, Reader.source, List.length_append, List.length_reverse, position]
  exact Nat.le_add_right _ _

end Located

/-- **All operations**, one after the other, on a new reader. -/
theorem located_afterAll (source : String) (operations : List Operation) :
    Located source.toList (afterAll source operations) := by
  suffices h : ∀ reader, Located source.toList reader →
      Located source.toList (operations.foldl (fun reader operation => operation.leave reader)
        reader) from
    h _ ⟨rfl, rfl⟩
  induction operations with
  | nil => exact fun _ h => h
  | cons operation operations ih => exact fun reader h => ih _ (h.leave operation)

theorem position_skip (count : Nat) (reader : Reader) :
    (reader.skip count).position = reader.position + min count reader.ahead.length := by
  rw [position, behind_skip, List.length_append, List.length_reverse, List.length_take, position,
    Nat.add_comm]

theorem position_le_leave (operation : Operation) (reader : Reader) :
    reader.position ≤ (operation.leave reader).position := by
  obtain ⟨count, hcount⟩ := operation.skips reader
  rw [hcount, position_skip]
  exact Nat.le_add_right _ _

/-- The longest run is taken, and the reader stands behind it. -/
theorem takeWhile_of_longestRun {accept : Char → Bool} {run rest : List Char}
    (hahead : reader.ahead = run ++ rest) (hrun : LongestRun accept run rest) :
    takeWhile accept reader = .ok run (reader.skip run.length) := by
  rw [takeWhile, hahead, hrun.takeWhile_eq]

end Reader

/-- **A reader after any operations**, in any order and those that fail among them. It is still
inside its text. Its line is one more than there are newlines in what it has passed, its column one
more than there are characters behind the last of them. No operation takes it back. What is taken
while characters are accepted is the longest accepted run in front of it, and it stands behind that
run then. -/
theorem reader_knows_its_place (source : String) (operations : List Reader.Operation) :
    let reader := Reader.afterAll source operations
    let passed := source.toList.take reader.position
    reader.source = source.toList ∧
    reader.position ≤ source.length ∧
    reader.place.line = passed.count '\n' + 1 ∧
    reader.place.col = (passed.reverse.takeWhile (· != '\n')).length + 1 ∧
    (∀ operation : Reader.Operation, reader.position ≤ (operation.leave reader).position) ∧
    ∀ accept, ∃ run rest after, Reader.takeWhile accept reader = .ok run after ∧
      source.toList.drop reader.position = run ++ rest ∧ LongestRun accept run rest ∧
      after.position = reader.position + run.length := by
  intro reader passed
  have h : Reader.Located source.toList reader := Reader.located_afterAll source operations
  have hplace : reader.place = .behind passed := by
    rw [h.place_eq, ← h.take_position]
  refine ⟨h.source_eq, h.position_le, congrArg Place.line hplace, congrArg Place.col hplace,
    fun operation => Reader.position_le_leave operation reader, fun accept => ?_⟩
  obtain ⟨run, rest, hahead, hrun⟩ := exists_longestRun accept reader.ahead
  refine ⟨run, rest, _, Reader.takeWhile_of_longestRun hahead hrun, ?_, hrun, ?_⟩
  · rw [h.drop_position, hahead]
  · rw [Reader.position_skip, hahead, List.length_append,
      Nat.min_eq_left (Nat.le_add_right _ _)]

/-- A string that is not closed leaves the reader at the end of its line. -/
example : (Reader.afterAll "\n\"x\ny" [.advance, .readString]).place = ⟨2, 3⟩ := by
  rfl

end JackSyntax
