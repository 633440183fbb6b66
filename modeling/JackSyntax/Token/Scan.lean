import JackSyntax.Reader.Gap
import JackSyntax.Token.Lexeme

/-!
# Scanning tokens

Splits a source text into tokens: a gap, a lexeme, a gap, and so on to the end.

Headlines:
* `Reader.nextToken` reads one token, `none` at the end of the text; a token shortens what is ahead
  (`nextToken_shortens`).
* `Reader.tokens` reads the rest of the text.
* `Token.scan` splits a whole text, or gives its first lexical error.
-/

namespace JackSyntax

namespace Reader

/-- Reads a lexeme; the token stands at `start`, and so does an error. -/
def read (lexeme : Lexeme) (start : Place) : Reading Token := fun reader =>
  match lexeme.word with
  | .ok word => .ok ⟨word.kind, word.text, start⟩ (reader.skip lexeme.length)
  | .error cause => .error ⟨cause, start⟩ (reader.skip lexeme.length)

/-- Reads a string constant, whatever the next character is. -/
def readString : Reading Token := fun reader =>
  read (.string reader.ahead) reader.place reader

/-- Reads an integer constant, whatever the next character is. -/
def readInteger : Reading Token := fun reader =>
  read (.integer reader.ahead) reader.place reader

/-- Reads a keyword or an identifier, which may be empty. -/
def readWord : Reading Token := fun reader =>
  read (.name reader.ahead) reader.place reader

/-- Reads the next token, `none` at the end of the text. -/
def nextToken : Reading (Option Token) := fun reader =>
  match skipGap reader with
  | .error error stopped => .error error stopped
  | .ok () reader =>
    match reader.ahead with
    | [] => .ok none reader
    | c :: rest =>
      match read (lexemeAt c rest) reader.place reader with
      | .ok token reader => .ok (some token) reader
      | .error error stopped => .error error stopped

theorem nextToken_shortens {reader after : Reader} {token : Token}
    (h : nextToken reader = .ok (some token) after) : after.ahead.length < reader.ahead.length := by
  unfold nextToken skipGap at h
  cases hgap : gap reader.ahead with
  | unclosed start => simp [hgap] at h
  | closed length =>
    simp only [hgap, ahead_skip] at h
    cases htext : reader.ahead.drop length with
    | nil => simp [htext] at h
    | cons c rest =>
      simp only [htext, read] at h
      cases hword : (lexemeAt c rest).word with
      | error cause => simp [hword] at h
      | ok word =>
        simp only [hword, EStateM.Result.ok.injEq, Option.some.injEq] at h
        have hpos := length_pos_lexemeAt hword
        have hlen := congrArg List.length htext
        simp only [List.length_drop, List.length_cons] at hlen
        rw [← h.2, ahead_skip, ahead_skip, htext, List.length_drop, List.length_cons]
        omega

/-- Reads all tokens up to the end of the text. -/
def tokens (reader : Reader) : EStateM.Result LexError Reader (List Token) :=
  match _h : nextToken reader with
  | .error error stopped => .error error stopped
  | .ok none last => .ok [] last
  | .ok (some token) following =>
    match tokens following with
    | .ok rest last => .ok (token :: rest) last
    | .error error stopped => .error error stopped
termination_by reader.ahead.length
decreasing_by exact nextToken_shortens _h

end Reader

/-- Splits a source text into tokens. -/
def Token.scan (source : String) : Except LexError (List Token) :=
  match (Reader.ofString source).tokens with
  | .ok tokens _ => .ok tokens
  | .error error _ => .error error

end JackSyntax
