/-
The lexer: located tokens on demand from a character stream.

A character decides which token it starts, and the rest of the token is
taken from the stream: the longest run of letters of a control sequence,
of digits of an argument number, of blanks, of comment text, and one
character behind any other backslash. A `#` without a digit is a lexical
error and takes the character behind it along. The token stands where
its first character stands.

Lexical errors are logged whenever they are met, other tokens when the
lexer is asked to log them. The only fault of the lexer's own is an
argument number with too many digits; its digits are consumed by then,
so that lexing can go on behind them.
-/
import TexMath.CharStream
import TexMath.Log
import TexMath.Text.Blank
import TexMath.Text.Digit
import TexMath.Token

namespace TexMath

open Text

namespace CharStream

-- =========================================================== single tokens

/-- The characters that end a comment, which are not part of it. -/
def endsComment (c : Char) : Bool :=
  c = '\n' || c = '\x00'

/-- The token that a run of digits makes behind a `#`. -/
def argumentOfDigits (digits : List Char) : Except Fault Token :=
  if digitLimit < digits.length then .error (.tooManyDigits digits.length)
  else .ok (.arg (decimalValue digits))

/-- The rest of a control sequence, behind its backslash. -/
def control (s : CharStream) : Attempt CharStream Token :=
  match s.advance with
  | (.ok none, t) => (.ok (.control ""), t)
  | (.ok (some c), t) =>
    if isLetter c.val then
      (t.collectRun [c.val] isLetter).map fun name => .control (String.ofList name)
    else (.ok (.control (String.ofList [c.val])), t)
  | (.error fault, t) => (.error fault, t)

/-- The rest of an argument marker, behind its `#`. -/
def argument (s : CharStream) : Attempt CharStream Token :=
  let illegal : Token := .error ⟨"#"⟩
  match s.advance with
  | (.ok none, t) => (.ok illegal, t)
  | (.ok (some c), t) =>
    if isDigit c.val then
      match t.collectRun [c.val] isDigit with
      | (.ok digits, u) => (argumentOfDigits digits, u)
      | (.error fault, u) => (.error fault, u)
    else (.ok illegal, t)
  | (.error fault, t) => (.error fault, t)

/-- The token that the character `c` starts. -/
def tokenFrom (c : Char) (s : CharStream) : Attempt CharStream Token :=
  if c = '{' then (.ok (.brace .left), s)
  else if c = '}' then (.ok (.brace .right), s)
  else if c = '&' then (.ok .ampersand, s)
  else if c = '\x00' then (.ok .eof, s)
  else if c = '\\' then s.control
  else if c = '%' then
    (s.collectRun [] (!endsComment ·)).map fun text => .comment (String.ofList text)
  else if c = '#' then s.argument
  else if isBlank c then
    (s.collectRun [c] isBlank).map fun text => .whitespace (String.ofList text)
  else (.ok (.char (String.ofList [c])), s)

/-- The next token with its location; nothing at the end. -/
def nextToken (s : CharStream) : Attempt CharStream (Option (Located Token)) :=
  match s.advance with
  | (.ok none, t) => (.ok none, t)
  | (.ok (some c), t) => (t.tokenFrom c.val).map fun token => some ⟨token, c.span⟩
  | (.error fault, t) => (.error fault, t)

-- =============================================================== progress

theorem size_tokenFrom_le (c : Char) (s : CharStream) : (s.tokenFrom c).2.size ≤ s.size := by
  have adv := s.size_advance_le
  unfold tokenFrom
  repeat' split
  any_goals exact Nat.le_refl _
  · unfold control
    split
    · simp_all
    · next c t h =>
      rw [h] at adv
      split
      · exact Nat.le_trans (size_collectRun_le _ _ t) adv
      · exact adv
    · simp_all
  · exact size_collectRun_le _ _ s
  · unfold argument
    split
    · simp_all
    · next c t h =>
      rw [h] at adv
      have := size_collectRun_le [c.val] isDigit t
      split
      · split <;> simp_all <;> omega
      · exact adv
    · simp_all
  · exact size_collectRun_le _ _ s

theorem size_lt_of_nextToken {s t : CharStream} {token : Located Token}
    (h : s.nextToken = (.ok (some token), t)) : t.size < s.size := by
  unfold nextToken at h
  split at h
  · cases (Prod.mk.inj h).1
  · next c u hu =>
    have := size_tokenFrom_le c.val u
    have := size_lt_of_advance hu
    rw [← (Prod.mk.inj h).2]
    simp only [Attempt.map] at *
    omega
  · cases (Prod.mk.inj h).1

end CharStream

-- =============================================================== the lexer

/-- A character stream that is read token by token, with the records
made so far. -/
structure Lexer where
  chars : CharStream
  /-- Tokens that are no errors are logged too. -/
  debug : Bool
  log : Array Log.Record
deriving Repr

namespace Lexer

/-- A lexer at the start of a source. -/
def ofSource (source : Source) (debug : Bool) : Lexer :=
  ⟨.ofSource source, debug, #[]⟩

/-- A lexer at the start of a string. -/
def ofString (code : String) (debug : Bool) : Lexer :=
  ofSource (.ofString code) debug

/-- The record of a token, if one is made. -/
def record? (debug : Bool) (token : Located Token) : Option Log.Record :=
  match token.val with
  | .error cause => some ⟨.debug, "watex.lexer", s!"{cause.message} at {token.span.text}"⟩
  | other =>
    if debug then some ⟨.debug, "watex.lexer", s!"{other.display} at {token.span.text}"⟩ else none

/-- The lexer with the record of a token in its log. -/
def logged (lexer : Lexer) (token : Located Token) : Lexer :=
  match record? lexer.debug token with
  | some record => { lexer with log := lexer.log.push record }
  | none => lexer

/-- The next token; nothing at the end. -/
def nextToken (lexer : Lexer) : Attempt Lexer (Option (Located Token)) :=
  match lexer.chars.nextToken with
  | (.ok (some token), chars) => (.ok (some token), { lexer with chars }.logged token)
  | (.ok none, chars) => (.ok none, { lexer with chars })
  | (.error fault, chars) => (.error fault, { lexer with chars })

/-- The announced length: nothing, or at least one token. -/
def lengthHint (lexer : Lexer) : Except Fault Nat :=
  lexer.chars.lengthHint.map fun n => if n = 0 then 0 else 1

theorem chars_logged (lexer : Lexer) (token : Located Token) :
    (lexer.logged token).chars = lexer.chars := by
  unfold logged
  split <;> rfl

theorem size_lt_of_nextToken {lexer later : Lexer} {token : Located Token}
    (h : lexer.nextToken = (.ok (some token), later)) : later.chars.size < lexer.chars.size := by
  unfold nextToken at h
  split at h
  · next hn =>
    rw [← (Prod.mk.inj h).2, chars_logged]
    exact CharStream.size_lt_of_nextToken hn
  · cases (Prod.mk.inj h).1
  · cases (Prod.mk.inj h).1

/-- All tokens that are left, in front of which the tokens `found` have
been read, the last one first. -/
def collect (found : List (Located Token)) (lexer : Lexer) :
    Attempt Lexer (List (Located Token)) :=
  match _h : lexer.nextToken with
  | (.ok (some token), later) => collect (token :: found) later
  | (.ok none, later) => (.ok found.reverse, later)
  | (.error fault, later) => (.error fault, later)
termination_by lexer.chars.size
decreasing_by exact size_lt_of_nextToken ‹_›

/-- All tokens that are left, taken one after the other as a loop takes
them, whatever the source announces. A list that is made of a lexer asks
for the announced length first, and fails with it; over a string that
never fails, and the list is this one. -/
def rest (lexer : Lexer) : Attempt Lexer (List (Located Token)) :=
  lexer.collect []

end Lexer

/-- The tokens of a whole string. -/
def tokenize (code : String) : Except Fault (List (Located Token)) :=
  (Lexer.ofString code false).rest.1

end TexMath
