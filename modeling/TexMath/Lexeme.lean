/-
Lexemes: a whole text cut into the pieces that make tokens, without
looking at how a lexer reads it.

The first character of the text that is left decides the lexeme. The
lexeme is as long as it can be: all letters behind a backslash and a
letter, all digits behind a `#`, all characters of a comment, all
blanks of a run. The lexemes of a text are never empty and make up the
text, and each one reads as a token, unless it has too many digits.
-/
import TexMath.Fault
import TexMath.Text.Blank
import TexMath.Text.Digit
import TexMath.Token

namespace TexMath

open Text

/-- The characters of a lexeme, and what it reads as. -/
structure Lexeme where
  text : List Char
  reading : Except Fault Token
deriving DecidableEq

namespace Lexeme

-- ===================================================== the first lexeme

/-- A lexeme made of `start` and the longest run of accepted characters
behind it, with the text that is left. -/
def withRun (start : List Char) (p : Char → Bool) (read : List Char → Except Fault Token)
    (rest : List Char) : Lexeme × List Char :=
  (⟨start ++ rest.takeWhile p, read (rest.takeWhile p)⟩, rest.dropWhile p)

/-- The lexeme that a backslash starts. -/
def control (rest : List Char) : Lexeme × List Char :=
  match rest with
  | [] => (⟨['\\'], .ok (.control "")⟩, [])
  | c :: later =>
    if isLetter c then
      withRun ['\\'] isLetter (fun name => .ok (.control (String.ofList name))) rest
    else (⟨['\\', c], .ok (.control (String.ofList [c]))⟩, later)

/-- What digits behind a `#` read as. -/
def number (digits : List Char) : Except Fault Token :=
  if digits.length ≤ digitLimit then .ok (.arg (decimalValue digits))
  else .error (.tooManyDigits digits.length)

/-- The lexeme that a `#` starts. -/
def argument (rest : List Char) : Lexeme × List Char :=
  match rest with
  | [] => (⟨['#'], .ok (.error ⟨"#"⟩)⟩, [])
  | c :: later =>
    if isDigit c then withRun ['#'] isDigit number rest
    else (⟨['#', c], .ok (.error ⟨"#"⟩)⟩, later)

/-- The lexeme that the character `c` starts in front of `rest`, with
the text that is left. -/
def first (c : Char) (rest : List Char) : Lexeme × List Char :=
  if c = '{' then (⟨[c], .ok (.brace .left)⟩, rest)
  else if c = '}' then (⟨[c], .ok (.brace .right)⟩, rest)
  else if c = '&' then (⟨[c], .ok .ampersand⟩, rest)
  else if c = '\x00' then (⟨[c], .ok .eof⟩, rest)
  else if c = '\\' then control rest
  else if c = '#' then argument rest
  else if c = '%' then
    withRun [c] (fun d => d ≠ '\n' && d ≠ '\x00')
      (fun text => .ok (.comment (String.ofList text))) rest
  else if isBlank c then
    withRun [c] isBlank (fun text => .ok (.whitespace (String.ofList (c :: text)))) rest
  else (⟨[c], .ok (.char (String.ofList [c]))⟩, rest)

/-- The first lexeme and the text that is left make up the text. -/
theorem first_append (c : Char) (rest : List Char) :
    (first c rest).1.text ++ (first c rest).2 = c :: rest := by
  have run (start : List Char) (p : Char → Bool) (read : List Char → Except Fault Token) :
      (withRun start p read rest).1.text ++ (withRun start p read rest).2 = start ++ rest := by
    simp [withRun, List.append_assoc, List.takeWhile_append_dropWhile]
  unfold first
  repeat' split
  any_goals rfl
  · next h =>
    subst h
    unfold control
    split
    · rfl
    · split
      · exact run _ _ _
      · rfl
  · next h =>
    subst h
    unfold argument
    split
    · rfl
    · split
      · exact run _ _ _
      · rfl
  · exact run _ _ _
  · exact run _ _ _

theorem first_ne_nil (c : Char) (rest : List Char) : (first c rest).1.text ≠ [] := by
  unfold first control argument
  repeat' split
  all_goals simp [withRun]

theorem length_first_le (c : Char) (rest : List Char) :
    (first c rest).2.length ≤ rest.length := by
  have h := congrArg List.length (first_append c rest)
  have := List.length_pos_iff.2 (first_ne_nil c rest)
  simp only [List.length_append, List.length_cons] at h
  omega

-- ====================================================== all the lexemes

/-- The lexemes of a text. -/
def split : List Char → List Lexeme
  | [] => []
  | c :: rest => (first c rest).1 :: split (first c rest).2
termination_by text => text.length
decreasing_by exact Nat.lt_succ_of_le (length_first_le c rest)

/-- What the lexemes read as, each with the location of its first
character, when the first one stands at `base`. -/
def readings (base : Span) : List Lexeme → List (Except Fault (Located Token))
  | [] => []
  | x :: later =>
    x.reading.map (fun token => ⟨token, base⟩) :: readings (base.afterAll x.text) later

end Lexeme

end TexMath
