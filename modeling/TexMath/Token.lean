/-
Tokens of TeX mathematics.

A control sequence carries its name without the backslash, a brace its
side, an argument marker its number, a run of blanks and a comment
their text, and any other character itself. A lexical error is a token
too and carries its cause, so that one pass over a source reports every
error in it. An embedded NUL character is the end-of-file token.

A token displays as a constructor call: its kind in capitals, then the
side, the number or the quoted text it carries.
-/
import TexMath.Span
import TexMath.Text.Quoted

namespace TexMath

-- ================================================================== sides

/-- Opening or closing. -/
inductive Side where
  | left
  | right
deriving DecidableEq, Repr

namespace Side

/-- The name of a side in capitals. -/
def name : Side → String
  | left => "LEFT"
  | right => "RIGHT"

end Side

-- ========================================================= lexical errors

/-- A character that cannot start a token where it stands. -/
structure IllegalCharacter where
  char : String
deriving DecidableEq, Repr

namespace IllegalCharacter

/-- The message of a diagnostic for the character. -/
def message (e : IllegalCharacter) : String :=
  s!"Illegal character '{e.char}'"

/-- The error as a constructor call. -/
def display (e : IllegalCharacter) : String :=
  s!"IllegalCharacter({Text.quoted e.char})"

end IllegalCharacter

-- ================================================================= tokens

/-- A token with what it carries. -/
inductive Token where
  /-- A control sequence; the name is empty for a backslash at the end. -/
  | control (name : String)
  | brace (side : Side)
  /-- An argument marker with its number. -/
  | arg (number : Int)
  | ampersand
  /-- A run of blanks. -/
  | whitespace (text : String)
  /-- The text behind a percent sign, up to the end of the line. -/
  | comment (text : String)
  | char (text : String)
  /-- An embedded NUL character. -/
  | eof
  | error (cause : IllegalCharacter)
deriving DecidableEq, Repr

namespace Token

/-- What a token is, apart from what it carries. -/
inductive Kind where
  | control
  | brace
  | arg
  | ampersand
  | whitespace
  | comment
  | char
  | eof
  | error
deriving DecidableEq, Repr

namespace Kind

/-- The name of a kind in capitals. -/
def name : Kind → String
  | control => "CONTROL"
  | brace => "BRACE"
  | arg => "ARG"
  | ampersand => "AMPERSAND"
  | whitespace => "WHITESPACE"
  | comment => "COMMENT"
  | char => "CHAR"
  | eof => "EOF"
  | error => "ERROR"

end Kind

/-- The kind of a token. -/
def kind : Token → Kind
  | control _ => .control
  | brace _ => .brace
  | arg _ => .arg
  | ampersand => .ampersand
  | whitespace _ => .whitespace
  | comment _ => .comment
  | char _ => .char
  | eof => .eof
  | error _ => .error

/-- The cause a token carries when it is a lexical error. -/
def cause? : Token → Option IllegalCharacter
  | error cause => some cause
  | _ => none

/-- The tokens that report a lexical error. -/
def isError (t : Token) : Bool :=
  t.cause?.isSome

/-- What a token carries, displayed; nothing for a token that is all
said by its kind. The number of an argument marker is written out whatever
its size: those that are read have few enough digits. -/
def payload : Token → Option String
  | control name => some (Text.quoted name)
  | brace side => some side.name
  | arg number => some (toString number)
  | ampersand => none
  | whitespace text => some (Text.quoted text)
  | comment text => some (Text.quoted text)
  | char text => some (Text.quoted text)
  | eof => none
  | error cause => some cause.display

/-- The token as a constructor call. -/
def display (t : Token) : String :=
  match t.payload with
  | none => s!"Token({t.kind.name})"
  | some text => s!"Token({t.kind.name}, {text})"

end Token

end TexMath
