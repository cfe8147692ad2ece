/-
Token lists that some source text reads as.

A token is well formed when it carries what a lexeme of its kind can
say. Two well-formed tokens may stand side by side unless the first one
would have taken the start of the second one into itself; a control
sequence without a name is made by the end of the text only, so nothing
stands behind it.
-/
import TexMath.Fault
import TexMath.Text.Blank
import TexMath.Text.Digit
import TexMath.Token

namespace TexMath.Token

open Text

-- ==================================================== single tokens

/-- The characters that start a token of their own kind, or a lexeme of
more than one character. -/
def specials : List Char := ['{', '}', '&', '\x00', '\\', '%', '#']

/-- The token carries what a lexeme of its kind can say. -/
def WellFormed : Token → Prop
  | control name =>
    (∀ c ∈ name.toList, isLetter c = true) ∨ ∃ c, name.toList = [c] ∧ isLetter c = false
  | brace _ => True
  | arg number => 0 ≤ number ∧ number < Int.pow 10 digitLimit
  | ampersand => True
  | whitespace text => text.toList ≠ [] ∧ ∀ c ∈ text.toList, isBlank c = true
  | comment text => '\n' ∉ text.toList ∧ '\x00' ∉ text.toList
  | char text => ∃ c, text.toList = [c] ∧ isBlank c = false ∧ c ∉ specials
  | eof => True
  | error cause => cause.char = "#"

-- ======================================================== token lists

/-- The second token does not start with what the first one would take. -/
def MayPrecede : Token → Token → Prop
  | control name, next =>
    name.toList ≠ [] ∧
      ∀ text, next = char text → (∀ c ∈ name.toList, isLetter c = true) →
        ∀ c ∈ text.toList, isLetter c = false
  | arg _, char text => ∀ c ∈ text.toList, isDigit c = false
  | whitespace _, whitespace _ => False
  | comment _, eof => True
  | comment _, whitespace text => text.toList.head? = some '\n'
  | comment _, _ => False
  | _, _ => True

/-- Every token is well formed and may precede the one behind it. -/
def Lexable : List Token → Prop
  | [] => True
  | [t] => t.WellFormed
  | t :: u :: rest => t.WellFormed ∧ t.MayPrecede u ∧ Lexable (u :: rest)

end TexMath.Token
