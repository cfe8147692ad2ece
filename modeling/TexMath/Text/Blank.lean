/-
Blank characters: the 25 code points that have the Unicode property
White_Space. The four information separators U+001C to U+001F do not
have it, although some programs treat them as blank.
-/
import TexMath.Text.Ranges

namespace TexMath.Text

/-- The code points with the property White_Space. -/
def blanks : Ranges :=
   [(0x9, 0xd), (0x20, 0x20), (0x85, 0x85), (0xa0, 0xa0), (0x1680, 0x1680), (0x2000, 0x200a),
    (0x2028, 0x2029), (0x202f, 0x202f), (0x205f, 0x205f), (0x3000, 0x3000)]

/-- A blank character is one with the property White_Space. -/
def isBlank (c : Char) : Bool :=
  blanks.has c

example : isBlank '\x0b' = true ∧ isBlank '\u0085' = true ∧ isBlank '\u3000' = true := by decide

example : isBlank '\x1c' = false ∧ isBlank '\u200b' = false := by decide

end TexMath.Text
