/-
Quoted text, the form in which strings appear in the display of tokens,
in log records and in error messages.

A string stands between apostrophes, or between quotation marks when it
holds an apostrophe and no quotation mark. Inside, the backslash and
the chosen quote take a backslash; newline, carriage return and tab are
written `\n`, `\r` and `\t`; any other character that is not printable
is written as `\x`, `\u` or `\U` with two, four or eight hexadecimal
digits, the shortest that fits.
-/
import TexMath.Text.Printable

namespace TexMath.Text

-- ========================================================== the escapes

/-- The last `width` hexadecimal digits of a number, in lower case. -/
def hexDigits : Nat → Nat → List Char
  | 0, _ => []
  | width + 1, n => hexDigits width (n / 16) ++ [(n % 16).digitChar]

/-- A code point in the shortest of the three hexadecimal escapes. -/
def hexEscape (n : Nat) : List Char :=
  if n ≤ 0xff then '\\' :: 'x' :: hexDigits 2 n
  else if n ≤ 0xffff then '\\' :: 'u' :: hexDigits 4 n
  else '\\' :: 'U' :: hexDigits 8 n

/-- How one character is written between two `quote` characters. -/
def escape (quote c : Char) : List Char :=
  if c = quote ∨ c = '\\' then ['\\', c]
  else if c = '\n' then ['\\', 'n']
  else if c = '\r' then ['\\', 'r']
  else if c = '\t' then ['\\', 't']
  else if isPrintable c then [c]
  else hexEscape c.toNat

-- ========================================================== whole strings

/-- The quote a text is put between: the apostrophe, unless the text
holds one and no quotation mark. -/
def quoteFor (text : List Char) : Char :=
  if '\'' ∈ text ∧ '"' ∉ text then '"' else '\''

/-- The characters of the quoted form of a text. -/
def quotedChars (text : List Char) : List Char :=
  let quote := quoteFor text
  quote :: text.flatMap (escape quote) ++ [quote]

/-- The quoted form of a text. -/
def quoted (text : String) : String :=
  String.ofList (quotedChars text.toList)

example : quotedChars ['a', '\n'] = ['\'', 'a', '\\', 'n', '\''] := by decide

example : quotedChars ['\''] = ['"', '\'', '"'] := by decide

example : quotedChars ['\'', '"'] = ['\'', '\\', '\'', '"', '\''] := by decide

example : hexEscape 0x1f600 = "\\U0001f600".toList := by decide

end TexMath.Text
