/-
Lines of a text.

A line ends at a newline; a carriage return in front of it belongs to
the line end. What stands behind the last newline is a line too, unless
it is empty, and keeps a carriage return at its end.

`plain` is the text as its lines print: every line end a single
newline, and one at the end of a text that is not empty.
-/
namespace TexMath.Text

/-- A text cut at every `separator`: the piece in front of the first
one, and the pieces behind each of them. -/
def cut (separator : Char) (text : List Char) : List Char × List (List Char) :=
  text.foldr
    (fun c (piece, later) => if c = separator then ([], piece :: later) else (c :: piece, later))
    ([], [])

@[simp]
theorem cut_nil (separator : Char) : cut separator [] = ([], []) := rfl

@[simp]
theorem cut_separator (c : Char) (text : List Char) :
    cut c (c :: text) = ([], (cut c text).1 :: (cut c text).2) := by
  simp [cut]

theorem cut_cons {separator c : Char} (h : c ≠ separator) (text : List Char) :
    cut separator (c :: text) = (c :: (cut separator text).1, (cut separator text).2) := by
  simp [cut, h]

/-- A piece without a carriage return at its end. -/
def dropReturn (piece : List Char) : List Char :=
  if piece.getLast? = some '\r' then piece.dropLast else piece

/-- The lines that the pieces of a text make: every piece but the last
ended at a newline. -/
def linesOfPieces (piece : List Char) : List (List Char) → List (List Char)
  | [] => if piece.isEmpty then [] else [piece]
  | next :: later => dropReturn piece :: linesOfPieces next later

/-- The lines of a text, without their ends. -/
def lines (text : List Char) : List (List Char) :=
  linesOfPieces (cut '\n' text).1 (cut '\n' text).2

/-- Every carriage return in front of a newline taken out. -/
def joinReturns : List Char → List Char
  | [] => []
  | '\r' :: '\n' :: rest => '\n' :: joinReturns rest
  | c :: rest => c :: joinReturns rest

/-- A newline put at the end of a text that is not empty and has none. -/
def endLine (text : List Char) : List Char :=
  if text.isEmpty || text.getLast? = some '\n' then text else text ++ ['\n']

/-- The text with a single newline at the end of every line. -/
def plain (text : List Char) : List Char :=
  endLine (joinReturns text)

example : lines "a\r\nb\r\r\n\nc\r".toList = [['a'], ['b', '\r'], [], ['c', '\r']] := by decide

example : lines "a\n".toList = [['a']] ∧ lines [] = [] := by decide

end TexMath.Text
