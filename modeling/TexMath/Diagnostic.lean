/-
Diagnostics: messages attached to source locations.

A message is shown in its source by a caret: the source is printed line
by line, and behind the line of the location comes an extra line with
the caret under the column. A line number that the source does not have
leaves the source as it is.

A caret under a character of its line can always be placed. Elsewhere
it needs a column whose spaces can be counted in a machine word; without
one nothing is printed. `highlightChars` is the text, and `caretFault?`
says why there is none. How much room a text takes is no matter here.

Every lexical error of a token list makes one diagnostic.
-/
import TexMath.Fault
import TexMath.Text.Capital
import TexMath.Text.Lines
import TexMath.Token

namespace TexMath

-- ============================================================= highlights

namespace Span

/-- The line with the caret under the column of a span, and a message. -/
def caretLine (s : Span) (message : List Char) : List Char :=
  List.replicate (s.column - 1).toNat ' ' ++ '^' :: ' ' :: message ++ ['\n']

/-- A printed line, with the caret line behind it when the span points
into the line with this number. -/
def printLine (s : Span) (message : List Char) (line : List Char) (number : Nat) : List Char :=
  line ++ '\n' :: if number = s.line then s.caretLine message else []

/-- The characters of a text printed with a caret at the span. -/
def highlightChars (s : Span) (code message : List Char) : List Char :=
  ((Text.lines code).zipIdx 1).flatMap fun (line, number) => s.printLine message line number

/-- The line of a text that a span points into. -/
def line? (s : Span) (code : List Char) : Option (List Char) :=
  if s.line < 1 then none else (Text.lines code)[(s.line - 1).toNat]?

/-- Why no caret can be placed behind a line, if none can. -/
def caretFault? (s : Span) (line : List Char) : Option Fault :=
  let spaces := s.column - 1
  if (0 ≤ spaces ∧ spaces < line.length) ∨ fitsWord spaces then none
  else some .columnOutOfRange

/-- A source text printed with a caret and a message at the span. -/
def highlight (s : Span) (code message : String) : Except Fault String :=
  match (s.line? code.toList).bind s.caretFault? with
  | some fault => .error fault
  | none => .ok (String.ofList (s.highlightChars code.toList message.toList))

end Span

-- ============================================================ diagnostics

/-- A message about a source location. -/
structure Diagnostic where
  message : String
  span : Span
  severity : String
  /-- The number of the rule that was broken, if it has one. -/
  code : Option String
deriving DecidableEq, Repr

namespace Diagnostic

/-- The severity of lexical errors. -/
def errorSeverity : String := "error"

/-- The diagnostic of an illegal character. -/
def ofIllegalCharacter (cause : IllegalCharacter) (span : Span) : Diagnostic :=
  ⟨cause.message, span, errorSeverity, some "L001"⟩

/-- The diagnostic of a token, if it reports a lexical error. -/
def ofToken? (t : Located Token) : Option Diagnostic :=
  t.val.cause?.map (ofIllegalCharacter · t.span)

/-- The diagnostics of all lexical errors in a list of tokens, in order. -/
def collect (tokens : List (Located Token)) : List Diagnostic :=
  tokens.filterMap ofToken?

/-- A source text printed with the diagnostic in it. -/
def render (d : Diagnostic) (code : String) : Except Fault String :=
  d.span.highlight code d.message

/-- A source text printed once for each diagnostic; the first one that
cannot be printed ends it. -/
def renderAll (code : String) (ds : List Diagnostic) : Except Fault String :=
  (ds.mapM (render · code)).map String.join

/-- What a diagnostic starts with: its severity in capitals, and its
rule unless that is empty. -/
def heading (d : Diagnostic) : String :=
  match d.code with
  | some code =>
    if code = "" then Text.capitals d.severity else s!"{Text.capitals d.severity}[{code}]"
  | none => Text.capitals d.severity

/-- The diagnostic in two lines, without its source. -/
def text (d : Diagnostic) : String :=
  s!"{d.heading}: {d.message}\n  --> {d.span.text}\n"

/-- The rule of a diagnostic, displayed. -/
def displayCode (d : Diagnostic) : String :=
  match d.code with
  | some code => Text.quoted code
  | none => "None"

/-- The diagnostic as a constructor call. -/
def display (d : Diagnostic) : String :=
  s!"Diagnostic(message={Text.quoted d.message}, span={d.span.display}, " ++
    s!"severity={Text.quoted d.severity}, code={d.displayCode})"

end Diagnostic

end TexMath
