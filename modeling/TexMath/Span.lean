/-
Source locations and located values.

A span is a line and a column. Lines end at newline characters only, so
the location behind a character follows from the location of the
character and from whether it is a newline; `Span.after` is that rule,
and every position in the library comes from it.

Spans are ordered by line first and column second, which is the order
of the text. `Span.shift` moves a location of one text to where it
stands when the text starts at another location: only the first line
keeps the starting column.
-/
namespace TexMath

-- ============================================================== locations

/-- A line and a column, both counted from one in a source text. -/
@[ext]
structure Span where
  line : Int
  column : Int
deriving DecidableEq, Repr

namespace Span

/-- The location of the first character of a text. -/
def origin : Span := ⟨1, 1⟩

/-- The location behind a character that stands at `s`. -/
def after (s : Span) (c : Char) : Span :=
  if c = '\n' then ⟨s.line + 1, 1⟩ else ⟨s.line, s.column + 1⟩

/-- The location behind a run of characters that starts at `s`. -/
def afterAll (s : Span) (text : List Char) : Span :=
  text.foldl after s

/-- Where the location `s` of a text stands when the text starts at
`base` instead of at the origin. -/
def shift (base s : Span) : Span :=
  ⟨base.line + s.line - 1, if s.line = 1 then base.column + s.column - 1 else s.column⟩

-- ================================================================== order

instance : LT Span where
  lt a b := a.line < b.line ∨ a.line = b.line ∧ a.column < b.column

instance : LE Span where
  le a b := a.line < b.line ∨ a.line = b.line ∧ a.column ≤ b.column

theorem lt_def {a b : Span} :
    a < b ↔ a.line < b.line ∨ a.line = b.line ∧ a.column < b.column :=
  Iff.rfl

theorem le_def {a b : Span} :
    a ≤ b ↔ a.line < b.line ∨ a.line = b.line ∧ a.column ≤ b.column :=
  Iff.rfl

instance (a b : Span) : Decidable (a < b) :=
  decidable_of_iff _ lt_def.symm

instance (a b : Span) : Decidable (a ≤ b) :=
  decidable_of_iff _ le_def.symm

-- ================================================================== texts

/-- The location in words, as messages give it. Its numbers are written out
whatever their size: those of a text have few enough digits. -/
def text (s : Span) : String :=
  s!"line {s.line}, column {s.column}"

/-- The location as a constructor call. -/
def display (s : Span) : String :=
  s!"Span({s.line}, {s.column})"

end Span

-- ========================================================= located values

/-- A value tagged with the location it was read from. -/
structure Located (α : Type) where
  val : α
  span : Span
deriving DecidableEq, Repr

namespace Located

variable {α β : Type}

/-- Another value at the same location. -/
def map (f : α → β) (x : Located α) : Located β :=
  ⟨f x.val, x.span⟩

/-- The same value where its text starts at `base`. -/
def shift (base : Span) (x : Located α) : Located α :=
  ⟨x.val, base.shift x.span⟩

/-- The value, put into words by `text`, with its location. -/
def display (text : α → String) (x : Located α) : String :=
  s!"Pos({text x.val}, {x.span.line}:{x.span.column})"

@[simp]
theorem map_val (f : α → β) (x : Located α) : (x.map f).val = f x.val := rfl

@[simp]
theorem map_span (f : α → β) (x : Located α) : (x.map f).span = x.span := rfl

end Located

end TexMath
