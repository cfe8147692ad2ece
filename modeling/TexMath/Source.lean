/-
Character sources.

A source is asked for one character at a time. Each time it hands out a
character, reports its end, or fails; a report of the end and a failure
happen once and are not lasting, so a source may go on behind either.
Behind its last event a source reports the end for ever.

A source also announces how many characters are left: exactly, not at
all, or as a fixed number that need not be true. A fixed number can only
be passed on when it is not negative and fits a machine word.
-/
import TexMath.Fault

namespace TexMath

/-- What a source does when it is asked for a character. -/
inductive Event where
  | char (c : Char)
  /-- It reports its end. -/
  | stop
  /-- It fails with a text. -/
  | fail (text : String)
deriving DecidableEq, Repr

namespace Event

/-- The character an event hands out. -/
def char? : Event → Option Char
  | char c => some c
  | _ => none

end Event

/-- What a source announces about its length. -/
inductive Hint where
  /-- The number of characters that are left. -/
  | exact
  /-- Nothing, which counts as no characters. -/
  | absent
  /-- The same number every time. -/
  | fixed (n : Int)
deriving DecidableEq, Repr

/-- A character source: what it will do, what it announces, and how many
characters it has handed out. -/
structure Source where
  events : List Event
  hint : Hint
  pulled : Nat
deriving DecidableEq, Repr

namespace Source

/-- The source that does the given things. -/
def ofEvents (events : List Event) (hint : Hint) : Source :=
  ⟨events, hint, 0⟩

/-- The source that hands out a run of characters and ends. -/
def ofList (text : List Char) : Source :=
  ofEvents (text.map .char) .exact

/-- The source that hands out the characters of a string and ends. -/
def ofString (code : String) : Source :=
  ofList code.toList

/-- The characters that are left, past ends and failures. -/
def remaining (s : Source) : List Char :=
  s.events.filterMap Event.char?

/-- Asks for a character. -/
def next (s : Source) : Event × Source :=
  match s.events with
  | [] => (.stop, s)
  | .char c :: rest => (.char c, { s with events := rest, pulled := s.pulled + 1 })
  | e :: rest => (e, { s with events := rest })

/-- The announced number of characters and `held` more, which have left
the source and are not consumed. An exact number always fits a machine
word, since no memory holds more characters. -/
def lengthHint (s : Source) (held : Nat) : Except Fault Nat :=
  match s.hint with
  | .exact => .ok (s.remaining.length + held)
  | .absent => .ok held
  | .fixed n =>
    if !fitsWord n then .error .hintOutOfRange
    else if n < 0 then .error .negativeHint
    else if !fitsWord (n + held) then .error .hintOutOfRange
    else .ok (n.toNat + held)

end Source

end TexMath
