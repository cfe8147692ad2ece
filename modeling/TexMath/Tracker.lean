/-
The position tracker: a source whose characters come out located.

The tracker keeps the location of the next character. A report of the
end and a failure of the source pass through and leave that location as
it is; the tracker asks its source again afterwards.
-/
import TexMath.Source
import TexMath.Span

namespace TexMath

/-- A source with the location of its next character. -/
structure Tracker where
  source : Source
  position : Span
deriving DecidableEq, Repr

namespace Tracker

/-- A tracker at the start of a text. -/
def ofSource (source : Source) : Tracker :=
  ⟨source, .origin⟩

/-- The next character with its location, or nothing at a reported end. -/
def next (t : Tracker) : Attempt Tracker (Option (Located Char)) :=
  match t.source.next with
  | (.char c, source) => (.ok (some ⟨c, t.position⟩), ⟨source, t.position.after c⟩)
  | (.stop, source) => (.ok none, { t with source })
  | (.fail text, source) => (.error (.source text), { t with source })

/-- The number of characters the source announces. -/
def lengthHint (t : Tracker) : Except Fault Nat :=
  t.source.lengthHint 0

theorem length_events_of_next {t u : Tracker} {c : Located Char}
    (h : t.next = (.ok (some c), u)) :
    u.source.events.length < t.source.events.length := by
  obtain ⟨⟨events, hint, pulled⟩, position⟩ := t
  cases events with
  | nil => simp [next, Source.next] at h
  | cons e rest =>
    cases e <;> simp [next, Source.next] at h
    rw [← h.2]
    exact Nat.lt_succ_self _

/-- The characters up to the next reported end, in front of which the
characters `found` have been read, the last one first. -/
def collect (found : List (Located Char)) (t : Tracker) :
    Attempt Tracker (List (Located Char)) :=
  match _h : t.next with
  | (.ok (some c), u) => collect (c :: found) u
  | (.ok none, u) => (.ok found.reverse, u)
  | (.error fault, u) => (.error fault, u)
termination_by t.source.events.length
decreasing_by exact length_events_of_next ‹_›

/-- All characters up to the next reported end, taken one after the other,
whatever the source announces. -/
def rest (t : Tracker) : Attempt Tracker (List (Located Char)) :=
  t.collect []

end Tracker

end TexMath
