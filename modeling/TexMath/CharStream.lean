/-
The character stream: located characters with one character of
lookahead.

The stream holds at most one character that it has read and not handed
out. Peeking fills that place, advancing empties it. The first reported
end that the stream meets is final and takes the place for good: from
then on the stream never asks its source again, even when the source
would go on. A failure of the source leaves the place empty, and the
next step asks again. A test that decides whether a character is consumed
may fail as well; the character stays then.
-/
import TexMath.Tracker

namespace TexMath

/-- The place of lookahead. -/
inductive Lookahead where
  /-- Nothing has been read ahead. -/
  | empty
  /-- A character has been read and not handed out. -/
  | held (c : Located Char)
  /-- The end has been met. -/
  | ended
deriving DecidableEq, Repr

namespace Lookahead

/-- The number of characters that are held. -/
def count : Lookahead → Nat
  | held _ => 1
  | _ => 0

/-- The place with its character handed out. -/
def release : Lookahead → Lookahead
  | held _ => empty
  | other => other

end Lookahead

/-- A tracker with one character of lookahead. -/
structure CharStream where
  tracker : Tracker
  lookahead : Lookahead
deriving DecidableEq, Repr

namespace CharStream

/-- A stream over a source, from its start. -/
def ofSource (source : Source) : CharStream :=
  ⟨.ofSource source, .empty⟩

/-- The source that is left, the character of lookahead not in it. -/
def source (s : CharStream) : Source :=
  s.tracker.source

/-- The stream with its character of lookahead handed out. -/
def release (s : CharStream) : CharStream :=
  { s with lookahead := s.lookahead.release }

-- ================================================================== steps

/-- The next character, left where it is; nothing at the end. -/
def peek (s : CharStream) : Attempt CharStream (Option (Located Char)) :=
  match s.lookahead with
  | .held c => (.ok (some c), s)
  | .ended => (.ok none, s)
  | .empty =>
    match s.tracker.next with
    | (.ok (some c), tracker) => (.ok (some c), ⟨tracker, .held c⟩)
    | (.ok none, tracker) => (.ok none, ⟨tracker, .ended⟩)
    | (.error fault, tracker) => (.error fault, ⟨tracker, .empty⟩)

/-- Consumes the next character; nothing at the end. -/
def advance (s : CharStream) : Attempt CharStream (Option (Located Char)) :=
  s.peek.within release

/-- Consumes the next character if `test` accepts it. A test that fails
ends the step, and the character stays. -/
def advanceWhen (test : Char → Except Fault Bool) (s : CharStream) :
    Attempt CharStream (Option (Located Char)) :=
  match s.peek with
  | (.ok (some c), t) =>
    match test c.val with
    | .ok true => (.ok (some c), t.release)
    | .ok false => (.ok none, t)
    | .error fault => (.error fault, t)
  | (.ok none, t) => (.ok none, t)
  | (.error fault, t) => (.error fault, t)

/-- Consumes the next character if `p`, which never fails, accepts it. -/
def advanceIf (p : Char → Bool) (s : CharStream) : Attempt CharStream (Option (Located Char)) :=
  s.advanceWhen fun c => .ok (p c)

theorem advanceIf_eq (p : Char → Bool) (s : CharStream) :
    s.advanceIf p = match s.peek with
      | (.ok (some c), t) => if p c.val then (.ok (some c), t.release) else (.ok none, t)
      | (.ok none, t) => (.ok none, t)
      | (.error fault, t) => (.error fault, t) := by
  unfold advanceIf advanceWhen
  obtain ⟨answer, t⟩ := s.peek
  rcases answer with fault | (_ | c)
  · rfl
  · rfl
  · dsimp only
    cases p c.val <;> rfl

/-- The announced number of characters that are not consumed. -/
def lengthHint (s : CharStream) : Except Fault Nat :=
  s.source.lengthHint s.lookahead.count

-- =============================================================== progress

/-- The number of events of the source still ahead, the character of
lookahead counted. -/
def size (s : CharStream) : Nat :=
  s.tracker.source.events.length + s.lookahead.count

theorem size_peek_le (s : CharStream) : s.peek.2.size ≤ s.size := by
  obtain ⟨⟨⟨events, hint, pulled⟩, position⟩, lookahead⟩ := s
  cases lookahead with
  | held c => exact Nat.le_refl _
  | ended => exact Nat.le_refl _
  | empty =>
    cases events with
    | nil => exact Nat.le_refl _
    | cons e rest => cases e <;> simp [peek, Tracker.next, Source.next, size, Lookahead.count]

/-- A character that is peeked is held. -/
theorem lookahead_of_peek {s t : CharStream} {c : Located Char}
    (h : s.peek = (.ok (some c), t)) : t.lookahead = .held c := by
  unfold peek at h
  split at h
  · next hs =>
    obtain ⟨h1, rfl⟩ := Prod.mk.inj h
    cases h1
    exact hs
  · cases (Prod.mk.inj h).1
  · split at h
    · obtain ⟨h1, rfl⟩ := Prod.mk.inj h
      cases h1
      rfl
    · cases (Prod.mk.inj h).1
    · cases (Prod.mk.inj h).1

/-- Handing out what a peek shows makes the stream smaller. -/
theorem size_release_lt {s t : CharStream} {c : Located Char} (h : s.peek = (.ok (some c), t)) :
    t.release.size < s.size := by
  have held := lookahead_of_peek h
  have peeked := s.size_peek_le
  rw [h] at peeked
  simp only [size, release, held, Lookahead.release, Lookahead.count] at peeked ⊢
  omega

theorem size_release_le (s : CharStream) : s.release.size ≤ s.size := by
  obtain ⟨tracker, lookahead⟩ := s
  cases lookahead <;> simp [release, size, Lookahead.release, Lookahead.count]

theorem size_advance_le (s : CharStream) : s.advance.2.size ≤ s.size :=
  Nat.le_trans (size_release_le _) s.size_peek_le

theorem size_lt_of_advance {s t : CharStream} {c : Located Char}
    (h : s.advance = (.ok (some c), t)) : t.size < s.size := by
  obtain ⟨h1, rfl⟩ := Prod.mk.inj h
  exact size_release_lt (Prod.ext h1 rfl)

theorem size_advanceIf_le (p : Char → Bool) (s : CharStream) :
    (s.advanceIf p).2.size ≤ s.size := by
  have peeked := s.size_peek_le
  rw [advanceIf_eq]
  split
  · next h =>
    rw [h] at peeked
    split
    · exact Nat.le_of_lt (size_release_lt h)
    · exact peeked
  · next h => rwa [h] at peeked
  · next h => rwa [h] at peeked

/-- An accepted character makes the stream smaller. -/
theorem size_lt_of_advanceIf {p : Char → Bool} {s t : CharStream} {c : Located Char}
    (h : s.advanceIf p = (.ok (some c), t)) : t.size < s.size := by
  rw [advanceIf_eq] at h
  split at h
  · next peeked =>
    split at h
    · obtain ⟨-, rfl⟩ := Prod.mk.inj h
      exact size_release_lt peeked
    · cases (Prod.mk.inj h).1
  · cases (Prod.mk.inj h).1
  · cases (Prod.mk.inj h).1

-- =================================================================== loops

/-- Consumes characters as long as `p` accepts them, behind the
characters `found`, which have been consumed already, the last one
first. -/
def collectOnto (found : List Char) (p : Char → Bool) (s : CharStream) :
    Attempt CharStream (List Char) :=
  match _h : s.advanceIf p with
  | (.ok (some c), t) => collectOnto (c.val :: found) p t
  | (.ok none, t) => (.ok found.reverse, t)
  | (.error fault, t) => (.error fault, t)
termination_by s.size
decreasing_by exact size_lt_of_advanceIf ‹_›

/-- The longest run of characters that `p` accepts, consumed, behind the
characters `first`, which have been consumed already. -/
def collectRun (first : List Char) (p : Char → Bool) (s : CharStream) :
    Attempt CharStream (List Char) :=
  s.collectOnto first.reverse p

theorem size_collectOnto_le (found : List Char) (p : Char → Bool) (s : CharStream) :
    (s.collectOnto found p).2.size ≤ s.size := by
  fun_induction collectOnto found p s with
  | case1 found s c t h ih => exact Nat.le_trans ih (Nat.le_of_lt (size_lt_of_advanceIf h))
  | case2 found s t h => simpa [h] using s.size_advanceIf_le p
  | case3 found s fault t h => simpa [h] using s.size_advanceIf_le p

theorem size_collectRun_le (first : List Char) (p : Char → Bool) (s : CharStream) :
    (s.collectRun first p).2.size ≤ s.size :=
  size_collectOnto_le _ _ _

-- ============================================================= steps and runs

/-- One thing that may be done to a stream. -/
inductive Step where
  | peek
  | advance
  /-- With a test that may fail itself. -/
  | advanceIf (test : Char → Except Fault Bool)

/-- What a step of a stream answers. -/
abbrev Answer := Except Fault (Option (Located Char))

/-- Takes a step. -/
def step (s : CharStream) : Step → Attempt CharStream (Option (Located Char))
  | .peek => s.peek
  | .advance => s.advance
  | .advanceIf test => s.advanceWhen test

/-- A step looks at the next character, and hands it out or leaves it. -/
theorem step_eq_peek_or (s : CharStream) (x : Step) :
    (s.step x).2 = s.peek.2 ∨ (s.step x).2 = s.peek.2.release := by
  cases x with
  | peek => exact .inl rfl
  | advance => exact .inr rfl
  | advanceIf test =>
    simp only [step, advanceWhen]
    split
    · next c t h =>
      rw [h]
      split
      · exact .inr rfl
      · exact .inl rfl
      · exact .inl rfl
    · next t h => rw [h]; exact .inl rfl
    · next fault t h => rw [h]; exact .inl rfl

/-- Takes steps in order, failing ones included, and gives each of them
with its answer, and the stream that is left. -/
def run (s : CharStream) : List Step → List (Step × Answer) × CharStream
  | [] => ([], s)
  | x :: steps => ((x, (s.step x).1) :: ((s.step x).2.run steps).1, ((s.step x).2.run steps).2)

end CharStream

end TexMath
