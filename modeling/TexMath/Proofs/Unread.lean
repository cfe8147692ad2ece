/-
What a character stream has still to read, and what its steps do to it.

# The view

A stream hides its progress in three places: the character of
lookahead, which carries a location of its own, the tracker, which is
then one character ahead, and the end that it may have met. `Unread`
puts them together: the events ahead, the character of lookahead in
front of them, and the location of the next character. A stream that
has met its end has no events ahead, whatever its source still holds.

# The invariant

The two locations of a stream agree when the tracker stands right
behind the character of lookahead (`CharStream.Coherent`). Every step
keeps this, and of a coherent stream every step is a function of the
view alone: `Follows` ties a step to that function. Whatever is proved
about readers further up is proved on the view, where a run of
characters is a list (`Unread.run`) and nothing is hidden.
-/
import TexMath.CharStream

namespace TexMath

-- =================================================================== events

namespace Event

/-- The characters in front of the first event that is no character. -/
def leading : List Event → List Char
  | char c :: rest => c :: leading rest
  | _ => []

/-- The events from the first one on that is no character. -/
def behind : List Event → List Event
  | char _ :: rest => behind rest
  | events => events

theorem leading_append_behind (events : List Event) :
    (leading events).map char ++ behind events = events := by
  induction events with
  | nil => rfl
  | cons e rest ih =>
    cases e with
    | char c =>
      show char c :: ((leading rest).map char ++ behind rest) = char c :: rest
      rw [ih]
    | stop => rfl
    | fail text => rfl

@[simp]
theorem leading_append (text : List Char) (events : List Event) :
    leading (text.map char ++ events) = text ++ leading events := by
  induction text with
  | nil => rfl
  | cons c text ih =>
    show c :: leading (text.map char ++ events) = c :: (text ++ leading events)
    rw [ih]

@[simp]
theorem behind_append (text : List Char) (events : List Event) :
    behind (text.map char ++ events) = behind events := by
  induction text with
  | nil => rfl
  | cons c text ih => exact ih

end Event

-- ================================================================= the view

/-- The events ahead of a reader, and the location of the next
character. -/
structure Unread where
  events : List Event
  position : Span
deriving DecidableEq, Repr

namespace Unread

variable {α : Type}

/-- The characters up to the next reported end or failure. -/
def text (u : Unread) : List Char :=
  Event.leading u.events

/-- The next reported end or failure, and what follows it. -/
def behind (u : Unread) : List Event :=
  Event.behind u.events

/-- The next character with its location, if there is one. -/
def first? (u : Unread) : Option (Located Char) :=
  u.text.head?.map (⟨·, u.position⟩)

/-- Looks at the next event before giving an answer: a failure takes the
answer's place, and a reported end is the last one that is met. -/
def look (answer : Except Fault α) (u : Unread) : Attempt Unread α :=
  match u.events with
  | .char _ :: _ => (answer, u)
  | .fail text :: rest => (.error (.source text), ⟨rest, u.position⟩)
  | _ => (answer, ⟨[], u.position⟩)

/-- Reads a character. -/
def next (u : Unread) : Attempt Unread (Option (Located Char)) :=
  match u.events with
  | .char c :: rest => (.ok (some ⟨c, u.position⟩), ⟨rest, u.position.after c⟩)
  | _ => u.look (.ok none)

/-- Reads a character if `p` accepts it. -/
def nextIf (p : Char → Bool) (u : Unread) : Attempt Unread (Option (Located Char)) :=
  match u.text with
  | c :: _ => if p c then u.next else (.ok none, u)
  | [] => u.look (.ok none)

/-- What is left when of the text ahead `taken` has been read and `later`
has not. -/
def past (taken later : List Char) (u : Unread) : Unread :=
  ⟨later.map .char ++ u.behind, u.position.afterAll taken⟩

/-- What is left behind the longest run that `p` accepts. -/
def afterRun (p : Char → Bool) (u : Unread) : Unread :=
  u.past (u.text.takeWhile p) (u.text.dropWhile p)

/-- Reads the longest run that `p` accepts, behind the characters
`found`, the last one first, and looks at what ends the run. -/
def run (found : List Char) (p : Char → Bool) (u : Unread) : Attempt Unread (List Char) :=
  (u.afterRun p).look (.ok (found.reverse ++ u.text.takeWhile p))

theorem look_bind {β : Type} (answer : Except Fault α) (f : α → Except Fault β) (u : Unread) :
    u.look (answer.bind f) = ((u.look answer).1.bind f, (u.look answer).2) := by
  obtain ⟨events, position⟩ := u
  cases events with
  | nil => rfl
  | cons e rest => cases e <;> rfl

theorem length_look_le (answer : Except Fault α) (u : Unread) :
    (u.look answer).2.events.length ≤ u.events.length := by
  obtain ⟨events, position⟩ := u
  cases events with
  | nil => exact Nat.le_refl _
  | cons e rest => cases e <;> simp [look]

theorem position_look (answer : Except Fault α) (u : Unread) :
    (u.look answer).2.position = u.position := by
  obtain ⟨events, position⟩ := u
  cases events with
  | nil => rfl
  | cons e rest => cases e <;> rfl

theorem past_nil (u : Unread) : u.past [] u.text = u := by
  unfold past text behind
  rw [Event.leading_append_behind]
  rfl

/-- Reading the character `c`, the first one of `u`, leaves `v`. -/
structure Leaves (u : Unread) (c : Located Char) (v : Unread) : Prop where
  events : u.events = .char c.val :: v.events
  start : u.position = c.span
  position : v.position = c.span.after c.val

variable {u v : Unread} {c : Located Char}

theorem Leaves.text (h : u.Leaves c v) : u.text = c.val :: v.text := by
  unfold Unread.text
  rw [h.events]
  rfl

theorem Leaves.behind (h : u.Leaves c v) : u.behind = v.behind := by
  unfold Unread.behind
  rw [h.events]
  rfl

theorem next_of_leaves (h : u.Leaves c v) : u.next = (.ok (some c), v) := by
  have hv : v = ⟨v.events, c.span.after c.val⟩ := by rw [← h.position]
  unfold next
  rw [h.events, h.start, hv]

theorem next_of_text_nil {u : Unread} (h : u.text = []) : u.next = u.look (.ok none) := by
  obtain ⟨events, position⟩ := u
  cases events with
  | nil => rfl
  | cons e rest =>
    cases e with
    | char c => cases h
    | stop => rfl
    | fail text => rfl

theorem Leaves.past (h : u.Leaves c v) (taken later : List Char) :
    u.past (c.val :: taken) later = v.past taken later := by
  unfold Unread.past
  rw [h.behind, h.start, h.position]
  rfl

theorem Leaves.afterRun {p : Char → Bool} (h : u.Leaves c v) (haccepted : p c.val = true) :
    u.afterRun p = v.afterRun p := by
  unfold Unread.afterRun
  rw [h.text, List.takeWhile_cons_of_pos haccepted, List.dropWhile_cons_of_pos haccepted, h.past]

/-- A run takes an accepted character and goes on behind it. -/
theorem run_of_accepted {p : Char → Bool} (found : List Char) (h : u.Leaves c v)
    (haccepted : p c.val = true) : u.run found p = v.run (c.val :: found) p := by
  unfold run
  rw [h.afterRun haccepted, h.text, List.takeWhile_cons_of_pos haccepted, List.reverse_cons,
    List.append_assoc]
  rfl

/-- A run ends in front of a character that is not accepted. -/
theorem run_of_refused {p : Char → Bool} (found : List Char) (h : u.Leaves c v)
    (hrefused : p c.val = false) : u.run found p = (.ok found.reverse, u) := by
  have hstops : ¬ p c.val = true := by
    rw [hrefused]
    exact Bool.false_ne_true
  have hall := past_nil u
  rw [h.text] at hall
  unfold run afterRun look
  rw [h.text, List.takeWhile_cons_of_neg hstops, List.dropWhile_cons_of_neg hstops, List.append_nil,
    hall, h.events]

theorem run_of_text_nil {u : Unread} (found : List Char) (p : Char → Bool) (h : u.text = []) :
    u.run found p = u.look (.ok found.reverse) := by
  have hall := past_nil u
  rw [h] at hall
  unfold run afterRun
  rw [h, List.takeWhile_nil, List.dropWhile_nil, List.append_nil, hall]

/-- Going on with a run is looking at what the run makes. -/
theorem run_bind {β : Type} (found : List Char) (p : Char → Bool) (f : List Char → Except Fault β)
    (u : Unread) :
    ((u.run found p).1.bind f, (u.run found p).2)
      = (u.afterRun p).look (f (found.reverse ++ u.text.takeWhile p)) := by
  unfold run
  rw [← look_bind]
  rfl

/-- A run is a loop: an accepted character, and the run behind it. -/
theorem run_eq (found : List Char) (p : Char → Bool) (u : Unread) :
    u.run found p =
      match u.nextIf p with
      | (.ok (some c), v) => v.run (c.val :: found) p
      | (.ok none, v) => (.ok found.reverse, v)
      | (.error fault, v) => (.error fault, v) := by
  obtain ⟨events, position⟩ := u
  cases events with
  | nil => exact run_of_text_nil found p rfl
  | cons e rest =>
    cases e with
    | char c =>
      have hfirst : Leaves ⟨.char c :: rest, position⟩ ⟨c, position⟩ ⟨rest, position.after c⟩ :=
        ⟨rfl, rfl, rfl⟩
      cases hp : p c with
      | true =>
        rw [run_of_accepted found hfirst hp]
        simp only [nextIf, text, Event.leading, if_pos hp, next]
      | false =>
        rw [run_of_refused found hfirst hp]
        simp only [nextIf, text, Event.leading, hp, Bool.false_eq_true, if_false]
    | stop => exact run_of_text_nil found p rfl
    | fail text => exact run_of_text_nil found p rfl

end Unread

-- =================================================== streams and their view

namespace CharStream

variable {α β : Type}

/-- What the stream has still to read. -/
def unread (s : CharStream) : Unread :=
  match s.lookahead with
  | .held c => ⟨.char c.val :: s.source.events, c.span⟩
  | .empty => ⟨s.source.events, s.tracker.position⟩
  | .ended => ⟨[], s.tracker.position⟩

/-- The tracker stands right behind the character of lookahead. -/
def Coherent (s : CharStream) : Prop :=
  ∀ c, s.lookahead = .held c → s.tracker.position = c.span.after c.val

/-- The step `a` of a stream answers as `r` does, leaves unread what `r`
leaves, and leaves the stream coherent. -/
structure Follows (a : Attempt CharStream α) (r : Attempt Unread α) : Prop where
  answer : a.1 = r.1
  unread : a.2.unread = r.2
  coherent : a.2.Coherent

theorem coherent_ofSource (source : Source) : (ofSource source).Coherent := by
  intro c h
  cases h

theorem Follows.map {a : Attempt CharStream α} {r : Attempt Unread α} (f : α → β)
    (h : Follows a r) : Follows (a.map f) (r.map f) := by
  refine ⟨?_, h.unread, h.coherent⟩
  show a.1.map f = r.1.map f
  rw [h.answer]

theorem Follows.bind {a : Attempt CharStream α} {r : Attempt Unread α} (f : α → Except Fault β)
    (h : Follows a r) : Follows (a.1.bind f, a.2) (r.1.bind f, r.2) := by
  refine ⟨?_, h.unread, h.coherent⟩
  show a.1.bind f = r.1.bind f
  rw [h.answer]

-- ============================================================= single steps

theorem peek_follows {s : CharStream} (h : s.Coherent) :
    Follows s.peek (s.unread.look (.ok s.unread.first?)) := by
  obtain ⟨⟨⟨events, hint, pulled⟩, position⟩, lookahead⟩ := s
  cases lookahead with
  | held c => exact ⟨rfl, rfl, h⟩
  | ended => exact ⟨rfl, rfl, h⟩
  | empty =>
    cases events with
    | nil => exact ⟨rfl, rfl, fun c hc => by cases hc⟩
    | cons e rest =>
      cases e with
      | char c => exact ⟨rfl, rfl, fun d hd => by cases hd; rfl⟩
      | stop => exact ⟨rfl, rfl, fun c hc => by cases hc⟩
      | fail text => exact ⟨rfl, rfl, fun c hc => by cases hc⟩

/-- What advancing a coherent stream comes to. -/
inductive Advanced (s : CharStream) : Attempt CharStream (Option (Located Char)) → Prop
  /-- The first of the unread characters is consumed. -/
  | char (c : Located Char) (t : CharStream) (coherent : t.Coherent)
      (leaves : s.unread.Leaves c t.unread) : Advanced s (.ok (some c), t)
  /-- The end is met, and answers are given in front of it. -/
  | ended (t : CharStream) (coherent : t.Coherent) (text : s.unread.text = [])
      (look : ∀ {α : Type} (answer : Except Fault α), s.unread.look answer = (answer, t.unread)) :
      Advanced s (.ok none, t)
  /-- The source fails, and no answer is given in front of that. -/
  | failed (fault : Fault) (t : CharStream) (coherent : t.Coherent) (text : s.unread.text = [])
      (look : ∀ {α : Type} (answer : Except Fault α),
        s.unread.look answer = (.error fault, t.unread)) :
      Advanced s (.error fault, t)

theorem advance_advanced {s : CharStream} (h : s.Coherent) : Advanced s s.advance := by
  obtain ⟨⟨⟨events, hint, pulled⟩, position⟩, lookahead⟩ := s
  cases lookahead with
  | held c =>
    -- the location behind the held character is the tracker's own
    exact .char c _ (fun d hd => by cases hd) ⟨rfl, rfl, h c rfl⟩
  | ended => exact .ended _ h rfl fun _ => rfl
  | empty =>
    cases events with
    | nil => exact .ended _ (fun c hc => by cases hc) rfl fun _ => rfl
    | cons e rest =>
      cases e with
      | char c => exact .char _ _ (fun d hd => by cases hd) ⟨rfl, rfl, rfl⟩
      | stop => exact .ended _ (fun c hc => by cases hc) rfl fun _ => rfl
      | fail text => exact .failed _ _ (fun c hc => by cases hc) rfl fun _ => rfl

theorem advance_follows {s : CharStream} (h : s.Coherent) : Follows s.advance s.unread.next := by
  have hadvance := advance_advanced h
  generalize s.advance = r at hadvance
  cases hadvance with
  | char c t hcoherent hleaves =>
    rw [Unread.next_of_leaves hleaves]
    exact ⟨rfl, rfl, hcoherent⟩
  | ended t hcoherent htext hlook =>
    rw [Unread.next_of_text_nil htext, hlook]
    exact ⟨rfl, rfl, hcoherent⟩
  | failed fault t hcoherent htext hlook =>
    rw [Unread.next_of_text_nil htext, hlook]
    exact ⟨rfl, rfl, hcoherent⟩

theorem advanceIf_follows {s : CharStream} (p : Char → Bool) (h : s.Coherent) :
    Follows (s.advanceIf p) (s.unread.nextIf p) := by
  obtain ⟨⟨⟨events, hint, pulled⟩, position⟩, lookahead⟩ := s
  cases lookahead with
  | held c =>
    have hahead : position = c.span.after c.val := h c rfl
    subst hahead
    by_cases hp : p c.val = true
    · simp only [advanceIf_eq, peek, if_pos hp, unread, Unread.nextIf, Unread.text, Event.leading]
      exact ⟨rfl, rfl, fun d hd => by cases hd⟩
    · simp only [advanceIf_eq, peek, if_neg hp, unread, Unread.nextIf, Unread.text, Event.leading]
      exact ⟨rfl, rfl, h⟩
  | ended => exact ⟨rfl, rfl, h⟩
  | empty =>
    cases events with
    | nil => exact ⟨rfl, rfl, fun c hc => by cases hc⟩
    | cons e rest =>
      cases e with
      | char c =>
        by_cases hp : p c = true
        · simp only [advanceIf_eq, peek, Tracker.next, Source.next, if_pos hp, unread, source,
            Unread.nextIf, Unread.text, Event.leading]
          exact ⟨rfl, rfl, fun d hd => by cases hd⟩
        · simp only [advanceIf_eq, peek, Tracker.next, Source.next, if_neg hp, unread, source,
            Unread.nextIf, Unread.text, Event.leading]
          exact ⟨rfl, rfl, fun d hd => by cases hd; rfl⟩
      | stop => exact ⟨rfl, rfl, fun c hc => by cases hc⟩
      | fail text => exact ⟨rfl, rfl, fun c hc => by cases hc⟩

-- ===================================================================== runs

/-- What the stream does in a step of a loop, its view does. -/
theorem nextIf_of_advanceIf {s t : CharStream} {p : Char → Bool}
    {answer : Except Fault (Option (Located Char))} (h : s.Coherent)
    (hstep : s.advanceIf p = (answer, t)) :
    s.unread.nextIf p = (answer, t.unread) ∧ t.Coherent := by
  have hfollows := advanceIf_follows p h
  rw [hstep] at hfollows
  exact ⟨Prod.ext hfollows.answer.symm hfollows.unread.symm, hfollows.coherent⟩

/-- A loop over a coherent stream takes the longest run, whatever the
source does behind it. -/
theorem collectOnto_follows {s : CharStream} (found : List Char) (p : Char → Bool)
    (h : s.Coherent) : Follows (s.collectOnto found p) (s.unread.run found p) := by
  fun_induction collectOnto found p s with
  | case1 found s c t hstep ih =>
    obtain ⟨hread, hcoherent⟩ := nextIf_of_advanceIf h hstep
    rw [Unread.run_eq, hread]
    exact ih hcoherent
  | case2 found s t hstep =>
    obtain ⟨hread, hcoherent⟩ := nextIf_of_advanceIf h hstep
    rw [Unread.run_eq, hread]
    exact ⟨rfl, rfl, hcoherent⟩
  | case3 found s fault t hstep =>
    obtain ⟨hread, hcoherent⟩ := nextIf_of_advanceIf h hstep
    rw [Unread.run_eq, hread]
    exact ⟨rfl, rfl, hcoherent⟩

theorem collectRun_follows {s : CharStream} (first : List Char) (p : Char → Bool)
    (h : s.Coherent) : Follows (s.collectRun first p) (s.unread.run first.reverse p) :=
  collectOnto_follows first.reverse p h

end CharStream

end TexMath
