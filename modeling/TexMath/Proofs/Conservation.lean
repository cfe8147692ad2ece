/-
The character stream loses nothing and repeats nothing.

# The books of a stream

A character that the source has handed out has been consumed by a step,
or it is the character of lookahead; there is no third place, and every
step moves characters from the source to the lookahead and from there to
its answer, in order. `Accounts s taken t` is that balance between two
states of a run: `t` comes from `s` by asking the source for some events,
and the characters among those, located from where the tracker of `s`
stood, are what has been `taken` since and what `t` holds, less what `s`
held already. A failure and a reported end are events without a
character, so they leave the balance as it is.

# Steps and runs

A peek moves one character at most (`accounts_peek`), and it shows what
is held then (`buffered_peek`); taking that character is the other half
of a step. The two make up every kind of step (`accounts_step`), and a
run is their sum (`accounts_run`). What a stream has not consumed is then
settled by what it has (`Accounts.unconsumed`), however often it was
looked at in between.
-/
import TexMath.CharStream
import TexMath.Proofs.Location

namespace TexMath

-- ========================================================= located characters

/-- The characters of a text with their locations when the first one
stands at `base`. -/
def locate (base : Span) : List Char → List (Located Char)
  | [] => []
  | c :: text => ⟨c, base⟩ :: locate (base.after c) text

theorem locate_append (base : Span) (text more : List Char) :
    locate base (text ++ more) = locate base text ++ locate (base.afterAll text) more := by
  induction text generalizing base with
  | nil => rfl
  | cons c text ih => simp [locate, ih]

/-- The characters that events hand out. -/
def Event.handed (events : List Event) : List Char :=
  events.filterMap char?

namespace CharStream

-- =========================================================== what is consumed

/-- The character that a step consumes, when this is its answer. -/
def Step.consumed? : Step → Answer → Option (Located Char)
  | peek, _ => none
  | _, .ok c => c
  | _, .error _ => none

/-- The characters consumed in a run, in order. -/
def consumed (history : List (Step × Answer)) : List (Located Char) :=
  history.filterMap fun entry => entry.1.consumed? entry.2

/-- The character of lookahead, if there is one. -/
def buffered (s : CharStream) : List (Located Char) :=
  match s.lookahead with
  | .held c => [c]
  | _ => []

/-- The characters that are not consumed: the one of lookahead, and those
that the source has not handed out. -/
def unconsumed (s : CharStream) : List (Located Char) :=
  s.buffered ++ locate s.tracker.position s.source.remaining

-- ================================================================ the balance

/-- Between the states `s` and `t` of a run the characters `taken` have
been consumed, the source has done `events`, and nothing has been lost. -/
structure Accounts (s : CharStream) (events : List Event) (taken : List (Located Char))
    (t : CharStream) : Prop where
  source : s.source.events = events ++ t.source.events
  pulled : t.source.pulled = s.source.pulled + (Event.handed events).length
  position : t.tracker.position = s.tracker.position.afterAll (Event.handed events)
  balance : taken ++ t.buffered = s.buffered ++ locate s.tracker.position (Event.handed events)

variable {s t u : CharStream} {events more : List Event} {taken later : List (Located Char)}

theorem Accounts.refl (s : CharStream) : Accounts s [] [] s :=
  ⟨rfl, rfl, rfl, (List.append_nil _).symm⟩

theorem Accounts.trans (h : Accounts s events taken t) (h' : Accounts t more later u) :
    Accounts s (events ++ more) (taken ++ later) u := by
  have hhanded : Event.handed (events ++ more) = Event.handed events ++ Event.handed more :=
    List.filterMap_append
  refine ⟨?_, ?_, ?_, ?_⟩
  · rw [h.source, h'.source, List.append_assoc]
  · rw [h'.pulled, h.pulled, hhanded, List.length_append, Nat.add_assoc]
  · rw [h'.position, h.position, hhanded, Span.afterAll_append]
  · rw [List.append_assoc, h'.balance, ← List.append_assoc, h.balance, List.append_assoc,
      h.position, hhanded, locate_append]

/-- What has been consumed comes off the front of what was not. -/
theorem Accounts.unconsumed (h : Accounts s events taken t) :
    taken ++ t.unconsumed = s.unconsumed := by
  have hleft : s.source.remaining = Event.handed events ++ t.source.remaining := by
    unfold Source.remaining Event.handed
    rw [h.source, List.filterMap_append]
  unfold CharStream.unconsumed
  rw [← List.append_assoc, h.balance, h.position, hleft, locate_append, List.append_assoc]

-- =============================================================== single steps

/-- A peek moves at most one character to the place of lookahead. -/
theorem accounts_peek (s : CharStream) : ∃ events, Accounts s events [] s.peek.2 := by
  obtain ⟨⟨⟨ahead, hint, pulled⟩, position⟩, lookahead⟩ := s
  cases lookahead with
  | held c => exact ⟨[], .refl _⟩
  | ended => exact ⟨[], .refl _⟩
  | empty =>
    cases ahead with
    | nil => exact ⟨[], rfl, rfl, rfl, rfl⟩
    | cons e rest =>
      refine ⟨[e], ?_⟩
      cases e with
      | char c => exact ⟨rfl, rfl, rfl, rfl⟩
      | stop => exact ⟨rfl, rfl, rfl, rfl⟩
      | fail text => exact ⟨rfl, rfl, rfl, rfl⟩

/-- After a peek the stream holds the character that it has shown, and
nothing when it has shown none. -/
theorem buffered_peek (s : CharStream) :
    s.peek.2.buffered = (Step.advance.consumed? s.peek.1).toList := by
  obtain ⟨⟨⟨ahead, hint, pulled⟩, position⟩, lookahead⟩ := s
  cases lookahead with
  | held c => rfl
  | ended => rfl
  | empty =>
    cases ahead with
    | nil => rfl
    | cons e rest => cases e <;> rfl

theorem accounts_release (s : CharStream) : Accounts s [] s.buffered s.release := by
  refine ⟨rfl, rfl, rfl, ?_⟩
  obtain ⟨tracker, lookahead⟩ := s
  cases lookahead <;> rfl

theorem accounts_step (s : CharStream) (x : Step) :
    ∃ events, Accounts s events (x.consumed? (s.step x).1).toList (s.step x).2 := by
  obtain ⟨events, hpeek⟩ := s.accounts_peek
  have htaken := hpeek.trans s.peek.2.accounts_release
  rw [buffered_peek, List.append_nil, List.nil_append] at htaken
  cases x with
  | peek => exact ⟨events, hpeek⟩
  | advance => exact ⟨events, htaken⟩
  | advanceIf test =>
    refine ⟨events, ?_⟩
    simp only [step, advanceWhen]
    split
    · next c t hc =>
      rw [hc] at hpeek htaken
      split
      · exact htaken
      · exact hpeek
      · exact hpeek
    · next t hnone =>
      rw [hnone] at hpeek
      exact hpeek
    · next fault t hfault =>
      rw [hfault] at hpeek
      exact hpeek

-- ======================================================================= runs

theorem accounts_run (s : CharStream) (steps : List Step) :
    ∃ events, Accounts s events (consumed (s.run steps).1) (s.run steps).2 := by
  induction steps generalizing s with
  | nil => exact ⟨[], .refl s⟩
  | cons x steps ih =>
    obtain ⟨events, hstep⟩ := s.accounts_step x
    obtain ⟨more, hrun⟩ := ih (s.step x).2
    refine ⟨events ++ more, ?_⟩
    have hconsumed : consumed (s.run (x :: steps)).1
        = (x.consumed? (s.step x).1).toList ++ consumed ((s.step x).2.run steps).1 := by
      unfold consumed
      rw [run, List.filterMap_cons]
      cases x.consumed? (s.step x).1 <;> rfl
    rw [hconsumed]
    exact hstep.trans hrun

/-- A peek shows the first character that is not consumed. -/
theorem head_unconsumed_of_peek {c : Located Char} (h : s.peek.1 = .ok (some c)) :
    s.unconsumed.head? = some c := by
  obtain ⟨events, hpeek⟩ := s.accounts_peek
  have hshown := s.buffered_peek
  rw [h] at hshown
  rw [← hpeek.unconsumed]
  unfold unconsumed
  rw [hshown]
  rfl

/-- Whatever is done to a stream over a source, the characters consumed
and then the one of lookahead are those that the source has handed out,
located by the rule. What is consumed from there on comes off what is
not consumed, the character of lookahead first and then those of the
source, and the first one is what a peek would show, whatever steps
without a character come before it. -/
theorem run_conserves (source : Source) (steps : List Step) :
    let (history, s) := (ofSource source).run steps
    (∃ events, source.events = events ++ s.source.events
      ∧ s.source.pulled = source.pulled + (Event.handed events).length
      ∧ consumed history ++ s.buffered = locate .origin (Event.handed events))
    ∧ (∀ more, consumed (s.run more).1 ++ (s.run more).2.unconsumed = s.unconsumed)
    ∧ ∀ c, s.peek.1 = .ok (some c) →
        ∀ more d later, consumed (s.run more).1 = d :: later → d = c := by
  have hfuture (more : List Step) :
      let s := ((ofSource source).run steps).2
      consumed (s.run more).1 ++ (s.run more).2.unconsumed = s.unconsumed := by
    obtain ⟨events, h⟩ := ((ofSource source).run steps).2.accounts_run more
    exact h.unconsumed
  refine ⟨?_, hfuture, fun c hc more d later hd => ?_⟩
  · obtain ⟨events, h⟩ := (ofSource source).accounts_run steps
    exact ⟨events, h.source, h.pulled, h.balance⟩
  · have hhead := head_unconsumed_of_peek hc
    rw [← hfuture more, hd] at hhead
    exact Option.some.inj hhead

end CharStream

end TexMath
