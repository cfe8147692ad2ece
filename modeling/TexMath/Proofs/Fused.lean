/-
The lexer is fused: the first end that its source reports is the last
thing it learns from it.

# What the source is asked

Every step of a stream starts with a peek, and a peek asks the source
when nothing is held and no end has been met (`CharStream.replies`). So a
run meets its end exactly when one of the replies is a reported end
(`CharStream.ended_run_iff`), and asks nothing from there on. Whether the
end came between tokens, inside one or in a bare peek makes no
difference: lexing is a run of stream steps.

# Behind the end

An ended stream is a fixed point of everything that can be done to it,
and none of it looks at the source (`Session.run_of_ended`). What the
source would still have done stays where it was: the first reported end
splits the events of the source once and for all (`CharStream.SplitByEnd`).
-/
import Mathlib.Data.List.Forall2
import TexMath.Proofs.Interruption
import TexMath.Proofs.StreamRuns

namespace TexMath

-- ============================================================== reported ends

namespace Event

/-- The events in front of the first reported end. -/
def beforeEnd (events : List Event) : List Event :=
  events.takeWhile (· ≠ .stop)

/-- The events from the first reported end on. -/
def fromEnd (events : List Event) : List Event :=
  events.dropWhile (· ≠ .stop)

theorem beforeEnd_append_fromEnd (events : List Event) :
    beforeEnd events ++ fromEnd events = events :=
  List.takeWhile_append_dropWhile

/-- What starts at a reported end starts with it. -/
theorem fromEnd_eq (events : List Event) :
    fromEnd events = [] ∨ fromEnd events = .stop :: (fromEnd events).tail := by
  have hhead := List.head?_dropWhile_not (· ≠ Event.stop) events
  unfold fromEnd
  cases hrest : events.dropWhile (· ≠ .stop) with
  | nil => exact .inl rfl
  | cons e rest =>
    rw [hrest] at hhead
    have he : e = .stop := by simpa using hhead
    exact .inr (by rw [he]; rfl)

theorem beforeEnd_text (text : List Char) (further : List Event) :
    beforeEnd (text.map .char ++ .stop :: further) = text.map .char := by
  induction text with
  | nil => rfl
  | cons c text ih => exact congrArg (Event.char c :: ·) ih

theorem fromEnd_text (text : List Char) (further : List Event) :
    fromEnd (text.map .char ++ .stop :: further) = .stop :: further := by
  induction text with
  | nil => rfl
  | cons c text ih => exact ih

theorem handed_text (text : List Char) : handed (text.map .char) = text := by
  induction text with
  | nil => rfl
  | cons c text ih => exact congrArg (c :: ·) ih

end Event

-- =========================================================== single steps

namespace CharStream

variable {s : CharStream}

theorem ended_release_iff : s.release.lookahead = .ended ↔ s.lookahead = .ended := by
  obtain ⟨tracker, lookahead⟩ := s
  cases lookahead <;> simp [release, Lookahead.release]

/-- What the source replies to a step, if the step asks it. -/
def reply? (s : CharStream) : Option Event :=
  match s.lookahead with
  | .empty => some s.source.next.1
  | _ => none

/-- What the source replies to the steps of a run, in order. -/
def replies (s : CharStream) : List Step → List Event
  | [] => []
  | x :: steps => s.reply?.toList ++ (s.step x).2.replies steps

theorem ended_peek_iff (h : s.lookahead ≠ .ended) :
    s.peek.2.lookahead = .ended ↔ s.reply? = some .stop := by
  obtain ⟨⟨⟨ahead, hint, pulled⟩, position⟩, lookahead⟩ := s
  cases lookahead with
  | held c => exact iff_of_false nofun nofun
  | ended => exact absurd rfl h
  | empty =>
    cases ahead with
    | nil => exact iff_of_true rfl rfl
    | cons e rest =>
      cases e with
      | char c => exact iff_of_false nofun nofun
      | stop => exact iff_of_true rfl rfl
      | fail text => exact iff_of_false nofun nofun

/-- A step meets the end exactly when the source replies that it ends. -/
theorem ended_step_iff (h : s.lookahead ≠ .ended) (x : Step) :
    (s.step x).2.lookahead = .ended ↔ s.reply? = some .stop := by
  rw [← ended_peek_iff h]
  rcases s.step_eq_peek_or x with hx | hx
  · rw [hx]
  · rw [hx, ended_release_iff]

-- ============================================================= ended streams

theorem peek_of_ended (h : s.lookahead = .ended) : s.peek = (.ok none, s) := by
  unfold peek
  rw [h]

theorem release_of_ended (h : s.lookahead = .ended) : s.release = s := by
  obtain ⟨tracker, lookahead⟩ := s
  subst h
  rfl

theorem advance_of_ended (h : s.lookahead = .ended) : s.advance = (.ok none, s) := by
  unfold advance
  rw [peek_of_ended h]
  exact Prod.ext rfl (release_of_ended h)

theorem step_of_ended (h : s.lookahead = .ended) (x : Step) : s.step x = (.ok none, s) := by
  cases x with
  | peek => exact peek_of_ended h
  | advance => exact advance_of_ended h
  | advanceIf test =>
    unfold step advanceWhen
    rw [peek_of_ended h]

/-- Behind the end a run finds nothing and changes nothing. -/
theorem run_of_ended (h : s.lookahead = .ended) (steps : List Step) :
    (s.run steps).2 = s ∧ ∀ entry ∈ (s.run steps).1, entry.2 = .ok none := by
  induction steps with
  | nil => exact ⟨rfl, fun entry hentry => by cases hentry⟩
  | cons x steps ih =>
    simp only [run, step_of_ended h]
    refine ⟨ih.1, fun entry hentry => ?_⟩
    rcases List.mem_cons.1 hentry with hfirst | hlater
    · rw [hfirst]
    · exact ih.2 entry hlater

/-- Nothing is found where the end has been met, and only there. -/
theorem ended_of_advance {t : CharStream} (h : s.advance = (.ok none, t)) :
    t.lookahead = .ended := by
  obtain ⟨⟨⟨ahead, hint, pulled⟩, position⟩, lookahead⟩ := s
  cases lookahead with
  | held c => cases h
  | ended => cases h; rfl
  | empty =>
    cases ahead with
    | nil => cases h; rfl
    | cons e rest => cases e <;> cases h; rfl

/-- An ended stream asks its source nothing. -/
theorem replies_of_ended (h : s.lookahead = .ended) (steps : List Step) : s.replies steps = [] := by
  induction steps with
  | nil => rfl
  | cons x steps ih =>
    unfold replies reply?
    rw [step_of_ended h, h]
    exact ih

/-- A run meets its end exactly when the source has reported one. -/
theorem ended_run_iff (h : s.lookahead ≠ .ended) (steps : List Step) :
    (s.run steps).2.lookahead = .ended ↔ .stop ∈ s.replies steps := by
  induction steps generalizing s with
  | nil => exact iff_of_false h (List.not_mem_nil)
  | cons x steps ih =>
    have hstep := ended_step_iff h x
    by_cases hended : (s.step x).2.lookahead = .ended
    · have hrun : (s.run (x :: steps)).2.lookahead = .ended := by
        show ((s.step x).2.run steps).2.lookahead = .ended
        rw [(run_of_ended hended steps).1, hended]
      refine iff_of_true hrun (List.mem_append_left _ ?_)
      rw [hstep.1 hended]
      exact List.mem_singleton_self _
    · have hreply : .stop ∉ s.reply?.toList := by
        rw [Option.mem_toList]
        exact mt hstep.2 hended
      show (((s.step x).2).run steps).2.lookahead = .ended ↔ .stop ∈ s.reply?.toList ++ _
      rw [ih hended, List.mem_append]
      exact (or_iff_right hreply).symm

-- ================================================== what the source has left

/-- Of a source that does `events`, an ended stream leaves what is behind
the first reported end, and any other stream leaves that end and all
behind it. -/
structure SplitByEnd (events : List Event) (s : CharStream) : Prop where
  behind : s.lookahead = .ended → s.source.events = (Event.fromEnd events).tail
  ahead : s.lookahead ≠ .ended →
    ∃ more, .stop ∉ more ∧ s.source.events = more ++ Event.fromEnd events

variable {events : List Event}

theorem splitByEnd_ofSource (events : List Event) (hint : Hint) :
    SplitByEnd events (ofSource (.ofEvents events hint)) := by
  refine ⟨nofun, fun _ => ⟨Event.beforeEnd events, fun hmem => ?_, ?_⟩⟩
  · simpa using List.mem_takeWhile_imp hmem
  · exact (Event.beforeEnd_append_fromEnd events).symm

theorem SplitByEnd.release (h : SplitByEnd events s) : SplitByEnd events s.release :=
  ⟨fun hended => h.behind (ended_release_iff.1 hended),
    fun hopen => h.ahead (mt ended_release_iff.2 hopen)⟩

theorem SplitByEnd.peek (h : SplitByEnd events s) : SplitByEnd events s.peek.2 := by
  obtain ⟨⟨⟨left, hint, pulled⟩, position⟩, lookahead⟩ := s
  cases lookahead with
  | held c => exact h
  | ended => exact h
  | empty =>
    obtain ⟨more, hmore, hleft⟩ := h.ahead nofun
    change left = more ++ Event.fromEnd events at hleft
    subst hleft
    cases more with
    | nil =>
      -- the source is asked right in front of its first reported end
      rcases Event.fromEnd_eq events with hend | hend
      · rw [hend]
        exact ⟨fun _ => by rw [hend]; rfl, fun hopen => absurd rfl hopen⟩
      · rw [List.nil_append, hend]
        exact ⟨fun _ => rfl, fun hopen => absurd rfl hopen⟩
    | cons e more =>
      have hlater : .stop ∉ more := fun hmem => hmore (List.mem_cons_of_mem e hmem)
      cases e with
      | char c => exact ⟨nofun, fun _ => ⟨more, hlater, rfl⟩⟩
      | stop => exact absurd List.mem_cons_self hmore
      | fail text => exact ⟨nofun, fun _ => ⟨more, hlater, rfl⟩⟩

theorem SplitByEnd.step (h : SplitByEnd events s) (x : Step) : SplitByEnd events (s.step x).2 := by
  rcases s.step_eq_peek_or x with hx | hx
  · rw [hx]
    exact h.peek
  · rw [hx]
    exact h.peek.release

/-- A stream that has met its end has asked for the events up to the first
reported end and for no other. -/
theorem left_of_ended {t : CharStream} (h : (ofSource (.ofEvents events .exact)).Reaches t)
    (hended : t.lookahead = .ended) :
    t.source.events = (Event.fromEnd events).tail
      ∧ t.source.pulled = (Event.handed (Event.beforeEnd events)).length := by
  have hsplit := h.keeps (fun s x hs => hs.step x) (splitByEnd_ofSource events .exact)
  obtain ⟨steps, rfl⟩ := h
  obtain ⟨asked, haccounts⟩ := (ofSource (.ofEvents events .exact)).accounts_run steps
  have hleft := hsplit.behind hended
  refine ⟨hleft, ?_⟩
  have hwhole : Event.beforeEnd events ++ Event.fromEnd events
      = asked ++ (Event.fromEnd events).tail := by
    rw [Event.beforeEnd_append_fromEnd, ← hleft]
    exact haccounts.source
  have hhanded : Event.handed asked = Event.handed (Event.beforeEnd events) := by
    rcases Event.fromEnd_eq events with hend | hend
    · rw [hend, List.tail_nil, List.append_nil, List.append_nil] at hwhole
      rw [hwhole]
    · rw [hend, List.tail_cons, List.append_cons] at hwhole
      rw [← List.append_cancel_right hwhole]
      exact List.filterMap_append.trans (List.append_nil _)
  rw [haccounts.pulled, hhanded]
  exact Nat.zero_add _

end CharStream

-- ============================================================ ended sessions

namespace Lexer

variable {lexer later : Lexer}

theorem nextToken_of_ended (h : lexer.chars.lookahead = .ended) :
    lexer.nextToken = (.ok none, lexer) := by
  unfold nextToken CharStream.nextToken
  rw [CharStream.advance_of_ended h]

theorem collect_of_end (found : List (Located Token)) (h : lexer.nextToken = (.ok none, later)) :
    lexer.collect found = (.ok found.reverse, later) := by
  rw [collect.eq_def, h]

/-- A call that finds the end leaves a stream that has met it. -/
theorem ended_of_nextToken (h : lexer.nextToken = (.ok none, later)) :
    later.chars.lookahead = .ended := by
  have hcall : lexer.chars.nextToken = (.ok none, later.chars) := by
    refine Prod.ext ?_ ?_
    · rw [← nextToken_fst, h]
    · rw [← chars_nextToken, h]
  rcases CharStream.nextToken_cases hcall with ⟨-, hadvance⟩ | ⟨c, u, token, hsome, -⟩
  · exact CharStream.ended_of_advance hadvance
  · cases hsome

theorem ended_of_collect {found tokens : List (Located Token)}
    (h : (lexer.collect found).1 = .ok tokens) :
    (lexer.collect found).2.chars.lookahead = .ended := by
  fun_induction collect found lexer with
  | case1 found lexer token later call ih => exact ih h
  | case2 found lexer later call => exact ended_of_nextToken call
  | case3 found lexer fault later call => cases h

end Lexer

namespace Session

variable {ε : Type} {s : Session ε}

/-- What a step answers that finds nothing. An announced length is no
such answer. -/
def Step.nothing? : Step → Option Answer
  | .token | .expanded => some (.token none)
  | .tokens | .expandedTokens => some (.tokens [])
  | .chars _ => some (.char none)
  | .hint | .charHint | .restart => none

/-- The same session with another source below it. -/
def withSource (s : Session ε) (other : Source) : Session ε :=
  { s with lexer.chars.tracker.source := other }

/-- Behind the end a step finds nothing and changes nothing. -/
theorem step_of_ended (h : s.lexer.chars.lookahead = .ended) {x : Step} (hx : x ≠ .restart) :
    (s.step x).2 = s ∧ ∀ answer ∈ x.nothing?, (s.step x).1 = .ok answer := by
  have hcall := Lexer.nextToken_of_ended h
  have hrest := Lexer.collect_of_end [] hcall
  cases x with
  | token =>
    simp only [step, hcall]
    exact ⟨rfl, fun answer ha => by cases ha; rfl⟩
  | tokens =>
    simp only [step, Lexer.rest, hrest]
    exact ⟨rfl, fun answer ha => by cases ha; rfl⟩
  | hint => exact ⟨rfl, nofun⟩
  | expanded =>
    simp only [step, Expander.nextToken, expander, hcall]
    exact ⟨rfl, fun answer ha => by cases ha; rfl⟩
  | expandedTokens =>
    simp only [step, Expander.rest, Expander.collect_eq, expander, hrest]
    exact ⟨rfl, fun answer ha => by cases ha; rfl⟩
  | restart => exact absurd rfl hx
  | chars x =>
    simp only [step, CharStream.step_of_ended h]
    exact ⟨rfl, fun answer ha => by cases ha; rfl⟩
  | charHint => exact ⟨rfl, nofun⟩

/-- Behind the end a run finds nothing and changes nothing. -/
theorem run_of_ended (h : s.lexer.chars.lookahead = .ended) {steps : List Step}
    (hsteps : .restart ∉ steps) :
    (s.run steps).2 = s
      ∧ List.Forall₂ (fun x answer => ∀ a ∈ x.nothing?, answer = .ok a) steps (s.run steps).1 := by
  induction steps with
  | nil => exact ⟨rfl, .nil⟩
  | cons x steps ih =>
    have hx : x ≠ .restart := fun hx => hsteps (hx ▸ List.mem_cons_self)
    obtain ⟨hstate, hanswers⟩ := ih fun hmem => hsteps (List.mem_cons_of_mem x hmem)
    obtain ⟨hsame, hnothing⟩ := step_of_ended h hx
    simp only [run, hsame]
    exact ⟨hstate, .cons hnothing hanswers⟩

end Session

-- ========================================================== texts with an end

/-- A run over a text with a reported end behind it gives the readings of
its lexemes, and nothing of what the source would do then. -/
theorem Unread.outcomes_ended (text : List Char) (further : List Event) (s : Span) :
    outcomes ⟨text.map .char ++ .stop :: further, s⟩ = Lexeme.readings s (Lexeme.split text) := by
  fun_induction Lexeme.split text generalizing s with
  | case1 => exact outcomes_of_end rfl
  | case2 c rest ih =>
    by_cases go : (Lexeme.first c rest).1.wants = none ∨ (Lexeme.first c rest).2 ≠ []
    · rw [outcomes_of_lexeme c rest _ s rfl (go.imp_right .inl), ih]
      rfl
    · -- the last lexeme looks at the end, and is complete then
      obtain ⟨hwanted, hlast⟩ := not_or.1 go
      obtain ⟨p, hwants⟩ := Option.ne_none_iff_exists'.1 hwanted
      have hlast : (Lexeme.first c rest).2 = [] := not_not.1 hlast
      have htoken : token ⟨(c :: rest).map .char ++ .stop :: further, s⟩
          = (((Lexeme.first c rest).1.reading.map (⟨·, s⟩)).map some,
            ⟨[], s.afterAll (Lexeme.first c rest).1.text⟩) := by
        rw [token_text c rest _ s rfl, finish_of_wants _ _ hwants, past_text _ _ _ s rfl, hlast]
        cases (Lexeme.first c rest).1.reading <;> rfl
      rw [outcomes_of_outcome _ htoken, hlast, Lexeme.split, outcomes_of_end rfl]
      rfl

/-- Draining a lexer over a string with a reported end behind it gives the
tokens of the string, and leaves what the source would still do. -/
theorem Lexer.rest_of_text_end {u : String} {tokens : List (Located Token)}
    (h : tokenize u = .ok tokens) (further : List Event) (debug : Bool) :
    let r := (ofSource (.ofEvents (u.toList.map .char ++ .stop :: further) .exact) debug).rest
    r.1 = .ok tokens ∧ r.2.chars.source.pulled = u.length ∧ r.2.chars.source.events = further := by
  intro r
  have hrest : r.1 = .ok tokens := by
    rw [rest_eq_ok_iff, outcomes_eq (CharStream.coherent_ofSource _)]
    exact (Unread.outcomes_ended u.toList further .origin).trans (tokenize_eq_ok_iff.1 h)
  have hreaches : (CharStream.ofSource
      (.ofEvents (u.toList.map .char ++ .stop :: further) .exact)).Reaches r.2.chars :=
    reaches_collect [] (ofSource _ debug)
  obtain ⟨hleft, hpulled⟩ := CharStream.left_of_ended hreaches (ended_of_collect hrest)
  rw [Event.beforeEnd_text, Event.handed_text] at hpulled
  rw [Event.fromEnd_text] at hleft
  exact ⟨hrest, hpulled.trans String.length_toList, hleft⟩

-- ================================================================ the lexer

/-- Whatever consumers do to one lexer comes to a run of stream steps, and
the lexer has met its end exactly when the source has replied to that run
that it ends. From then on the source stays behind its first reported
end and is asked nothing more, so that any other could stand in its
place; nothing is held, and nothing is found. A string with an end behind
it is therefore drained to its tokens, and no character behind the end is
handed out. -/
theorem session_fused {ε : Type} (events : List Event) (debug : Bool) (registry : Registry ε)
    {steps : List Session.Step} (h : .restart ∉ steps) :
    let s := ((Session.ofSource (.ofEvents events .exact) debug registry).run steps).2
    let start := CharStream.ofSource (.ofEvents events .exact)
    (∃ asked, (start.run asked).2 = s.lexer.chars
      ∧ (s.lexer.chars.lookahead = .ended ↔ .stop ∈ start.replies asked))
    ∧ (s.lexer.chars.lookahead = .ended →
        s.source.events = (Event.fromEnd events).tail
        ∧ s.source.pulled = (Event.handed (Event.beforeEnd events)).length
        ∧ s.lexer.chars.buffered = []
        ∧ (∀ later, s.lexer.chars.replies later = [])
        ∧ ∀ (other : Source) (more : List Session.Step), .restart ∉ more →
            ((s.withSource other).run more).2 = s.withSource other
            ∧ List.Forall₂ (fun x answer => ∀ a ∈ x.nothing?, answer = .ok a) more
                ((s.withSource other).run more).1)
    ∧ ∀ (u : String) (tokens : List (Located Token)) (further : List Event),
        tokenize u = .ok tokens →
        let r := (Lexer.ofSource
          (.ofEvents (u.toList.map .char ++ .stop :: further) .exact) debug).rest
        r.1 = .ok tokens ∧ r.2.chars.source.pulled = u.length
          ∧ r.2.chars.source.events = further := by
  intro s start
  have hreaches : start.Reaches s.lexer.chars :=
    (Session.ofSource (.ofEvents events .exact) debug registry).reaches_run h
  refine ⟨?_, fun hended => ?_, fun u tokens further hu => Lexer.rest_of_text_end hu further debug⟩
  · obtain ⟨asked, hasked⟩ := hreaches
    refine ⟨asked, hasked, ?_⟩
    rw [← hasked]
    exact CharStream.ended_run_iff (show Lookahead.empty ≠ .ended from nofun) asked
  · obtain ⟨hleft, hpulled⟩ := CharStream.left_of_ended hreaches hended
    refine ⟨hleft, hpulled, ?_, CharStream.replies_of_ended hended, fun other more hmore => ?_⟩
    · unfold CharStream.buffered
      rw [hended]
    · exact Session.run_of_ended (s := s.withSource other) hended hmore

/-- The end is met inside the number of `#1`, and the `2` behind it is
never asked for. -/
theorem session_fused_number :
    .restart ∉ [Session.Step.token] ∧
      let s := ((Session.ofSource (.ofEvents [.char '#', .char '1', .stop, .char '2'] .exact) false
        (Registry.empty : Registry Unit)).run [.token]).2
      s.lexer.chars.lookahead = .ended ∧ s.source.events = [.char '2'] ∧ s.source.pulled = 2
        ∧ ∀ test, ((s.withSource s.source).run [.chars (.advanceIf test), .tokens]).2
            = s.withSource s.source := by
  have hstep : .restart ∉ [Session.Step.token] := by simp
  obtain ⟨-, hbehind, -⟩ := session_fused [.char '#', .char '1', .stop, .char '2'] false
    (Registry.empty : Registry Unit) hstep
  have hended : ((Session.ofSource (.ofEvents [.char '#', .char '1', .stop, .char '2'] .exact) false
      (Registry.empty : Registry Unit)).run [.token]).2.lexer.chars.lookahead = .ended := by
    decide +kernel
  obtain ⟨hleft, hpulled, -, -, hmore⟩ := hbehind hended
  exact ⟨hstep, hended, hleft, hpulled, fun test => (hmore _ _ (by simp)).1⟩

end TexMath
