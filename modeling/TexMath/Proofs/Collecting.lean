/-
Loops over a stream collect longest runs, whatever the source does.

# What ends a run

A loop takes characters as long as they are accepted. So it ends at the
first thing ahead that is no accepted character, and that is a refused
character, an end or a failure of the source (`Event.behind_cases`). The
three leave the stream in different states: the refused character is held,
the end is met for good, and the failure leaves nothing held and the source
open (`CharStream.Collects`).

# What a run consumes

The answer and the place of lookahead are known from what is unread, where
a character that is held stands in front like any other. What has been
consumed is a matter of the books instead: every accepted character comes
off what was not consumed, and the step that ends the loop takes nothing
(`CharStream.consumes_collectOnto`).
-/
import TexMath.Proofs.Fused
import TexMath.Proofs.Increasing
import TexMath.Proofs.Lookahead

namespace TexMath

open Text

-- ============================================================= what ends a run

/-- Behind the leading characters stands an end or a failure, or nothing. -/
theorem Event.behind_cases (events : List Event) :
    behind events = [] ∨ (∃ later, behind events = .stop :: later)
      ∨ ∃ text later, behind events = .fail text :: later := by
  induction events with
  | nil => exact .inl rfl
  | cons e rest ih =>
    cases e with
    | char c => exact ih
    | stop => exact .inr (.inl ⟨rest, rfl⟩)
    | fail text => exact .inr (.inr ⟨text, rest, rfl⟩)

namespace Unread

variable {u v : Unread} {p : Char → Bool}

/-- Where no character is taken, none is accepted. -/
theorem takeWhile_of_nextIf {answer : Except Fault (Option (Located Char))}
    (h : u.nextIf p = (answer, v)) (none_taken : ∀ c, answer ≠ .ok (some c)) :
    u.text.takeWhile p = [] := by
  have hposition := congrArg Unread.position (afterRun_of_nextIf h none_taken)
  by_contra htaken
  exact Span.afterAll_ne u.position htaken hposition

/-- What is ahead is the longest run of accepted characters, and what ends
it. -/
theorem events_eq (u : Unread) (p : Char → Bool) :
    u.events = (u.text.takeWhile p).map .char ++ (u.afterRun p).events := by
  show u.events = _ ++ ((u.text.dropWhile p).map .char ++ u.behind)
  rw [← List.append_assoc, ← List.map_append, List.takeWhile_append_dropWhile]
  exact (Event.leading_append_behind u.events).symm

/-- A run ends at a refused character, at an end, or at a failure. -/
theorem afterRun_cases (u : Unread) (p : Char → Bool) :
    (∃ c later, (u.afterRun p).events = .char c :: later ∧ p c = false)
      ∨ ((u.afterRun p).events = [] ∨ ∃ later, (u.afterRun p).events = .stop :: later)
      ∨ ∃ text later, (u.afterRun p).events = .fail text :: later := by
  show (∃ c later, (u.text.dropWhile p).map Event.char ++ u.behind = .char c :: later ∧ _)
    ∨ ((u.text.dropWhile p).map Event.char ++ u.behind = []
      ∨ ∃ later, (u.text.dropWhile p).map Event.char ++ u.behind = .stop :: later)
    ∨ ∃ text later, (u.text.dropWhile p).map Event.char ++ u.behind = .fail text :: later
  cases hrest : u.text.dropWhile p with
  | nil =>
    right
    rcases Event.behind_cases u.events with hnil | hstop | hfail
    · exact .inl (.inl hnil)
    · exact .inl (.inr hstop)
    · exact .inr hfail
  | cons c rest =>
    left
    have hhead : ∀ d ∈ (u.text.dropWhile p).head?, p d = false := Lexeme.head_dropWhile
    rw [hrest] at hhead
    exact ⟨c, _, rfl, hhead c rfl⟩

/-- A look that meets the end takes nothing from the answer. -/
theorem look_of_ends {α : Type} (answer : Except Fault α)
    (h : u.events = [] ∨ ∃ later, u.events = .stop :: later) :
    (u.look answer).1 = answer ∧ u.place = .ended := by
  unfold look place
  rcases h with hnil | ⟨later, hstop⟩
  · rw [hnil]
    exact ⟨rfl, rfl⟩
  · rw [hstop]
    exact ⟨rfl, rfl⟩

end Unread

namespace CharStream

variable {s t u : CharStream} {p : Char → Bool}

-- ========================================================= reachable streams

theorem Reaches.coherent (h : s.Reaches t) (hs : s.Coherent) : t.Coherent :=
  h.keeps (fun _ x => coherent_step x) hs

-- ======================================================== what a run consumes

/-- A loop consumes the accepted characters and no others, however it
ends. -/
theorem consumes_collectOnto (found : List Char) (p : Char → Bool) (h : s.Coherent) :
    s.Consumes (locate s.unread.position (s.unread.text.takeWhile p))
      (s.collectOnto found p).2 := by
  fun_induction collectOnto found p s with
  | case1 found s c t step ih =>
    obtain ⟨hread, hcoherent⟩ := nextIf_of_advanceIf h step
    obtain ⟨hleaves, haccepted⟩ := Unread.leaves_of_nextIf hread
    rw [hleaves.text, List.takeWhile_cons_of_pos haccepted, locate, hleaves.start,
      ← hleaves.position]
    exact (consumes_advanceIf step).trans (ih hcoherent)
  | case2 found s t step =>
    obtain ⟨hread, -⟩ := nextIf_of_advanceIf h step
    rw [Unread.takeWhile_of_nextIf hread (by simp)]
    exact consumes_advanceIf step
  | case3 found s fault t step =>
    obtain ⟨hread, -⟩ := nextIf_of_advanceIf h step
    rw [Unread.takeWhile_of_nextIf hread (by simp)]
    exact consumes_advanceIf step

-- ================================================================ longest runs

/-- Between `s` and `u` a run of accepted characters has been consumed, with
`behind` behind it in what `s` has still to read. -/
structure Takes (p : Char → Bool) (s : CharStream) (run : List Char) (behind : List Event)
    (u : CharStream) : Prop where
  ahead : s.unread.events = run.map .char ++ behind
  accepted : ∀ c ∈ run, p c = true
  consumed : s.Consumes (locate s.unread.position run) u

/-- The result of a loop that collects characters which `p` accepts, behind
the characters `current`. It has taken the longest run, and what stands
behind the run decides the rest. -/
inductive Collects (p : Char → Bool) (current : List Char) (s : CharStream) :
    Attempt CharStream (List Char) → Prop
  /-- A character that is refused is held. -/
  | refused {run : List Char} {c : Char} {later : List Event} {u : CharStream}
      (takes : Takes p s run (.char c :: later) u) (refused : p c = false)
      (held : u.lookahead = .held ⟨c, s.unread.position.afterAll run⟩)
      (left : u.source.events = later) :
      Collects p current s (.ok (current ++ run), u)
  /-- An end is final: nothing is found or changed from there on. -/
  | ended {run : List Char} {behind : List Event} {u : CharStream}
      (takes : Takes p s run behind u) (ends : behind = [] ∨ ∃ later, behind = .stop :: later)
      (exhausted : u.lookahead = .ended)
      (final : ∀ more, (u.run more).2 = u ∧ ∀ entry ∈ (u.run more).1, entry.2 = .ok none) :
      Collects p current s (.ok (current ++ run), u)
  /-- A failure takes the place of the answer; nothing is held, and the
  source can be asked again. -/
  | failed {run : List Char} {text : String} {later : List Event} {u : CharStream}
      (takes : Takes p s run (.fail text :: later) u) (empty : u.lookahead = .empty)
      (left : u.source.events = later) :
      Collects p current s (.error (.source text), u)

theorem events_unread_of_held {c : Located Char} (h : s.lookahead = .held c) :
    s.unread.events = .char c.val :: s.source.events := by
  unfold unread
  rw [h]

theorem events_unread_of_empty (h : s.lookahead = .empty) : s.unread.events = s.source.events := by
  unfold unread
  rw [h]

/-- A loop over a coherent stream takes the longest run. -/
theorem takes_collectRun (current : List Char) (p : Char → Bool) (h : s.Coherent) :
    Takes p s (s.unread.text.takeWhile p) (s.unread.afterRun p).events
      (s.collectRun current p).2 where
  ahead := s.unread.events_eq p
  accepted _ hc := List.mem_takeWhile_imp hc
  consumed := consumes_collectOnto current.reverse p h

/-- A loop over a coherent stream collects the longest run, whatever ends
it. -/
theorem collects_collectRun (current : List Char) (p : Char → Bool) (h : s.Coherent) :
    Collects p current s (s.collectRun current p) := by
  have htakes := takes_collectRun current p h
  have hplace := lookahead_collectRun current p h
  obtain ⟨hanswer, hunread, -⟩ := collectRun_follows current p h
  generalize s.collectRun current p = r at *
  obtain ⟨answer, u⟩ := r
  unfold Unread.run at hanswer hunread
  rw [List.reverse_reverse] at hanswer hunread
  rcases s.unread.afterRun_cases p with ⟨c, later, hrest, hrefused⟩ | hends | ⟨text, later, hrest⟩
  · unfold Unread.look at hanswer hunread
    unfold Unread.place at hplace
    rw [hrest] at htakes hanswer hunread hplace
    cases hanswer
    have hheld := events_unread_of_held hplace
    rw [hunread, hrest] at hheld
    cases hheld
    exact .refused htakes hrefused hplace rfl
  · obtain ⟨hlook, hended⟩ := Unread.look_of_ends _ hends
    rw [hlook] at hanswer
    rw [hended] at hplace
    cases hanswer
    exact .ended htakes hends hplace (run_of_ended hplace)
  · unfold Unread.look at hanswer hunread
    unfold Unread.place at hplace
    rw [hrest] at htakes hanswer hunread hplace
    cases hanswer
    have hopen := events_unread_of_empty hplace
    rw [hunread] at hopen
    exact .failed htakes hplace hopen.symm

/-- In every stream that a run of steps leaves, those of a lexer inside a
token among them (`reaches_tokenFrom`), a loop collects the longest run of
characters that it accepts, behind whatever has been collected before. The
text of a comment is such a run, of characters that are neither newlines
nor NUL, with nothing in front. -/
theorem collectRun_longest {source : Source} (h : (ofSource source).Reaches s) :
    (∀ current p, Collects p current s (s.collectRun current p))
    ∧ ∃ r, Collects (fun c => decide (c ≠ '\n') && decide (c ≠ '\x00')) [] s r
        ∧ s.tokenFrom '%' = r.map fun text => .comment (String.ofList text) := by
  have hcoherent : s.Coherent := h.coherent (coherent_ofSource source)
  have hcollects (current : List Char) (p : Char → Bool) := collects_collectRun current p hcoherent
  refine ⟨hcollects, _, hcollects [] _, ?_⟩
  rw [← not_endsComment]
  rfl

/-- The failure behind `ab` takes the letters along, the first of which was
held, and the next loop starts at the `c` behind the failure. -/
theorem collectRun_longest_interrupted :
    let start := ofSource (.ofEvents [.char 'a', .char 'b', .fail "t", .char 'c'] .absent)
    let s := start.peek.2
    let u := (s.collectRun [] isLetter).2
    start.Reaches s ∧ start.Reaches u
      ∧ Collects isLetter [] s (.error (.source "t"), u)
      ∧ Collects isLetter ['z'] u (.ok ['z', 'c'], (u.collectRun ['z'] isLetter).2)
      ∧ s.lookahead = .held ⟨'a', ⟨1, 1⟩⟩ ∧ u.unread = ⟨[.char 'c'], ⟨1, 3⟩⟩ := by
  intro start s u
  have hs : start.Reaches s := start.reaches_step .peek
  have hu : start.Reaches u := hs.trans (reaches_collectRun [] isLetter s)
  have hfailed : (s.collectRun [] isLetter).1 = .error (.source "t") := by decide +kernel
  have hended : (u.collectRun ['z'] isLetter).1 = .ok ['z', 'c'] := by decide +kernel
  refine ⟨hs, hu, ?_, ?_, rfl, by decide +kernel⟩
  · rw [← hfailed]
    exact (collectRun_longest hs).1 [] isLetter
  · rw [← hended]
    exact (collectRun_longest hu).1 ['z'] isLetter

end CharStream

end TexMath
